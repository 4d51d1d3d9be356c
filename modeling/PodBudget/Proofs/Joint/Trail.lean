import Mathlib.Data.List.Chain
import PodBudget.Proofs.Joint.Rows

/-!
The passes of a run. The trail of a run lists the search at the start of each pass; what holds at the start and
survives a pass holds along the trail, and the last search of the trail decides what the run returns.
-/
namespace PodBudget.Joint

variable {n : Nat} (demands : Vector (Demand ℚ) n) (policy : Policy ℚ)

def Search.next? (search : Search ℚ n) : Option (Search ℚ n) :=
  match search.pass demands policy with
  | .ok (.moved next) => some next
  | .ok (.released next) => some next
  | _ => none

def trailFrom (search : Search ℚ n) : Nat → List (Search ℚ n)
  | 0 => []
  | fuel + 1 => search :: ((search.next? demands policy).elim [] fun next => trailFrom next fuel)

/-- The searches at the starts of the passes of a run; there are none when the floors alone overflow a capacity. -/
def trail : List (Search ℚ n) :=
  match checkCapacities (fun _ => Number.ofNat n * policy.minLimit) policy with
  | .ok () => trailFrom demands policy (.start n policy) (maxPasses n)
  | .error _ => []

theorem checkCapacities_ok_iff (total : Kind → ℚ) :
    checkCapacities total policy = .ok () ↔ ∀ kind, total kind ≤ policy.capacity.get kind + capacityTolerance := by
  have both : (∀ kind, total kind ≤ policy.capacity.get kind + capacityTolerance) ↔
      total .cpu ≤ policy.capacity.get .cpu + capacityTolerance ∧
        total .gpu ≤ policy.capacity.get .gpu + capacityTolerance :=
    ⟨fun fits => ⟨fits .cpu, fits .gpu⟩, fun fits kind => by cases kind; exacts [fits.1, fits.2]⟩
  rw [both, ← not_lt, ← not_lt]
  by_cases cpu : policy.capacity.get .cpu + capacityTolerance < total .cpu
  · simp [checkCapacities, Kind.all, cpu, bind, Except.bind, throw, throwThe, MonadExceptOf.throw]
  · by_cases gpu : policy.capacity.get .gpu + capacityTolerance < total .gpu
    · simp [checkCapacities, Kind.all, cpu, gpu, bind, Except.bind, pure, Except.pure, throw, throwThe,
        MonadExceptOf.throw]
    · simp [checkCapacities, Kind.all, cpu, gpu, bind, Except.bind, pure, Except.pure]

/-- One pod that wants more than its budget buys. -/
def scarce : Vector (Demand ℚ) 1 := #v[⟨⟨50, 20⟩, ⟨1, 1⟩, 0, 60⟩]

example : trail scarce .default =
    [⟨#v[⟨10, 10⟩], []⟩, ⟨#v[⟨150 / 7, 90 / 7⟩], [.budget 0]⟩, ⟨#v[⟨30, 10⟩], [.budget 0, .floor 0 .gpu]⟩] := by
  decide +kernel

section along

variable {demands policy}

theorem trailFrom_zero {first search : Search ℚ n} {fuel : Nat}
    (found : (trailFrom demands policy first fuel)[0]? = some search) : search = first := by
  cases fuel with
  | zero => simp [trailFrom] at found
  | succ fuel => simpa [trailFrom] using found.symm

theorem trailFrom_succ {first search next : Search ℚ n} {fuel number : Nat}
    (here : (trailFrom demands policy first fuel)[number]? = some search)
    (there : (trailFrom demands policy first fuel)[number + 1]? = some next) :
    search.next? demands policy = some next := by
  induction fuel generalizing first number with
  | zero => simp [trailFrom] at here
  | succ fuel ih =>
    rw [trailFrom, List.getElem?_cons_succ] at there
    cases following : first.next? demands policy with
    | none => simp [following] at there
    | some second =>
      rw [following] at there
      cases number with
      | zero =>
        rw [trailFrom, List.getElem?_cons_zero] at here
        obtain rfl := Option.some.inj here
        rw [following, trailFrom_zero there]
      | succ number =>
        rw [trailFrom, List.getElem?_cons_succ, following] at here
        exact ih here there

theorem trail_eq (fits : ∀ kind, n * policy.minLimit ≤ policy.capacity.get kind + capacityTolerance) :
    trail demands policy = trailFrom demands policy (.start n policy) (maxPasses n) := by
  have entry := (checkCapacities_ok_iff policy fun _ => Number.ofNat n * policy.minLimit).mpr fits
  rw [trail, entry]

theorem fits_of_mem_trail {search : Search ℚ n} (member : search ∈ trail demands policy) (kind : Kind) :
    n * policy.minLimit ≤ policy.capacity.get kind + capacityTolerance := by
  unfold trail at member
  split at member
  · next entry => exact (checkCapacities_ok_iff policy _).mp entry kind
  · simp at member

theorem next_of_trail {search next : Search ℚ n} {number : Nat}
    (here : (trail demands policy)[number]? = some search)
    (there : (trail demands policy)[number + 1]? = some next) : search.next? demands policy = some next := by
  have whole : trail demands policy = _ := trail_eq (fits_of_mem_trail (List.mem_of_getElem? here))
  rw [whole] at here there
  exact trailFrom_succ here there

/-- What holds at the start, and from each pass of the run to the next, holds along the trail. -/
theorem trail_induction {motive : Nat → Search ℚ n → Prop} (start : motive 0 (.start n policy))
    (step : ∀ number search next, search ∈ trail demands policy → search.next? demands policy = some next →
      motive number search → motive (number + 1) next) (number : Nat) (search : Search ℚ n)
    (found : (trail demands policy)[number]? = some search) : motive number search := by
  induction number generalizing search with
  | zero =>
    rw [trail_eq (fits_of_mem_trail (List.mem_of_getElem? found))] at found
    rwa [trailFrom_zero found]
  | succ number ih =>
    have inside : number < (trail demands policy).length :=
      (Nat.lt_succ_self number).trans (List.getElem?_eq_some_iff.mp found).1
    have here := List.getElem?_eq_getElem inside
    exact step number _ search (List.getElem_mem inside) (next_of_trail here found) (ih _ here)

theorem trail_forall {motive : Search ℚ n → Prop} (start : motive (.start n policy))
    (step : ∀ search next, search ∈ trail demands policy → search.next? demands policy = some next →
      motive search → motive next) (search : Search ℚ n) (member : search ∈ trail demands policy) : motive search := by
  obtain ⟨number, found⟩ := List.mem_iff_getElem?.mp member
  exact trail_induction start (fun _ => step) number search found

theorem searchFrom_next {first next : Search ℚ n} (following : first.next? demands policy = some next)
    (number fuel : Nat) :
    searchFrom demands policy first number (fuel + 1) = searchFrom demands policy next (number + 1) fuel := by
  unfold Search.next? at following
  rw [searchFrom]
  split at following
  · next moved => rw [moved, ← Option.some.inj following]
  · next released => rw [released, ← Option.some.inj following]
  · cases following

private theorem searchFrom_last {first : Search ℚ n} (last : first.next? demands policy = none) (number fuel : Nat)
    {solution : Solution ℚ n} (solved : searchFrom demands policy first number (fuel + 1) = .ok solution) :
    first.pass demands policy = .ok .settled ∧ finish first number policy = .ok solution := by
  unfold Search.next? at last
  rw [searchFrom] at solved
  cases passed : first.pass demands policy with
  | error cause => simp [passed] at solved
  | ok pass =>
    cases pass with
    | moved next => simp [passed] at last
    | released next => simp [passed] at last
    | settled => exact ⟨rfl, by rwa [passed] at solved⟩

private theorem searchFrom_settled {first search : Search ℚ n} {fuel number : Nat}
    (member : search ∈ trailFrom demands policy first fuel) (settled : search.pass demands policy = .ok .settled) :
    searchFrom demands policy first (number + 1) fuel =
      finish search (number + (trailFrom demands policy first fuel).length) policy := by
  induction fuel generalizing first number with
  | zero => simp [trailFrom] at member
  | succ fuel ih =>
    rw [trailFrom] at member ⊢
    cases following : first.next? demands policy with
    | none =>
      rw [following] at member
      obtain rfl := List.mem_singleton.mp member
      rw [searchFrom, settled]
      rfl
    | some next =>
      rw [following, Option.elim_some, List.mem_cons] at member
      obtain rfl | later := member
      · simp [Search.next?, settled] at following
      · rw [searchFrom_next following, ih later, Option.elim_some, List.length_cons, Nat.add_right_comm,
          Nat.add_assoc]

private theorem searchFrom_ok {first : Search ℚ n} {fuel number : Nat} {solution : Solution ℚ n}
    (solved : searchFrom demands policy first (number + 1) fuel = .ok solution) :
    ∃ last, (trailFrom demands policy first fuel).getLast? = some last ∧
      last.pass demands policy = .ok .settled ∧
      finish last (number + (trailFrom demands policy first fuel).length) policy = .ok solution := by
  induction fuel generalizing first number with
  | zero => simp [searchFrom] at solved
  | succ fuel ih =>
    cases following : first.next? demands policy with
    | none =>
      obtain ⟨settled, finished⟩ := searchFrom_last following _ _ solved
      refine ⟨first, ?_, settled, ?_⟩
      · rw [trailFrom, following]
        rfl
      · rw [trailFrom, following]
        exact finished
    | some next =>
      rw [searchFrom_next following] at solved
      obtain ⟨last, found, settled, finished⟩ := ih solved
      refine ⟨last, ?_, settled, ?_⟩
      · rw [trailFrom, following, Option.elim_some, List.getLast?_cons, found]
        rfl
      · rw [trailFrom, following, Option.elim_some, List.length_cons]
        rwa [Nat.add_right_comm, Nat.add_assoc] at finished

theorem solve_of_settled {search : Search ℚ n} (member : search ∈ trail demands policy)
    (settled : search.pass demands policy = .ok .settled) :
    solve demands policy = finish search (trail demands policy).length policy := by
  have fits := fits_of_mem_trail member
  have entry := (checkCapacities_ok_iff policy fun _ => Number.ofNat n * policy.minLimit).mpr fits
  rw [trail_eq fits] at member ⊢
  rw [solve, entry, ← Nat.zero_add (trailFrom _ _ _ _).length, ← searchFrom_settled member settled]
  rfl

theorem settled_of_solve {solution : Solution ℚ n} (solved : solve demands policy = .ok solution) :
    ∃ last, (trail demands policy).getLast? = some last ∧ last.pass demands policy = .ok .settled ∧
      finish last (trail demands policy).length policy = .ok solution := by
  unfold solve at solved
  cases entry : checkCapacities (fun _ => Number.ofNat n * policy.minLimit) policy with
  | error cause => simp [entry, bind, Except.bind] at solved
  | ok _ =>
    rw [entry] at solved
    rw [trail, entry, ← Nat.zero_add (trailFrom _ _ _ _).length]
    exact searchFrom_ok solved

end along

end PodBudget.Joint
