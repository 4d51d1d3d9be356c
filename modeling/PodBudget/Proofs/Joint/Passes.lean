import Mathlib.LinearAlgebra.Dimension.Finite
import PodBudget.Proofs.Joint.Independence
import PodBudget.Proofs.Joint.Optimum
import PodBudget.Proofs.Linear.Regular

/-!
How runs end. Where no tolerance decides, every system has a solution and every point is feasible, so a run can fail
only by running out of passes; and passes are spent on releases: between two of them the working set grows, with room
for as many constraints as there are unknowns.
-/
namespace PodBudget.Joint

variable {n : Nat} (demands : Vector (Demand ℚ) n) (policy : Policy ℚ)

namespace Search

/-- No tolerance decides the pass: each pivot is 0 or clearly is not, and the step creeps up to no constraint. -/
structure Sharp (search : Search ℚ n) : Prop where
  crisp : (stationarySystem demands search.working policy).IsCrisp
  clear : search.StepsClear demands policy

instance (search : Search ℚ n) : Decidable (search.Sharp demands policy) :=
  decidable_of_iff ((stationarySystem demands search.working policy).IsCrisp ∧ search.StepsClear demands policy)
    ⟨fun ⟨crisp, clear⟩ => ⟨crisp, clear⟩, fun ⟨crisp, clear⟩ => ⟨crisp, clear⟩⟩

def letsGo (search : Search ℚ n) : Bool :=
  match search.pass demands policy with
  | .ok (.released _) => true
  | _ => false

def Rests (search : Search ℚ n) : Prop := ∀ next, search.pass demands policy ≠ .ok (.moved next)

variable {demands policy} {search : Search ℚ n}

theorem Regular.length_working_le (regular : search.Regular demands policy) : search.working.length ≤ 2 * n := by
  have few := regular.independent.fintype_card_le_finrank
  have kinds : Fintype.card Kind = 2 := rfl
  rw [Module.finrank_fintype_fun_eq_card, Fintype.card_fin, Fintype.card_prod, Fintype.card_fin, kinds] at few
  omega

/-- What a pass of a regular search does is decided by the one solution of its system. -/
theorem Regular.outcome (positive : ∀ pod kind, 0 < (demands.get pod).weight.get kind)
    (regular : search.Regular demands policy) (sharp : search.Sharp demands policy) :
    search.SolvedExactly demands policy ∧ ∃ solution pass,
      (stationarySystem demands search.working policy).solve = .ok solution ∧
      search.pass demands policy = .ok pass ∧ Outcome search demands policy (.ofSolution solution) pass := by
  obtain ⟨solution, solved, exactly⟩ := Linear.Equations.solve_of_existsUnique sharp.crisp
    (existsUnique_stationary demands policy search.working positive regular.independent)
  have passes : ∃ pass, search.pass demands policy = .ok pass := by
    unfold pass stationary
    simp only [solved, Except.map, bind, Except.bind]
    split
    · split
      · exact ⟨_, rfl⟩
      · exact ⟨_, rfl⟩
    · exact ⟨_, rfl⟩
  obtain ⟨pass, passed⟩ := passes
  obtain ⟨again, solvedAgain, outcome⟩ := outcome_of_pass passed
  obtain rfl := Except.ok.inj (solved.symm.trans solvedAgain)
  constructor
  · intro other found
    obtain rfl := Except.ok.inj (solved.symm.trans found)
    exact exactly
  · exact ⟨solution, pass, solved, passed, outcome⟩

/-- A step that nothing blocks ends at the target, where the same working set has nowhere else to go. -/
theorem rests_of_free {solution : Vector ℚ (n * 2 + search.working.length)}
    (solved : (stationarySystem demands search.working policy).solve = .ok solution)
    (free : (search.reach demands policy (search.stepTo (Stationary.ofSolution solution).point)).blocking = none) :
    (search.walk demands policy (Stationary.ofSolution solution).point).Rests demands policy := by
  have whole := (search.reach_nearest demands policy (search.stepTo (Stationary.ofSolution solution).point)).free free
  have point : (search.walk demands policy (Stationary.ofSolution solution).point).point =
      (Stationary.ofSolution solution).point := by
    apply Point.ext_limit
    intro unknown
    rw [walk, limit_advance, whole, limit_stepTo]
    simp
  have arrived : search.walk demands policy (Stationary.ofSolution solution).point =
      ⟨(Stationary.ofSolution solution).point, search.working⟩ := by
    exact congrArg₂ Search.mk point (by simp [free])
  rw [arrived]
  intro next passed
  obtain ⟨again, solvedAgain, outcome⟩ := outcome_of_pass passed
  obtain rfl := Except.ok.inj (solved.symm.trans solvedAgain)
  cases outcome with
  | moved walks =>
    have stands : standsStill ⟨(Stationary.ofSolution solution).point, search.working⟩
        (stepTo ⟨(Stationary.ofSolution solution).point, search.working⟩ (Stationary.ofSolution solution).point) =
        true := by
      apply (standsStill_iff _ _).mpr
      intro unknown
      rw [limit_stepTo, sub_self, Pi.zero_apply, abs_zero]
      exact (tolerance_pos _).le
    cases walks.symm.trans stands

variable (demands policy search) in
/-- What a pass can come to, and what becomes of the working set. -/
inductive Turn : Prop
  | settle (settled : search.pass demands policy = .ok .settled)
  | release (next : Search ℚ n) (following : search.next? demands policy = some next)
      (lets : search.letsGo demands policy = true) (shrunk : search.working.length ≤ next.working.length + 1)
      (regular : next.Regular demands policy)
  | block (next : Search ℚ n) (following : search.next? demands policy = some next)
      (keeps : search.letsGo demands policy = false) (moves : ¬ search.Rests demands policy)
      (longer : next.working.length = search.working.length + 1) (regular : next.Regular demands policy)
  | arrive (next : Search ℚ n) (following : search.next? demands policy = some next)
      (keeps : search.letsGo demands policy = false) (moves : ¬ search.Rests demands policy)
      (same : next.working.length = search.working.length) (rests : next.Rests demands policy)
      (regular : next.Regular demands policy)

theorem Regular.turn (positive : ∀ pod kind, 0 < (demands.get pod).weight.get kind)
    (regular : search.Regular demands policy) (sharp : search.Sharp demands policy) : search.Turn demands policy := by
  obtain ⟨exactly, solution, pass, solved, passed, outcome⟩ := regular.outcome positive sharp
  cases outcome with
  | settled => exact .settle passed
  | released stands spot found =>
    refine .release { search with working := search.working.eraseIdx spot } ?_ ?_ ?_ (regular.release spot)
    · rw [next?, passed]
    · simp [letsGo, passed]
    · rw [List.length_eraseIdx]
      split <;> omega
  | moved walks =>
    have following : search.next? demands policy =
        some (search.walk demands policy (Stationary.ofSolution solution).point) := by
      rw [next?, passed]
    have keeps : search.letsGo demands policy = false := by simp [letsGo, passed]
    have moves : ¬ search.Rests demands policy := fun rests => rests _ passed
    have later := (regular_of_next positive exactly sharp.clear following regular).1
    cases blocked : (search.reach demands policy (search.stepTo (Stationary.ofSolution solution).point)).blocking with
    | none =>
      have same : (search.walk demands policy (Stationary.ofSolution solution).point).working.length =
          search.working.length := by simp [Search.walk, advance, blocked]
      exact .arrive _ following keeps moves same (rests_of_free solved blocked) later
    | some constraint =>
      have longer : (search.walk demands policy (Stationary.ofSolution solution).point).working.length =
          search.working.length + 1 := by simp [Search.walk, advance, blocked]
      exact .block _ following keeps moves longer later

theorem Turn.settled_or_next (turn : search.Turn demands policy) :
    search.pass demands policy = .ok .settled ∨
      ∃ next, search.next? demands policy = some next ∧ next.Regular demands policy := by
  cases turn with
  | settle settled => exact .inl settled
  | release next following _ _ regular => exact .inr ⟨next, following, regular⟩
  | block next following _ _ _ regular => exact .inr ⟨next, following, regular⟩
  | arrive next following _ _ _ _ regular => exact .inr ⟨next, following, regular⟩

end Search

def releases : Nat := (trail demands policy).countP (Search.letsGo demands policy)

variable {demands policy}

section run

variable (positive : ∀ pod kind, 0 < (demands.get pod).weight.get kind)
include positive

/-- A pass that is blocked makes the working set grow, one that lets go makes it shrink, and one that does neither is
followed by one that does not move. -/
theorem length_trailFrom_le {fuel : Nat} {search : Search ℚ n} (regular : search.Regular demands policy)
    (sharp : ∀ later ∈ trailFrom demands policy search fuel, later.Sharp demands policy) :
    (trailFrom demands policy search fuel).length + search.working.length ≤
        2 * n + 3 * (trailFrom demands policy search fuel).countP (Search.letsGo demands policy) + 2 ∧
      (search.Rests demands policy → (trailFrom demands policy search fuel).length + search.working.length ≤
        2 * n + 3 * (trailFrom demands policy search fuel).countP (Search.letsGo demands policy) + 1) := by
  have room := regular.length_working_le
  induction fuel generalizing search with
  | zero =>
    simp only [trailFrom, List.length_nil, List.countP_nil]
    omega
  | succ fuel ih =>
    have turn := regular.turn positive (sharp search List.mem_cons_self)
    cases turn with
    | settle settled =>
      have last : search.next? demands policy = none := by simp [Search.next?, settled]
      simp only [trailFrom, last, Option.elim_none, List.length_singleton]
      omega
    | release next following lets shrunk regular =>
      rw [trailFrom, following, Option.elim_some] at sharp ⊢
      have later := ih regular (fun other member => sharp other (List.mem_cons_of_mem _ member))
        regular.length_working_le
      rw [List.length_cons, List.countP_cons_of_pos lets]
      omega
    | block next following keeps moves longer regular =>
      rw [trailFrom, following, Option.elim_some] at sharp ⊢
      obtain ⟨later, -⟩ := ih regular (fun other member => sharp other (List.mem_cons_of_mem _ member))
        regular.length_working_le
      rw [List.length_cons, List.countP_cons_of_neg (by simp [keeps])]
      exact ⟨by omega, fun rests => absurd rests moves⟩
    | arrive next following keeps moves same rests regular =>
      rw [trailFrom, following, Option.elim_some] at sharp ⊢
      have later := (ih regular (fun other member => sharp other (List.mem_cons_of_mem _ member))
        regular.length_working_le).2 rests
      rw [List.length_cons, List.countP_cons_of_neg (by simp [keeps])]
      exact ⟨by omega, fun rests => absurd rests moves⟩

theorem searchFrom_ends {fuel : Nat} (number : Nat) {search : Search ℚ n} (regular : search.Regular demands policy)
    (sharp : ∀ later ∈ trailFrom demands policy search fuel, later.Sharp demands policy) :
    (∃ solution, searchFrom demands policy search number fuel = .ok solution) ∨
      searchFrom demands policy search number fuel = .error (.unsettled (maxPasses n)) ∧
        (trailFrom demands policy search fuel).length = fuel := by
  induction fuel generalizing search number with
  | zero => exact .inr ⟨rfl, rfl⟩
  | succ fuel ih =>
    rcases (regular.turn positive (sharp search List.mem_cons_self)).settled_or_next with settled | next
    · obtain ⟨result, finished, -⟩ := finish_of_feasible regular.feasible number
      rw [searchFrom, settled]
      exact .inl ⟨result, finished⟩
    · obtain ⟨next, following, regular⟩ := next
      rw [trailFrom, following, Option.elim_some] at sharp ⊢
      rw [searchFrom_next following, List.length_cons, Nat.add_right_cancel_iff]
      exact ih (number + 1) regular fun other member => sharp other (List.mem_cons_of_mem _ member)

end run

theorem maxPasses_eq (n : Nat) : maxPasses n = 20 * n + 12 := by
  have unknowns : (unknowns n).length = n * 2 := by simp [Joint.unknowns, Kind.all]
  simp only [maxPasses, Constraint.all, Kind.all, List.length_append, List.length_map, List.length_finRange,
    List.length_cons, List.length_nil, unknowns]
  omega

section ends

variable (positive : ∀ pod kind, 0 < (demands.get pod).weight.get kind)
  (room : ∀ kind, n * policy.minLimit ≤ policy.capacity.get kind)
  (sharp : ∀ search ∈ trail demands policy, search.Sharp demands policy)
include positive room sharp

theorem regular_of_sharp {search : Search ℚ n} (member : search ∈ trail demands policy) :
    search.Regular demands policy := by
  refine trail_forall (Search.regular_start room) ?_ search member
  intro search next member following regular
  have exactly := (regular.outcome positive (sharp search member)).1
  exact (Search.regular_of_next positive exactly (sharp search member).clear following regular).1

/-- Where no tolerance decides and the floors fit, every pass starts at a feasible point and the run returns limits,
after few passes if it lets go of few constraints; only a run that lets go of many constraints is given up. -/
theorem ends_of_sharp :
    (∀ search ∈ trail demands policy, Feasible demands policy search.point) ∧
    ((∃ solution, solve demands policy = .ok solution ∧ solution.passes ≤ 2 * n + 3 * releases demands policy + 2) ∨
      solve demands policy = .error (.unsettled (maxPasses n)) ∧ 6 * n + 3 < releases demands policy) := by
  refine ⟨fun search member => (regular_of_sharp positive room sharp member).feasible, ?_⟩
  have fits (kind : Kind) : n * policy.minLimit ≤ policy.capacity.get kind + capacityTolerance :=
    (room kind).trans (le_add_of_nonneg_right capacityTolerance_pos.le)
  have entry := (checkCapacities_ok_iff policy fun _ => Number.ofNat n * policy.minLimit).mpr fits
  have start : (Search.start n policy).Regular demands policy := Search.regular_start room
  have whole : trail demands policy = trailFrom demands policy (.start n policy) (maxPasses n) := trail_eq fits
  have run : solve demands policy = searchFrom demands policy (.start n policy) 1 (maxPasses n) := by
    rw [solve, entry]
    rfl
  have few : (trail demands policy).length ≤ 2 * n + 3 * releases demands policy + 2 := by
    rw [releases, whole]
    exact (Nat.le_add_right _ _).trans (length_trailFrom_le positive start (whole ▸ sharp)).1
  obtain ⟨solution, solved⟩ | ⟨gaveUp, full⟩ := searchFrom_ends positive 1 start (whole ▸ sharp)
  · obtain ⟨last, -, -, finished⟩ := settled_of_solve (run.trans solved)
    obtain ⟨-, -, passes, -⟩ := (finish_ok_iff last _ policy solution).mp finished
    exact .inl ⟨solution, run.trans solved, passes ▸ few⟩
  · rw [← whole, maxPasses_eq] at full
    exact .inr ⟨run.trans gaveUp, by omega⟩

end ends

/-- Two pods and a ceiling that the first steps run into, until the second pod's budget holds it back. -/
private def contested : Vector (Demand ℚ) 2 := #v[⟨⟨10, 10⟩, ⟨2, 1⟩, 0, 100⟩, ⟨⟨100, 50⟩, ⟨1, 1⟩, 0, 100⟩]

private def contestedPolicy : Policy ℚ := { Policy.default with capacity := ⟨600, 30⟩ }

theorem ends_of_sharp_contested :
    (∀ pod kind, 0 < (contested.get pod).weight.get kind) ∧
      (∀ kind, (2 : Nat) * contestedPolicy.minLimit ≤ contestedPolicy.capacity.get kind) ∧
      (∀ search ∈ trail contested contestedPolicy, search.Sharp contested contestedPolicy) ∧
      releases contested contestedPolicy = 1 ∧
      ∃ solution, solve contested contestedPolicy = .ok solution ∧ solution.passes ≤ 9 := by
  have positive : ∀ pod kind, 0 < (contested.get pod).weight.get kind := by decide +kernel
  have room : ∀ kind, (2 : Nat) * contestedPolicy.minLimit ≤ contestedPolicy.capacity.get kind := by decide +kernel
  have sharp : ∀ search ∈ trail contested contestedPolicy, search.Sharp contested contestedPolicy := by
    decide +kernel
  have once : releases contested contestedPolicy = 1 := by decide +kernel
  obtain ⟨-, found | ⟨-, many⟩⟩ := ends_of_sharp positive room sharp
  · rw [once] at found
    exact ⟨positive, room, sharp, once, found⟩
  · rw [once] at many
    omega

variable (demands policy) in
/-- A problem without negative quantities whose floors fit the capacities as the entry of a run asks. -/
structure Accepted : Prop where
  usage : ∀ pod kind, 0 ≤ (demands.get pod).usage.get kind
  weight : ∀ pod kind, 0 < (demands.get pod).weight.get kind
  available : ∀ pod, 0 ≤ (demands.get pod).available
  budgetRate : ∀ pod, 0 ≤ (demands.get pod).budgetRate
  minLimit : 0 ≤ policy.minLimit
  capacity : ∀ kind, 0 < policy.capacity.get kind
  floors : ∀ kind, n * policy.minLimit ≤ policy.capacity.get kind + capacityTolerance

/-- Floors that overflow a ceiling by less than the entry's slack contradict it once both are working constraints. -/
private def overfull : Vector (Demand ℚ) 1 := #v[⟨⟨0, 0⟩, ⟨1, 1⟩, 100, 100⟩]

private def overfullPolicy : Policy ℚ := { Policy.default with minLimit := 20001 / 2000, capacity := ⟨600, 10⟩ }

/-- Next to limits this large, a step overruns a ceiling that it approaches too slowly to be blocked by. -/
private def immense : Vector (Demand ℚ) 2 :=
  #v[⟨⟨100010, 60⟩, ⟨1, 1⟩, 0, 1000000000⟩, ⟨⟨100000010, 20⟩, ⟨1, 1⟩, 0, 1000000000⟩]

private def immensePolicy : Policy ℚ := { Policy.default with capacity := ⟨99999920, 1599 / 20⟩ }

private def faint : Vector (Demand ℚ) 1 := #v[⟨⟨0, 0⟩, ⟨1 / 10000000000000, 1 / 10000000000000⟩, 100, 100⟩]

theorem refused_of_accepted :
    (Accepted overfull overfullPolicy ∧ solve overfull overfullPolicy = .error (.unsolved (.inconsistent 3))) ∧
      (Accepted immense immensePolicy ∧
        (∀ kind, (2 : Nat) * immensePolicy.minLimit < immensePolicy.capacity.get kind) ∧
        solve immense immensePolicy = .error (.overCapacity .gpu 80 (1599 / 20))) ∧
      Accepted faint .default ∧ solve faint .default = .error (.unsolved (.inconsistent 1)) := by
  refine ⟨⟨?_, by decide +kernel⟩, ⟨?_, by decide +kernel, by decide +kernel⟩, ?_, by decide +kernel⟩
  all_goals constructor <;> decide +kernel

end PodBudget.Joint
