import PodBudget.Proofs.Monitor.Isolation
import PodBudget.Proofs.Rational

/-!
Cycles that find what they left. With fixed weights, and with no tokens carried over, the limits depend on the usage and the
reservations alone; so a pass over the same pods that use the same comes to the limits of the pass before it, and the
records have these already.
-/
namespace PodBudget

variable {σ : Type}

namespace Pod

variable {α : Type}

structure Unmoved (before after : Pod α) : Prop where
  grants : before.SameGrants after
  reservation : after.reservation = before.reservation

theorem Unmoved.refl (pod : Pod α) : Unmoved pod pod := ⟨.refl pod, rfl⟩

theorem Unmoved.trans {before middle after : Pod α} (first : Unmoved before middle) (second : Unmoved middle after) :
    Unmoved before after :=
  ⟨first.grants.trans second.grants, second.reservation.trans first.reservation⟩

def Has (pod : Pod α) (limits : PerKind α) : Prop :=
  ∀ kind, (pod.resource kind).written = true ∧ (pod.resource kind).limit = limits.get kind

theorem Has.unmoved {before after : Pod α} {limits : PerKind α} (has : before.Has limits)
    (unmoved : before.Unmoved after) : after.Has limits := by
  intro kind
  have same := unmoved.grants kind
  simp only [Resource.grant, Grant.mk.injEq] at same
  obtain ⟨_, limit, written⟩ := same
  exact ⟨written.trans (has kind).1, limit.trans (has kind).2⟩

theorem unmoved_recordSamples [Number α] (pod : Pod α) (readings : Readings) :
    pod.Unmoved (pod.recordSamples readings).2 :=
  ⟨pod.sameGrants_recordSamples readings, congrArg Account.reservation (pod.rests_recordSamples readings).account⟩

end Pod

theorem Resource.granted_written {resource : Resource ℚ} (attached : resource.handle?.isSome) (value : ℚ) :
    (resource.granted value).written = true ∧ (resource.granted value).limit = value := by
  unfold granted
  split
  · next inForce =>
    obtain ⟨written, same⟩ := Bool.and_eq_true_iff.mp inForce
    exact ⟨written, (beq_iff_eq.mp same).symm⟩
  · exact ⟨by simp [attached], rfl⟩

theorem Pod.has_applied {pod : Pod ℚ} (attached : ∀ kind, (pod.resource kind).handle?.isSome) (limits : PerKind ℚ)
    (now : Nat) : (pod.applied limits now).Has limits := by
  rintro (_ | _)
  · exact Resource.granted_written (attached .cpu) limits.cpu
  · exact Resource.granted_written (attached .gpu) limits.gpu

theorem Pod.Has.silent {pod : Pod ℚ} {limits : PerKind ℚ} (has : pod.Has limits) {acts : List (Act ℚ)}
    (asks : pod.Asks limits acts) : acts = [] := by
  have nowhere (kind : Kind) : (pod.resource kind).target? (limits.get kind) = none := by
    rw [Resource.target?, if_pos]
    simp [Resource.isInForce, (has kind).1, (has kind).2]
  obtain ⟨cpu, gpu, rfl, first, second⟩ := asks
  have noCpu : pod.cpu.target? limits.cpu = none := nowhere .cpu
  have noGpu : pod.gpu.target? limits.gpu = none := nowhere .gpu
  rw [noCpu] at first
  rw [noGpu] at second
  cases first
  cases second
  rfl

namespace Monitor

theorem has_appliedEach {entries : List (String × Pod ℚ)} {limits : List (PerKind ℚ)} (now : Nat)
    (enough : limits.length = entries.length)
    (attached : ∀ entry ∈ entries, ∀ kind, (entry.2.resource kind).handle?.isSome) :
    List.Forall₂ (fun entry limits => entry.2.Has limits) (appliedEach now entries limits) limits := by
  induction entries generalizing limits with
  | nil =>
    obtain rfl := List.length_eq_zero_iff.mp enough
    exact .nil
  | cons entry rest ih =>
    cases limits with
    | nil => cases enough
    | cons limit more =>
      refine .cons (Pod.has_applied (attached entry List.mem_cons_self) limit now) (ih (Nat.succ.inj enough) ?_)
      exact fun other member => attached other (List.mem_cons_of_mem _ member)

theorem Visits.silent {joint : Bool} {entries : List (String × Pod ℚ)} {limits : List (PerKind ℚ)}
    {deeds : List (Deed ℚ)} (visits : Visits joint entries limits deeds)
    (has : List.Forall₂ (fun entry limits => entry.2.Has limits) entries limits) :
    ∀ deed ∈ deeds, ∃ event, deed.act = .logged event := by
  induction visits with
  | done _ => nofun
  | visit _ visit _ ih =>
    obtain ⟨here, later⟩ := List.forall₂_cons.mp has
    obtain ⟨writes, rfl, asks⟩ := visit
    obtain rfl := here.silent asks
    intro deed member
    rcases List.mem_append.mp member with first | rest
    · obtain ⟨act, logged, rfl⟩ := List.mem_map.mp first
      exact ⟨_, List.mem_singleton.mp logged⟩
    · exact ih later deed rest

def terms (monitor : Monitor ℚ) : List (PerKind ℚ × ℚ) :=
  monitor.running.values.map fun pod => (pod.usage, pod.reservation)

def usages (monitor : Monitor ℚ) : Roster (PerKind ℚ) := monitor.running.map fun _ pod => pod.usage

/-- Nothing is carried over, and the weights are fixed. -/
structure IsFixed (policy : Policy ℚ) : Prop where
  weighted : 0 < policy.staticWeight
  spent : policy.carryOver = 0

def planFor (policy : Policy ℚ) (remaining : ℚ) (term : PerKind ℚ × ℚ) : Plan ℚ :=
  .compute term.1 (.of fun kind => kind.price * policy.staticWeight) (term.2 * remaining) remaining policy.minLimit

def demandFor (policy : Policy ℚ) (remaining : ℚ) (term : PerKind ℚ × ℚ) : Joint.Demand ℚ where
  usage := term.1
  weight := .of fun kind => kind.price * policy.staticWeight
  available := (planFor policy remaining term).available
  budgetRate := (planFor policy remaining term).budgetRate remaining

section

variable {policy : Policy ℚ} (fixed : IsFixed policy) (remaining : ℚ) (fallback now : Nat) (pod : Pod ℚ)
include fixed

theorem weights_charge :
    (charge policy fallback now pod).weights = .of fun kind => kind.price * policy.staticWeight := by
  simp only [charge, Pod.updateWeights, adaptiveWeights, fixed.weighted, ↓reduceIte]
  rfl

theorem plan_charge :
    (charge policy fallback now pod).plan remaining policy = planFor policy remaining (pod.usage, pod.reservation) := by
  unfold Pod.plan planFor
  rw [weights_charge fixed]
  have spent : (charge policy fallback now pod).available remaining policy = pod.reservation * remaining := by
    simp only [Pod.available, Tokens.available, fixed.spent, zero_mul, add_zero]
    rfl
  rw [spent]
  rfl

theorem demand_charge :
    demand remaining (charge policy fallback now pod) ((charge policy fallback now pod).plan remaining policy) =
      demandFor policy remaining (pod.usage, pod.reservation) := by
  rw [plan_charge fixed, demand, weights_charge fixed]
  rfl

end

section

variable {monitor : Monitor ℚ} (fixed : IsFixed monitor.config.policy) (remaining : ℚ) (now : Nat)
include fixed

theorem plans_eq : monitor.plans remaining now = monitor.terms.map (planFor monitor.config.policy remaining) := by
  simp only [plans, charged, terms, Roster.values, Roster.map, List.map_map]
  apply List.map_congr_left
  intro entry _
  exact plan_charge fixed remaining monitor.lastUpdate now entry.2

theorem demands_eq :
    List.zipWith (demand remaining) (monitor.charged now).values (monitor.plans remaining now) =
      monitor.terms.map (demandFor monitor.config.policy remaining) := by
  simp only [plans, charged, terms, Roster.values, Roster.map, List.map_map, List.zipWith_map, List.zipWith_self]
  apply List.map_congr_left
  intro entry _
  exact demand_charge fixed remaining monitor.lastUpdate now entry.2

end

def solveAll (policy : Policy ℚ) (demands : List (Joint.Demand ℚ)) :
    Except (Joint.JointError ℚ) (List (PerKind ℚ) × Nat) := do
  let solution ← Joint.solve demands.toArray.toVector policy
  return (solution.limits.toList, solution.passes)

theorem solution_eq {monitor : Monitor ℚ} (fixed : IsFixed monitor.config.policy) (remaining : ℚ) (now : Nat) :
    monitor.solution remaining now =
      solveAll monitor.config.policy (monitor.terms.map (demandFor monitor.config.policy remaining)) := by
  rw [← demands_eq fixed remaining now]
  rfl

theorem decision_congr {one other : Monitor ℚ} (fixed : IsFixed one.config.policy) (settings : other.config = one.config)
    (terms : other.terms = one.terms) (remaining : ℚ) (now later : Nat) :
    other.decision remaining later = one.decision remaining now := by
  have vacant : other.running.isEmpty = one.running.isEmpty := by
    have sizes := congrArg List.isEmpty terms
    simpa [Monitor.terms, Roster.values, Roster.isEmpty] using sizes
  have still : IsFixed other.config.policy := settings ▸ fixed
  unfold decision
  rw [vacant, plans_eq fixed, plans_eq still, solution_eq fixed, solution_eq still, terms, settings]

theorem has_aligned {before after : Roster (Pod ℚ)} {limits : List (PerKind ℚ)}
    (has : List.Forall₂ (fun entry limits => entry.2.Has limits) before.entries limits)
    (unmoved : before.Aligned Pod.Unmoved after) :
    List.Forall₂ (fun entry limits => entry.2.Has limits) after.entries limits := by
  obtain ⟨size, held⟩ := List.forall₂_iff_get.mp has
  obtain ⟨length, carried⟩ := List.forall₂_iff_get.mp unmoved
  refine List.forall₂_iff_get.mpr ⟨length.symm.trans size, ?_⟩
  intro i left right
  have first : i < before.entries.length := length ▸ left
  exact (held i first right).unmoved (carried i first left).2

section

variable {before after : Monitor ℚ} {remaining : ℚ} {now : Nat} {outcome : Allocation} {deeds : List (Deed ℚ)}
  (closes : Closes before remaining now outcome after deeds) (decided : outcome = (before.decision remaining now).1)
include closes decided

/-- What the pass decides, its records have afterwards, whatever came of the writes. -/
theorem Closes.has (applied : outcome.isApplied = true)
    (attached : ∀ name pod, before.running.get? name = some pod → ∀ kind, (pod.resource kind).handle?.isSome) :
    List.Forall₂ (fun entry limits => entry.2.Has limits) after.running.entries (before.decision remaining now).2 := by
  cases closes with
  | skipped => cases applied
  | kept _ _ _ _ _ => cases applied
  | applied decides _ _ running _ _ _ =>
    rw [← decides.limits_eq decided, running]
    refine has_appliedEach now decides.length ?_
    intro entry member kind
    have found := (Roster.get?_eq_some_iff ..).mpr member
    rw [charged, Roster.get?_map] at found
    obtain ⟨pod, present, same⟩ := Option.map_eq_some_iff.mp found
    rw [← same, sameHandles_charge]
    exact attached entry.1 pod present kind

theorem Closes.silent
    (has : outcome.isApplied = true →
      List.Forall₂ (fun entry limits => entry.2.Has limits) before.running.entries (before.decision remaining now).2) :
    ∀ deed ∈ deeds, ∃ event, deed.act = .logged event := by
  have remarks {remarks : List (Deed ℚ)} (remark : ∀ deed ∈ remarks, IsRemark deed) :
      ∀ deed ∈ remarks, ∃ event, deed.act = .logged event := by
    intro deed member
    obtain ⟨_, event, logged, _⟩ := remark deed member
    exact ⟨event, logged⟩
  cases closes with
  | skipped => nofun
  | kept remark _ _ _ _ => exact remarks remark
  | applied decides remark visits _ _ _ _ =>
    have unmoved : before.running.Aligned Pod.Unmoved (before.charged now) :=
      Roster.aligned_map _ before.running fun _ pod _ => ⟨sameGrants_charge _ _ _ pod, rfl⟩
    have there := has_aligned (has decides.isApplied) unmoved
    rw [← decides.limits_eq decided] at there
    intro deed member
    rcases List.mem_append.mp member with early | late
    · exact remarks remark deed early
    · exact visits.silent there deed late

end

theorem running_enroll (monitor : Monitor ℚ) (admission : Admission ℚ) (scene : Scene σ ℚ) :
    (monitor.enroll admission scene).1.2.running = monitor.running := by
  by_cases live : monitor.isLive admission.name = true
  · rw [enroll_of_live monitor admission scene live]
  · rw [enroll_of_free monitor admission scene live]
    rfl

theorem running_run_enroll (node : Node σ ℚ) (admissions : List (Admission ℚ)) (position : Monitor ℚ × Scene σ ℚ) :
    (run node position (admissions.map .enroll)).1.running = position.1.running := by
  induction admissions generalizing position with
  | nil => rfl
  | cons admission rest ih => exact (ih _).trans (running_enroll position.1 admission position.2)

theorem get?_completeAll (names : List String) (monitor : Monitor ℚ) (scene : Scene σ ℚ) {name : String} {pod : Pod ℚ}
    (found : (monitor.completeAll names scene).1.running.get? name = some pod) :
    monitor.running.get? name = some pod := by
  induction names generalizing monitor scene with
  | nil => exact found
  | cons first rest ih =>
    have earlier : (monitor.complete first scene).1.running.get? name = some pod := ih _ _ found
    rw [complete_eq, get?_running_closing] at earlier
    split at earlier
    · cases earlier
    · exact earlier

theorem unmoved_onAllocation (node : Node σ ℚ) (position : Monitor ℚ × Scene σ ℚ) (trigger : Trigger) (now : Moment)
    (arrival : List Sample → List Sample) {name : String} {pod : Pod ℚ}
    (found : (onAllocation node position trigger now arrival).1.running.get? name = some pod) :
    ∃ old, position.1.running.get? name = some old ∧ old.Unmoved pod := by
  let samples := takeSamples node position.1.running.entries position.2
  let opened := position.1.expire trigger now.instant
  have running : opened.running = position.1.running := by
    simp only [opened]
    rw [expire_eq]
  have folded : (foldSamples opened.running (arrival samples.1)).1.get? name = some pod :=
    get?_completeAll _ { opened with running := (foldSamples opened.running (arrival samples.1)).1 } samples.2 found
  rw [running] at folded
  exact (aligned_foldSamples Pod.Unmoved.refl Pod.Unmoved.trans Pod.unmoved_recordSamples _ _).get? folded

/-- Where the next tick comes with nothing but admissions before it, and its pass begins with the pods of the pass before,
none of these has moved since that pass. -/
theorem unmoved_of_recurring (node : Node σ ℚ) (before : Monitor ℚ × Scene σ ℚ) (staged : before.1.Staged) (remaining : ℚ)
    (now later : Moment) (arriving : List Sample → List Sample) (admissions : List (Admission ℚ)) :
    let pass := before.1.allocateIfActing node remaining now before.2
    let promotion := pass.1.2.promoteReady node now.instant pass.2
    let next := run node (promotion.1.2.publish now.unix, promotion.2) (admissions.map .enroll)
    let late := onAllocation node next .tick later arriving
    late.1.running.names = before.1.running.names → pass.1.2.running.Aligned Pod.Unmoved late.1.running := by
  intro pass promotion next late same
  have steady := (ensures_allocateIfActing node before.1 remaining now before.2).1
  have names : late.1.running.names = pass.1.2.running.names := same.trans steady.running.names.symm
  have stays : pass.1.2.Staged := steady.staged staged
  obtain ⟨_, ⟨_, rfl, promotes⟩, _⟩ :=
    (carries_promotes node now.instant pass.1.2.notReady.nodup_names pass.1.2).on pass.2
  apply Roster.aligned_of_get?
  intro name
  cases found : late.1.running.get? name with
  | none =>
    have absent := (Roster.get?_eq_none_iff ..).mp found
    rw [names] at absent
    rw [(Roster.get?_eq_none_iff ..).mpr absent]
    exact .none
  | some used =>
    have working : name ∈ pass.1.2.running.names := names ▸ (Roster.mem_names_iff ..).mpr ⟨used, found⟩
    obtain ⟨old, present, unmoved⟩ := unmoved_onAllocation node next .tick later arriving found
    have running : next.1.running = promotion.1.2.running := running_run_enroll node admissions _
    -- What runs at the pass does not wait, so the promotions after it leave it alone.
    have kept : promotion.1.2.running.get? name = pass.1.2.running.get? name :=
      promotes.apart name (stays.absent_of_running working).1
    rw [running, kept] at present
    rw [present]
    exact .some unmoved

theorem names_eq_of_usages {before after : Monitor ℚ} (used : after.usages = before.usages) :
    after.running.names = before.running.names := by
  have same := congrArg Roster.names used
  simpa only [usages, Roster.names, Roster.map, List.map_map, Function.comp_def] using same

theorem terms_eq {before middle after : Monitor ℚ}
    (paid : before.running.Aligned (fun pod next => next.reservation = pod.reservation) middle.running)
    (unmoved : middle.running.Aligned Pod.Unmoved after.running)
    (used : after.usages = before.usages) : after.terms = before.terms := by
  have reserved : before.running.Aligned (fun pod next => next.reservation = pod.reservation) after.running :=
    paid.comp (fun _ _ _ first second => second.reservation.trans first) unmoved
  have same : (after.running.map fun _ pod => (pod.usage, pod.reservation)) =
      before.running.map fun _ pod => (pod.usage, pod.reservation) := by
    apply Roster.ext_get?
    intro name
    have pair := reserved.rel_get? name
    have usage := congrArg (·.get? name) used
    simp only [usages, Roster.get?_map] at usage ⊢
    generalize before.running.get? name = old at pair usage ⊢
    generalize after.running.get? name = new at pair usage ⊢
    cases pair with
    | none => rfl
    | some reservation => exact congrArg some (Prod.ext (Option.some.inj usage) reservation)
  simpa only [terms, Roster.values, Roster.map, List.map_map, Function.comp_def] using congrArg Roster.values same

theorem decision_allocateIfActing (node : Node σ ℚ) (monitor : Monitor ℚ) (remaining : ℚ) (now : Moment)
    (acting : monitor.config.monitoringOnly = false) (scene : Scene σ ℚ) :
    (monitor.allocateIfActing node remaining now scene).1.1 = (monitor.decision remaining now.instant).1 := by
  rw [allocateIfActing, acting]
  exact decision_allocate node monitor remaining now scene

/-- Wherever a run stands, a tick that finds the pods and the usage of the tick before it ends its pass in the same way, and
asks nothing of the node: whatever came of the writes of the first, and however much was spent, averaged, admitted or
promoted in between. -/
theorem unwritten_of_recurring (node : Node σ ℚ) (config : MonitorConfig ℚ) (health : Option Health) (start : Nat)
    (state : σ) (acting : config.monitoringOnly = false) (fixed : IsFixed config.policy) :
    ∀ position, Reached node (.new config health start, ⟨state, []⟩) position →
    ∀ now later arrival arriving (admissions : List (Admission ℚ)),
      let cycle := position.1.cycle node .tick now arrival position.2
      let next := run node (standing cycle) (admissions.map .enroll)
      let again := next.1.cycle node .tick later arriving next.2
      let early := onAllocation node position .tick now arrival
      let late := onAllocation node next .tick later arriving
      let pass := onPromotion node next .tick later arriving
      late.1.usages = early.1.usages →
      again.1.1.allocation = pass.1.1 ∧ again.2 = (pass.1.2.promoteReady node later.instant pass.2).2 ∧
        again.1.1.allocation = cycle.1.1.allocation ∧
        ∃ acts, pass.2.acts = late.2.acts ++ acts ∧ ∀ act ∈ acts, ∃ event, act = .logged event := by
  intro position reached now later arrival arriving admissions cycle next again early late pass used
  let span := position.1.remaining .tick now.instant
  let former := onPromotion node position .tick now arrival
  have staged : early.1.Staged :=
    ((reached.moves (moves_onAllocation node position .tick now arrival)).sound (staged_new config health start)).1
  -- Neither the settings nor the period to plan for have changed.
  have ongoing : Reached node (.new config health start, ⟨state, []⟩) next :=
    (reached.moves (moves_cycle node position.1 position.2 .tick now arrival)).run (admissions.map .enroll)
  have before : early.1.config = config :=
    (quiet_onAllocation node position .tick now arrival).config.trans reached.config_eq
  have after : late.1.config = config :=
    (quiet_onAllocation node next .tick later arriving).config.trans ongoing.config_eq
  have period : next.1.remaining .tick later.instant = span := by
    have settings : next.1.config = position.1.config := ongoing.config_eq.trans reached.config_eq.symm
    simp only [span, remaining, settings]
  -- What the pass before has left, the pass finds.
  have unmoved : former.1.2.running.Aligned Pod.Unmoved late.1.running :=
    unmoved_of_recurring node early staged span now later arriving admissions (names_eq_of_usages used)
  have settles := (yields_allocateIfActing node early.1 span now (before ▸ acting) staged early.2).2
  have terms : late.1.terms = early.1.terms :=
    terms_eq (settles.imp fun _ _ pair => ⟨pair.1, pair.2.reservation⟩) unmoved used
  have decision : late.1.decision span later.instant = early.1.decision span now.instant :=
    decision_congr (before ▸ fixed) (after.trans before.symm) terms span now.instant later.instant
  have decided : former.1.1 = (early.1.decision span now.instant).1 :=
    decision_allocateIfActing node early.1 span now (before ▸ acting) early.2
  have redecided : pass.1.1 = (late.1.decision span later.instant).1 := by
    rw [← period]
    exact decision_allocateIfActing node late.1 _ later (after ▸ acting) late.2
  have outcome : pass.1.1 = former.1.1 := by rw [redecided, decision, decided]
  obtain ⟨_, ⟨works, rfl, closed⟩, _⟩ := (closes_allocateIfActing node early.1 span now).on early.2
  obtain ⟨_, ⟨deeds, rfl, closes⟩, acts⟩ :=
    (closes_allocateIfActing node late.1 (next.1.remaining .tick later.instant) later).on late.2
  have closes : Closes late.1 span later.instant pass.1.1 pass.1.2 deeds := period ▸ closes
  have silent : ∀ deed ∈ deeds, ∃ event, deed.act = .logged event := by
    refine closes.silent redecided ?_
    intro applied
    have attached name pod (found : early.1.running.get? name = some pod) := (staged.running name pod found).2.2.1
    have has := closed.has decided (outcome ▸ applied) attached
    rw [decision]
    exact has_aligned has unmoved
  refine ⟨rfl, rfl, outcome, _, acts, ?_⟩
  intro act member
  obtain ⟨deed, done, rfl⟩ := List.mem_map.mp member
  exact silent deed done

def fixedWeights : MonitorConfig Rat := ⟨"node", 1000000000, false, { Policy.default with staticWeight := 1 }⟩

/-- Two pods that ask for more than the node can hold, where nothing can be written. -/
def strained : Monitor Rat × Scene Unit Rat :=
  run rough (.new fixedWeights none 0, ⟨(), []⟩)
    [.enroll ⟨"trainer", 10000⟩, .enroll ⟨"indexer", 9000⟩, .cycle .tick ⟨1000000000, 1⟩ id]

def joined : Monitor Rat × Scene Unit Rat :=
  run rough (standing (strained.1.cycle rough .tick ⟨2000000000, 2⟩ id strained.2)) ([⟨"late", 10⟩].map .enroll)

theorem unwritten_of_recurring_strained :
    strained.1.tally.writeErrors = 4 ∧ joined.1.tally.writeErrors = 8 ∧
      (strained.1.cycle rough .tick ⟨2000000000, 2⟩ id strained.2).1.1.allocation = .joint 5 ∧
      (joined.1.cycle rough .tick ⟨4000000000, 4⟩ id joined.2).1.1.allocation = .joint 5 ∧
      ∃ acts, (onPromotion rough joined .tick ⟨4000000000, 4⟩ id).2.acts =
        (onAllocation rough joined .tick ⟨4000000000, 4⟩ id).2.acts ++ acts ∧
        ∀ act ∈ acts, ∃ event, act = .logged event := by
  have reached : Reached rough (.new fixedWeights none 0, ⟨(), []⟩) strained := .run _ .start
  have fixed : IsFixed fixedWeights.policy := ⟨by decide +kernel, by decide +kernel⟩
  have used : (onAllocation rough joined .tick ⟨4000000000, 4⟩ id).1.usages =
      (onAllocation rough strained .tick ⟨2000000000, 2⟩ id).1.usages :=
    Roster.ext_entries (by decide +kernel)
  have joint : (strained.1.cycle rough .tick ⟨2000000000, 2⟩ id strained.2).1.1.allocation = .joint 5 := by
    decide +kernel
  obtain ⟨_, _, same, silent⟩ :=
    unwritten_of_recurring rough fixedWeights none 0 () rfl fixed strained reached ⟨2000000000, 2⟩ ⟨4000000000, 4⟩ id id
      [⟨"late", 10⟩] used
  rw [← joined] at same silent
  exact ⟨by decide +kernel, by decide +kernel, joint, same.trans joint, silent⟩

end Monitor
end PodBudget
