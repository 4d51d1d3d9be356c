import PodBudget.Proofs.Monitor.Chronicle
import PodBudget.Proofs.Monitor.Order
import PodBudget.Proofs.Monitor.Quiet
import PodBudget.Proofs.Monitor.Visits

/-!
Pods do not interfere. A cycle that holds every pod to its own plan can be foretold for one pod from its record and the
reports about it; whatever else runs, waits, completes or fails beside it makes no difference to it.
-/
namespace PodBudget.Monitor

open scoped List

variable {σ α : Type}

deriving instance DecidableEq for Sample

def about (name : String) (reports : List Sample) : List Sample := reports.filter fun sample => sample.name = name

theorem isLost_iff_about (name : String) (reports : List Sample) :
    IsLost reports name ↔ (about name reports).any (·.readings.lost) = true := by
  simp only [IsLost, about, List.any_eq_true, List.mem_filter, decide_eq_true_eq, and_assoc]

variable [Number α]

def hearing (pod : Pod α) (reports : List Sample) : Pod α :=
  reports.foldl (fun pod sample => (pod.recordSamples sample.readings).2) pod

theorem settled_hearing {pod : Pod α} (settled : pod.lastUpdate.isSome) (reports : List Sample) :
    (hearing pod reports).lastUpdate.isSome := by
  induction reports generalizing pod with
  | nil => exact settled
  | cons sample rest ih => exact ih ((pod.keeps_recordSamples sample.readings).settled settled)

theorem heard_onAllocation (node : Node σ α) {position : Monitor α × Scene σ α} {name : String} {pod : Pod α}
    (found : position.1.running.get? name = some pod) (clear : position.1.completed.get? name = none)
    (trigger : Trigger) (now : Moment) {arrival : List Sample → List Sample}
    (gathered : let samples := (takeSamples node position.1.running.entries position.2).1
      arrival samples <+~ samples) :
    let reports := about name (arrival (takeSamples node position.1.running.entries position.2).1)
    let before := (onAllocation node position trigger now arrival).1
    let gone := reports.any (·.readings.lost)
    before.notReady = position.1.notReady ∧
      before.running.get? name = (if gone then none else some (hearing pod reports)) ∧
      before.completed.get? name = if gone then some ((hearing pod reports).movedTo .completed) else none := by
  intro reports before gone
  let samples := takeSamples node position.1.running.entries position.2
  let opened := position.1.expire trigger now.instant
  obtain ⟨running, completed, notReady⟩ : opened.running = position.1.running ∧
      opened.completed = position.1.completed ∧ opened.notReady = position.1.notReady := by
    simp only [opened]
    rw [expire_eq]
    exact ⟨rfl, rfl, rfl⟩
  obtain ⟨_, ⟨_, rfl, sampled⟩, _⟩ :=
    (carries_takeSamples node position.1.running.entries position.1.running.nodup_names).on position.2
  have distinct : ((arrival samples.1).map (·.name)).Nodup :=
    nodup_of_gathered gathered (sampled.names ▸ position.1.running.nodup_names)
  have folded : (foldSamples opened.running (arrival samples.1)).1.get? name = some (hearing pod reports) := by
    rw [get?_foldSamples, running, found]
    rfl
  have lost : name ∈ (foldSamples opened.running (arrival samples.1)).2 ↔ gone = true := by
    rw [mem_gone_iff, isLost_iff_about, running, Roster.contains, found]
    exact and_iff_right rfl
  have taken : before = _ := congrArg (·.1.2) (opened.takeIn_eq distinct samples.2)
  rw [taken]
  refine ⟨?_, ?_, ?_⟩
  · rw [closings_eq]
    exact notReady
  · rw [get?_running_closings, if_congr lost rfl rfl]
    exact if_congr Iff.rfl rfl folded
  · rw [get?_completed_closings, if_congr lost rfl rfl]
    refine if_congr Iff.rfl ?_ ?_
    · rw [folded]
      rfl
    · exact completed ▸ clear

structure Promotes (names : List String) (before after : Monitor α) (deeds : List (Deed α)) : Prop where
  config : after.config = before.config
  completed : after.completed = before.completed
  apart : ∀ name ∉ names, after.running.get? name = before.running.get? name
  turns : Turns names (fun _ _ => True) deeds

theorem carries_promotes (node : Node σ α) (now : Nat) {names : List String} (distinct : names.Nodup)
    (monitor : Monitor α) :
    Carries (fun out deeds => Promotes names monitor out.2 deeds) (monitor.promoteEach node now names) := by
  induction names generalizing monitor with
  | nil => exact carries_pure ⟨rfl, rfl, fun _ _ => rfl, turns_nil⟩
  | cons first rest ih =>
    obtain ⟨fresh, distinct⟩ := List.nodup_cons.mp distinct
    rw [promoteEach]
    refine (carries_work first (Dealing.performs_askPaths node first)).bind ?_
    rintro answer _ ⟨asking, rfl, _⟩
    split
    · next paths pod _ _ =>
      have promoting := (blind_promote node monitor now first pod paths).yields
        (yields_promote node monitor now first pod paths)
      refine (carries_work first promoting).bind ?_
      rintro next _ ⟨acts, rfl, ⟨config, _, completed, ready, running, _⟩, _⟩
      refine (ih distinct next).bind ?_
      intro out deeds promotes
      have together : work first asking ++ work first acts = work first (asking ++ acts) := List.map_append.symm
      refine carries_pure ?_
      rw [List.append_nil, ← List.append_assoc, together]
      refine ⟨promotes.config.trans config, promotes.completed.trans completed, ?_, .cons fresh trivial promotes.turns⟩
      intro name absent
      obtain ⟨differs, absent⟩ := not_or.mp (mt List.mem_cons.mpr absent)
      rw [promotes.apart name absent, running, Roster.get?_insert, if_neg (Ne.symm differs)]
    · refine (ih distinct monitor).weaken ?_
      intro out deeds promotes
      refine ⟨promotes.config, promotes.completed, ?_, .cons fresh trivial promotes.turns⟩
      intro name absent
      exact promotes.apart name (not_or.mp (mt List.mem_cons.mpr absent)).2

theorem Move.config_eq {node : Node σ α} {before after : Monitor α × Scene σ α} (move : Move node before after) :
    after.1.config = before.1.config := by
  cases move with
  | @expire monitor scene trigger now => rw [expire_eq]
  | sample entries => rfl
  | report samples => rfl
  | @complete monitor scene name => exact (yields_complete monitor name scene).config
  | @allocate monitor scene remaining now =>
    obtain ⟨_, ⟨_, rfl, ends⟩, _⟩ := (carries_allocateIfActing node monitor remaining now).on scene
    exact ends.allocated.config
  | ask name => rfl
  | @promote monitor scene now name pod paths _ => exact (yields_promote node monitor now name pod paths scene).1
  | publish unix => rfl

theorem Reached.config_eq {node : Node σ α} {start position : Monitor α × Scene σ α}
    (reached : Reached node start position) : position.1.config = start.1.config := by
  induction reached with
  | start => rfl
  | @enroll monitor scene admission _ ih => exact (quiet_enroll monitor scene admission).config.trans ih
  | move _ move ih => exact move.config_eq.trans ih

section

variable (node : Node σ α) (position : Monitor α × Scene σ α) (trigger : Trigger) (now : Moment)
  (arrival : List Sample → List Sample)

def onPromotion : (Allocation × Monitor α) × Scene σ α :=
  let before := onAllocation node position trigger now arrival
  before.1.allocateIfActing node (position.1.remaining trigger now.instant) now before.2

/-- The acts of a cycle, phase by phase, and each with the pod that it was done for. -/
structure Recounts (pass : Pass α) : Prop where
  sampled : Sampled position.1.running.entries (takeSamples node position.1.running.entries position.2).1 pass.sampling
  swept : Swept position.1 (arrival (takeSamples node position.1.running.entries position.2).1)
    (onAllocation node position trigger now arrival).1 pass.completing
  closes : Closes (onAllocation node position trigger now arrival).1 (position.1.remaining trigger now.instant)
    now.instant pass.allocation (onPromotion node position trigger now arrival).1.2 pass.allocating
  promotes : Promotes (onPromotion node position trigger now arrival).1.2.notReady.names
    (onPromotion node position trigger now arrival).1.2
    (position.1.cycle node trigger now arrival position.2).1.2 pass.promoting
  allocation : pass.allocation = (position.1.cycle node trigger now arrival position.2).1.1.allocation
  acts : (position.1.cycle node trigger now arrival position.2).2.acts = position.2.acts ++ pass.deeds.map (·.act)

variable {node position arrival}

theorem recounts_exist (staged : position.1.Staged)
    (gathered : let samples := (takeSamples node position.1.running.entries position.2).1
      arrival samples <+~ samples) :
    ∃ pass, Recounts node position trigger now arrival pass := by
  let sample := takeSamples node position.1.running.entries position.2
  let before := onAllocation node position trigger now arrival
  let allotment := onPromotion node position trigger now arrival
  obtain ⟨_, ⟨sampling, rfl, sampled⟩, reading⟩ :=
    (carries_takeSamples node position.1.running.entries position.1.running.nodup_names).on position.2
  have distinct : (sample.1.map (·.name)).Nodup := sampled.names ▸ position.1.running.nodup_names
  obtain ⟨completing, swept, ending⟩ := swept_cycle node position.1 staged trigger now.instant
    (nodup_of_gathered gathered distinct) sample.2
  obtain ⟨_, ⟨allocating, rfl, closes⟩, writing⟩ :=
    (closes_allocateIfActing node before.1 (position.1.remaining trigger now.instant) now).on before.2
  obtain ⟨_, ⟨promoting, rfl, promotes⟩, starting⟩ :=
    (carries_promotes node now.instant allotment.1.2.notReady.nodup_names allotment.1.2).on allotment.2
  let pass : Pass α :=
    ⟨allotment.1.1, (arrival sample.1).map (·.name), sampling, completing, allocating, promoting⟩
  refine ⟨pass, sampled, swept, closes, ?_, rfl, pass.acts_of_phases reading ending writing starting⟩
  exact ⟨promotes.config, promotes.completed, promotes.apart, promotes.turns⟩

end

/-- What a cycle does for one pod. -/
structure Fate (α : Type) where
  running : Option (Pod α)
  completed : Option (Pod α)
  attempts : List (Node.Handle × α)
  events : List (Event α)

def fate (name : String) (after : Monitor α) (deeds : List (Deed α)) : Fate α :=
  ⟨after.running.get? name, after.completed.get? name, (own name deeds).filterMap Act.attempt?,
    (own name deeds).filterMap Act.event?⟩

def fateOf (policy : Policy α) (remaining : α) (now : Nat) (name : String) (pod : Pod α) (reports : List Sample) :
    Fate α :=
  let heard := hearing pod reports
  if reports.any (·.readings.lost) then
    ⟨none, some (heard.movedTo .completed), [],
      [.podCompleted name (heard.movedTo .completed).updates (heard.movedTo .completed).queue]⟩
  else
    let charged := charge policy 0 now heard
    let limits := (charged.plan remaining policy).limits
    ⟨some (charged.applied limits now), none, charged.attempts limits,
      [.limitsApplied charged.name limits charged.queue false]⟩

omit [Number α] in
theorem Reported.views {handles : List Node.Handle} {readings : Readings} {acts : List (Act α)}
    (reported : Reported handles readings acts) :
    acts.filterMap Act.attempt? = [] ∧ acts.filterMap Act.event? = [] := by
  obtain ⟨outcomes, _, _, rfl⟩ := reported
  have silent : ∀ act ∈ List.zipWith Act.read handles outcomes, act.attempt? = (none : Option (Node.Handle × α)) ∧
      act.event? = none := by
    intro act member
    rw [← List.map_uncurry_zip_eq_zipWith] at member
    obtain ⟨_, _, rfl⟩ := List.mem_map.mp member
    exact ⟨rfl, rfl⟩
  exact ⟨List.filterMap_eq_nil_iff.mpr fun act member => (silent act member).1,
    List.filterMap_eq_nil_iff.mpr fun act member => (silent act member).2⟩

theorem fate_of_closes {before after : Monitor α} {remaining : α} {now : Nat} {deeds : List (Deed α)}
    (closes : Closes before remaining now .perPod after deeds) {name : String} {pod : Pod α} {reports : List Sample}
    (settled : pod.lastUpdate.isSome)
    (running : before.running.get? name =
      if reports.any (·.readings.lost) then none else some (hearing pod reports))
    (completed : before.completed.get? name =
      if reports.any (·.readings.lost) then some ((hearing pod reports).movedTo .completed) else none)
    {completing : List (Act α)}
    (ended : completing = if reports.any (·.readings.lost) then [.logged (.podCompleted name
      ((hearing pod reports).movedTo .completed).updates ((hearing pod reports).movedTo .completed).queue)] else []) :
    (⟨after.running.get? name, after.completed.get? name, (completing ++ own name deeds).filterMap Act.attempt?,
      (completing ++ own name deeds).filterMap Act.event?⟩ : Fate α) =
      fateOf before.config.policy remaining now name pod reports := by
  have charging := charge_of_settled before.config.policy before.lastUpdate 0 now (settled_hearing settled reports)
  have later : after.completed = before.completed := closes.ends.allocated.completed
  unfold fateOf
  rw [closes.running_of_perPod, Roster.get?_map, later, running, completed, ended]
  -- The pass visits the pod unless one of the reports has ended it.
  obtain ⟨nothing, free⟩ | ⟨other, present, visit⟩ := closes.visit_of_perPod name
  · have gone : reports.any (·.readings.lost) = true := by
      by_contra fine
      rw [running, if_neg fine] at free
      cases free
    simp only [gone, ↓reduceIte, nothing]
    rfl
  · have fine : ¬ reports.any (·.readings.lost) = true := by
      intro gone
      rw [running, if_pos gone] at present
      cases present
    rw [running, if_neg fine] at present
    obtain rfl := Option.some.inj present
    obtain ⟨attempts, events⟩ := visit.views
    simp only [fine, ↓reduceIte, Bool.false_eq_true, List.nil_append, attempts, events, Option.map_some, planned, charging]

theorem fate_of_cycle (node : Node σ α) {config : MonitorConfig α} {health : Option Health} {start : Nat} {state : σ}
    {position : Monitor α × Scene σ α} (reached : Reached node (.new config health start, ⟨state, []⟩) position)
    {name : String} {pod : Pod α} (found : position.1.running.get? name = some pod) (trigger : Trigger) (now : Moment)
    {arrival : List Sample → List Sample}
    (gathered : let samples := (takeSamples node position.1.running.entries position.2).1
      arrival samples <+~ samples)
    (perPod : (position.1.cycle node trigger now arrival position.2).1.1.allocation = .perPod)
    {pass : Pass α} (recounts : Recounts node position trigger now arrival pass) :
    let reports := about name (arrival (takeSamples node position.1.running.entries position.2).1)
    fate name (position.1.cycle node trigger now arrival position.2).1.2 pass.deeds =
      fateOf config.policy (position.1.remaining trigger now.instant) now.instant name pod reports := by
  intro reports
  have staged := (reached.sound (staged_new config health start)).1
  have working : name ∈ position.1.running.names := (Roster.mem_names_iff ..).mpr ⟨pod, found⟩
  obtain ⟨idle, uncompleted⟩ := staged.absent_of_running working
  have clear := (Roster.get?_eq_none_iff ..).mpr uncompleted
  obtain ⟨waiting, runs, ends⟩ := heard_onAllocation node found clear trigger now gathered
  have policy : (onAllocation node position trigger now arrival).1.config = config :=
    (quiet_onAllocation node position trigger now arrival).config.trans reached.config_eq
  have closes := recounts.closes
  rw [recounts.allocation, perPod] at closes
  -- The workers only read for the pod.
  obtain ⟨_, _, _, _, _, reported⟩ := recounts.sampled.turns.taken name working
  obtain ⟨unasked, unsaid⟩ := reported.views
  have completing : own name pass.completing = if reports.any (·.readings.lost) then [.logged (.podCompleted name
      ((hearing pod reports).movedTo .completed).updates ((hearing pod reports).movedTo .completed).queue)] else [] := by
    split
    · next gone =>
      obtain ⟨record, _, recorded, completing⟩ := recounts.swept.lost name pod found ((isLost_iff_about ..).mpr gone)
      rw [ends, if_pos gone] at recorded
      obtain rfl := Option.some.inj recorded
      exact completing
    · next fine =>
      obtain ⟨_, _, _, _, completing⟩ := recounts.swept.kept name pod found (mt (isLost_iff_about ..).mp fine)
      exact completing
  -- It does not wait, so the promotions after the pass leave it alone.
  have unwaiting : name ∉ (onPromotion node position trigger now arrival).1.2.notReady.names := by
    rw [closes.ends.allocated.notReady]
    exact waiting ▸ idle
  have fated := fate_of_closes closes (staged.running name pod found).2.2.2 runs ends completing
  rw [policy, ← recounts.promotes.apart name unwaiting, ← recounts.promotes.completed] at fated
  rw [← fated, fate]
  simp only [Pass.deeds, own_append, recounts.promotes.turns.idle name unwaiting, List.append_nil,
    List.append_assoc, List.filterMap_append, unasked, unsaid, List.nil_append]

/-- Two monitors with the same settings stand where their last ticks are the same, and both run a pod with the same record.
Each goes through a cycle, for the same reason and at the same instant, in which the reports about the pod are the same and
every pod is held to its own plan. Then the pod has the same record afterwards, running or completed, the same limits have
been asked of the node for it in the same order, and the same has been said about it: whatever the other pods are and
whatever becomes of them on either side, and whatever comes of the attempts. -/
theorem isolated_of_reached {τ : Type} (node : Node σ α) (other : Node τ α) (config : MonitorConfig α)
    (health registry : Option Health) (start begun : Nat) (state : σ) (seat : τ) :
    ∀ one two, Reached node (.new config health start, ⟨state, []⟩) one →
      Reached other (.new config registry begun, ⟨seat, []⟩) two → one.1.lastExpired = two.1.lastExpired →
    ∀ name pod, one.1.running.get? name = some pod → two.1.running.get? name = some pod →
    ∀ trigger now arrival arriving,
      let samples := (takeSamples node one.1.running.entries one.2).1
      let others := (takeSamples other two.1.running.entries two.2).1
      arrival samples <+~ samples → arriving others <+~ others →
      about name (arrival samples) = about name (arriving others) →
      let cycle := one.1.cycle node trigger now arrival one.2
      let twin := two.1.cycle other trigger now arriving two.2
      cycle.1.1.allocation = .perPod → twin.1.1.allocation = .perPod →
      (∃ pass, Recounts node one trigger now arrival pass) ∧ (∃ passing, Recounts other two trigger now arriving passing) ∧
        ∀ pass passing, Recounts node one trigger now arrival pass → Recounts other two trigger now arriving passing →
          fate name cycle.1.2 pass.deeds = fate name twin.1.2 passing.deeds := by
  intro one two reached arrived ticked name pod found present trigger now arrival arriving samples others gathered
    collected same cycle twin perPod planned
  have first := recounts_exist trigger now (reached.sound (staged_new config health start)).1 gathered
  have second := recounts_exist trigger now (arrived.sound (staged_new config registry begun)).1 collected
  refine ⟨first, second, ?_⟩
  intro pass passing told telling
  have span : two.1.remaining trigger now.instant = one.1.remaining trigger now.instant := by
    have settings : two.1.config = one.1.config := arrived.config_eq.trans reached.config_eq.symm
    unfold remaining
    rw [settings, ticked]
  have here := fate_of_cycle node reached found trigger now gathered perPod told
  have there := fate_of_cycle other arrived present trigger now collected planned telling
  refine here.trans (Eq.trans ?_ there.symm)
  rw [span]
  exact congrArg (fateOf config.policy _ now.instant name pod) same

def rough : Node Unit Rat := { willing with
  read := fun _ handle => (if handle.path = "server" then .error (.missing handle.path) else .ok ⟨0, 0⟩, ())
  write := fun _ _ _ => (.error (.file "limit" (.other "sealed")), ()) }

def alone : Monitor Rat × Scene Unit Rat :=
  run willing (.new ⟨"node", 1000000000, false, .default⟩ none 0, ⟨(), []⟩)
    [.enroll ⟨"trainer", 100⟩, .cycle .tick ⟨1000000000, 1⟩ id]

/-- The same pod beside one that is about to complete and one that waits. -/
def among : Monitor Rat × Scene Unit Rat :=
  run rough (.new ⟨"node", 1000000000, false, .default⟩ (some .new) 0, ⟨(), []⟩)
    [.enroll ⟨"server", 50⟩, .enroll ⟨"trainer", 100⟩, .cycle .tick ⟨1000000000, 1⟩ id, .enroll ⟨"late", 10⟩]

theorem isolated_of_reached_among :
    ∃ pass passing,
      Recounts willing alone .tick ⟨2000000000, 2⟩ id pass ∧ Recounts rough among .tick ⟨2000000000, 2⟩ id passing ∧
      fate "trainer" (alone.1.cycle willing .tick ⟨2000000000, 2⟩ id alone.2).1.2 pass.deeds =
        fate "trainer" (among.1.cycle rough .tick ⟨2000000000, 2⟩ id among.2).1.2 passing.deeds ∧
      (among.1.cycle rough .tick ⟨2000000000, 2⟩ id among.2).1.1 = ⟨["server"], ["late"], .perPod⟩ := by
  have reached : Reached willing _ alone := .run _ .start
  have arrived : Reached rough _ among := .run _ .start
  obtain ⟨pod, found⟩ : ∃ pod, alone.1.running.get? "trainer" = some pod :=
    Option.isSome_iff_exists.mp (by decide +kernel)
  have same : alone.1.running.get? "trainer" = among.1.running.get? "trainer" := by decide +kernel
  have heard : about "trainer" (takeSamples willing alone.1.running.entries alone.2).1 =
      about "trainer" (takeSamples rough among.1.running.entries among.2).1 := by decide +kernel
  obtain ⟨⟨pass, told⟩, ⟨passing, telling⟩, fates⟩ :=
    isolated_of_reached willing rough _ none (some .new) 0 0 () () alone among reached arrived (by decide +kernel)
      "trainer" pod found (same ▸ found) .tick ⟨2000000000, 2⟩ id id (.refl _) (.refl _) heard (by decide +kernel)
      (by decide +kernel)
  exact ⟨pass, passing, told, telling, fates pass passing told telling, by decide +kernel⟩

end PodBudget.Monitor
