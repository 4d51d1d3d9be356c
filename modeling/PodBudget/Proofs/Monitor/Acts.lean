import PodBudget.Proofs.Monitor.Charge
import PodBudget.Proofs.Monitor.Deeds

/-!
What the parts of a cycle do to the node, pod by pod. The workers read; an allocation pass writes and reports; a
promotion writes the first limits and reads for a base.
-/
namespace PodBudget.Monitor

variable {σ α : Type}

def Reported (handles : List Node.Handle) (readings : Readings) (acts : List (Act α)) : Prop :=
  ∃ outcomes : List (Except Node.ProbeFault Node.Reading), outcomes.length = handles.length ∧
    readings = List.zipWith (fun handle outcome => (handle.kind, outcome)) handles outcomes ∧
    acts = List.zipWith .read handles outcomes

theorem performs_readHandles (node : Node σ α) (handles : List Node.Handle) :
    Dealing.Performs (Reported handles) (readHandles node handles) := by
  induction handles with
  | nil => exact Dealing.performs_pure ⟨[], rfl, rfl, rfl⟩
  | cons handle rest ih =>
    refine (Dealing.performs_readCounter node handle).bind ?_
    rintro outcome _ rfl
    refine ih.bind ?_
    rintro _ _ ⟨outcomes, length, rfl, rfl⟩
    refine Dealing.performs_pure ⟨outcome :: outcomes, congrArg (· + 1) length, rfl, ?_⟩
    rw [List.append_nil]
    rfl

structure Sampled (entries : List (String × Pod α)) (samples : List Sample) (deeds : List (Deed α)) : Prop where
  names : samples.map (·.name) = entries.map (·.1)
  turns : Turns (entries.map (·.1))
    (fun name acts => ∃ pod, (name, pod) ∈ entries ∧ ∃ sample ∈ samples, sample.name = name ∧
      Reported pod.handles sample.readings acts) deeds

theorem carries_takeSamples (node : Node σ α) (entries : List (String × Pod α))
    (distinct : (entries.map (·.1)).Nodup) : Carries (Sampled entries) (takeSamples node entries) := by
  induction entries with
  | nil => exact carries_pure ⟨rfl, turns_nil⟩
  | cons entry rest ih =>
    obtain ⟨name, pod⟩ := entry
    obtain ⟨fresh, distinct⟩ := List.nodup_cons.mp distinct
    refine (carries_work name (performs_readHandles node pod.handles)).bind ?_
    rintro readings _ ⟨acts, rfl, reported⟩
    refine (ih distinct).bind ?_
    intro samples deeds sampled
    refine carries_pure ⟨congrArg (name :: ·) sampled.names, ?_⟩
    rw [List.append_nil]
    refine .cons fresh ⟨pod, List.mem_cons_self, ⟨name, readings⟩, List.mem_cons_self, rfl, reported⟩ ?_
    refine sampled.turns.mono ?_
    rintro other acts ⟨entry, present, sample, member, same, reads⟩
    exact ⟨entry, List.mem_cons_of_mem _ present, sample, List.mem_cons_of_mem _ member, same, reads⟩

/-- At most one attempt at a limit, and none where there is nothing to write to. -/
def AtMostOnce (handle? : Option Node.Handle) (value : α) (acts : List (Act α)) : Prop :=
  acts = [] ∨ ∃ handle, handle? = some handle ∧ Attempt handle value acts

def Assigned (name : String) (handle? : Kind → Option Node.Handle) (acts : List (Act α)) : Prop :=
  ∃ limits queue joint cpu gpu, acts = cpu ++ gpu ++ [.logged (.limitsApplied name limits queue joint)] ∧
    AtMostOnce (handle? .cpu) limits.cpu cpu ∧ AtMostOnce (handle? .gpu) limits.gpu gpu

def IsAssigned (pod : Pod α) (acts : List (Act α)) : Prop :=
  Assigned pod.name (fun kind => (pod.resource kind).handle?) acts

theorem IsAssigned.before {before after : Pod α} {acts : List (Act α)} (name : after.name = before.name)
    (same : before.SameHandles after) (assigned : IsAssigned after acts) : IsAssigned before acts := by
  have handles : (fun kind => (after.resource kind).handle?) = fun kind => (before.resource kind).handle? := funext same
  rw [IsAssigned, name, handles] at assigned
  exact assigned

variable [Number α]

theorem atMostOnce_of_sets {resource next : Resource α} {value : α} {acts : List (Act α)}
    (sets : resource.Sets value next acts) : AtMostOnce resource.handle? value acts := by
  cases sets with
  | inForce _ _ => exact .inl rfl
  | detached _ => exact .inl rfl
  | attempt known attempt => exact .inr ⟨_, known, attempt⟩

def Takes (pod : Pod α) (limits : PerKind α) (next : Pod α) (acts : List (Act α)) : Prop :=
  ∃ writes joint, acts = writes ++ [.logged (.limitsApplied pod.name limits next.queue joint)] ∧
    pod.Sets limits next writes

theorem Takes.isAssigned {pod next : Pod α} {limits : PerKind α} {acts : List (Act α)}
    (takes : Takes pod limits next acts) : IsAssigned pod acts := by
  obtain ⟨_, joint, rfl, cpu, gpu, rfl, first, second⟩ := takes
  exact ⟨limits, next.queue, joint, cpu, gpu, rfl, atMostOnce_of_sets first, atMostOnce_of_sets second⟩

theorem Takes.sameHandles {pod next : Pod α} {limits : PerKind α} {acts : List (Act α)}
    (takes : Takes pod limits next acts) : pod.SameHandles next := by
  obtain ⟨_, _, _, sets⟩ := takes
  exact sets.sameHandles

/-- A visit to one pod: limits are asked for, and then reported. -/
def Visit (joint : Bool) (pod : Pod α) (limits : PerKind α) (acts : List (Act α)) : Prop :=
  ∃ writes, acts = writes ++ [.logged (.limitsApplied pod.name limits pod.queue joint)] ∧ pod.Asks limits writes

theorem Visit.takes {joint : Bool} {pod : Pod α} {limits : PerKind α} {acts : List (Act α)}
    (visit : Visit joint pod limits acts) (now : Nat) : Takes pod limits (pod.applied limits now) acts := by
  obtain ⟨writes, rfl, asks⟩ := visit
  exact ⟨writes, joint, rfl, asks.sets_applied now⟩

theorem performs_applyOne (node : Node σ α) (now : Nat) (joint : Bool) (pod : Pod α) (limits : PerKind α) :
    Dealing.Performs (fun out acts => out.2 = pod.applied limits now ∧ Visit joint pod limits acts)
      (applyOne node now joint pod limits) := by
  refine (pod.performs_applyLimits node limits now).bind ?_
  rintro ⟨report, _⟩ writes ⟨rfl, asks⟩
  refine (Dealing.performs_log _).bind ?_
  rintro _ _ rfl
  refine Dealing.performs_pure ⟨rfl, writes, ?_, asks⟩
  rw [List.append_nil]
  rfl

/-- One pod after another is visited, the first with the first limits, and everything is done in its turn. -/
inductive Visits (joint : Bool) : List (String × Pod α) → List (PerKind α) → List (Deed α) → Prop
  | done (limits : List (PerKind α)) : Visits joint [] limits []
  | visit {name pod limit acts entries limits deeds} (fresh : name ∉ entries.map (·.1))
    (visit : Visit joint pod limit acts) (later : Visits joint entries limits deeds) :
    Visits joint ((name, pod) :: entries) (limit :: limits) (work name acts ++ deeds)

def appliedEach (now : Nat) (entries : List (String × Pod α)) (limits : List (PerKind α)) : List (String × Pod α) :=
  List.zipWith (fun entry limit => (entry.1, entry.2.applied limit now)) entries limits

inductive Visited : List (String × Pod α) → List (PerKind α) → List (String × Pod α) → List (Deed α) → Prop
  | done (limits : List (PerKind α)) : Visited [] limits [] []
  | visit {name pod limit next acts entries limits others deeds} (fresh : name ∉ entries.map (·.1))
    (takes : Takes pod limit next acts) (later : Visited entries limits others deeds) :
    Visited ((name, pod) :: entries) (limit :: limits) ((name, next) :: others) (work name acts ++ deeds)

theorem Visits.visited {joint : Bool} {entries : List (String × Pod α)} {limits : List (PerKind α)}
    {deeds : List (Deed α)} (visits : Visits joint entries limits deeds) (now : Nat) :
    Visited entries limits (appliedEach now entries limits) deeds := by
  induction visits with
  | done limits => exact .done limits
  | visit fresh visit _ ih => exact .visit fresh (visit.takes now) ih

section

variable {entries others : List (String × Pod α)} {limits : List (PerKind α)} {deeds : List (Deed α)}
  (visited : Visited entries limits others deeds)
include visited

theorem Visited.names : others.map (·.1) = entries.map (·.1) := by
  induction visited with
  | done _ => rfl
  | visit _ _ _ ih => exact congrArg (_ :: ·) ih

theorem Visited.turns : Turns (entries.map (·.1))
    (fun name acts => ∃ pod limits next, (name, pod) ∈ entries ∧ (name, next) ∈ others ∧ Takes pod limits next acts)
    deeds := by
  induction visited with
  | done _ => exact turns_nil
  | @visit name pod limit next _ _ _ _ _ fresh takes _ ih =>
    refine .cons fresh ⟨pod, limit, next, List.mem_cons_self, List.mem_cons_self, takes⟩ ?_
    refine ih.mono ?_
    rintro other acts ⟨old, values, new, member, present, taken⟩
    exact ⟨old, values, new, List.mem_cons_of_mem _ member, List.mem_cons_of_mem _ present, taken⟩

end

private def visit (node : Node σ α) (now : Nat) (joint : Bool) (_ : String) (pod : Pod α) (limits : PerKind α) :
    StateM (Nat × Scene σ α) (Pod α) :=
  fun (failed, scene) =>
    let ((more, pod), scene) := applyOne node now joint pod limits scene
    (pod, failed + more, scene)

private theorem visits_zipEntries (node : Node σ α) (now : Nat) (joint : Bool) (entries : List (String × Pod α))
    (limits : List (PerKind α)) (distinct : (entries.map (·.1)).Nodup) (enough : entries.length ≤ limits.length)
    (failed : Nat) (state : σ) :
    ∃ count after deeds, Visits joint entries limits deeds ∧ ∀ before,
      Roster.zipEntries (visit node now joint) entries limits (failed, ⟨state, before⟩) =
        (appliedEach now entries limits, count, ⟨after, before ++ deeds.map (·.act)⟩) := by
  -- Along the entries, with the node in whatever state the visits before have left it.
  induction entries generalizing limits failed state with
  | nil =>
    refine ⟨failed, state, [], .done limits, ?_⟩
    intro before
    rw [List.map_nil, List.append_nil]
    rfl
  | cons entry rest ih =>
    obtain ⟨name, pod⟩ := entry
    obtain ⟨fresh, distinct⟩ := List.nodup_cons.mp distinct
    cases limits with
    | nil => simp at enough
    | cons limit more =>
      obtain ⟨⟨one, _⟩, between, acts, ⟨rfl, visited⟩, begins⟩ := performs_applyOne node now joint pod limit state
      obtain ⟨count, after, deeds, visits, ends⟩ :=
        ih more distinct (Nat.le_of_succ_le_succ enough) (failed + one) between
      refine ⟨count, after, work name acts ++ deeds, .visit fresh visited visits, ?_⟩
      intro before
      have first : visit node now joint name pod limit (failed, ⟨state, before⟩) =
          (pod.applied limit now, failed + one, ⟨between, before ++ acts⟩) := by
        rw [visit, begins before]
      have visits : Roster.zipEntries (visit node now joint) ((name, pod) :: rest) (limit :: more)
          (failed, ⟨state, before⟩) =
          let head := visit node now joint name pod limit (failed, ⟨state, before⟩)
          let tail := Roster.zipEntries (visit node now joint) rest more head.2
          ((name, head.1) :: tail.1, tail.2) := rfl
      rw [visits, first]
      dsimp only
      rw [ends, List.map_append, acts_work, List.append_assoc]
      rfl

theorem carries_applyEach (node : Node σ α) (now : Nat) (joint : Bool) (running : Roster (Pod α))
    (limits : List (PerKind α)) (enough : running.size ≤ limits.length) :
    Carries
      (fun out deeds => out.2.entries = appliedEach now running.entries limits ∧
        Visits joint running.entries limits deeds)
      (applyEach node now joint running limits) := by
  intro state
  obtain ⟨count, after, deeds, visits, runs⟩ :=
    visits_zipEntries node now joint running.entries limits running.nodup_names enough 0 state
  have ascending := Roster.pairwise_of_names (visits.visited now).names running.ascending
  refine ⟨(count, ⟨_, ascending⟩), after, deeds.map (·.act), ⟨deeds, rfl, rfl, visits⟩, ?_⟩
  intro before
  have traversed : running.zipTraverse (visit node now joint) limits (0, ⟨state, before⟩) =
      (⟨_, ascending⟩, count, ⟨after, before ++ deeds.map (·.act)⟩) := by
    simp only [Roster.zipTraverse, runs before]
  exact congrArg (fun out => ((out.2.1, out.1), out.2.2)) traversed

theorem carries_enforce (node : Node σ α) (monitor : Monitor α) (now : Moment) (joint : Bool)
    (limits : List (PerKind α)) (enough : monitor.running.size ≤ limits.length) :
    Carries
      (fun next deeds => next.config = monitor.config ∧ next.notReady = monitor.notReady ∧
        next.completed = monitor.completed ∧
        next.running.entries = appliedEach now.instant monitor.running.entries limits ∧
        Visits joint monitor.running.entries limits deeds)
      (monitor.enforce node now joint limits) := by
  refine (carries_applyEach node now.instant joint monitor.running limits enough).bind ?_
  rintro ⟨failed, running⟩ deeds ⟨applied, visits⟩
  refine carries_pure ⟨rfl, rfl, rfl, applied, ?_⟩
  rwa [List.append_nil]

def IsRemark (deed : Deed α) : Prop := deed.pod = none ∧ ∃ event, deed.act = .logged event ∧ event.pod? = none

omit [Number α] in
theorem carries_log (event : Event α) (shared : event.pod? = none) :
    Carries (σ := σ) (fun _ deeds => ∀ deed ∈ deeds, IsRemark deed) event.log := by
  refine (Dealing.performs_log event).weaken ?_
  rintro _ _ rfl
  refine ⟨[⟨none, .logged event⟩], rfl, ?_⟩
  intro deed member
  rw [List.mem_singleton.mp member]
  exact ⟨rfl, event, rfl, shared⟩

theorem carries_keepPrevious (monitor : Monitor α) (now : Moment) (pods : Nat) (error : Joint.JointError α) :
    Carries (σ := σ)
      (fun next deeds => next.config = monitor.config ∧ next.notReady = monitor.notReady ∧
        next.completed = monitor.completed ∧ next.running = monitor.running.map (fun _ pod => pod.stamp now.instant) ∧
        ∀ deed ∈ deeds, IsRemark deed)
      (monitor.keepPrevious now pods error) := by
  refine (carries_log _ rfl).bind ?_
  intro _ remarks remark
  refine carries_pure ⟨rfl, rfl, rfl, rfl, ?_⟩
  rwa [List.append_nil]

/-- What a pass does: every running pod is assigned limits if the pass ends with limits of its own, and nothing is done
for it otherwise. -/
structure Allocated (before : Monitor α) (outcome : Allocation) (after : Monitor α) (deeds : List (Deed α)) : Prop where
  config : after.config = before.config
  notReady : after.notReady = before.notReady
  completed : after.completed = before.completed
  names : after.running.names = before.running.names
  shared : ∀ deed ∈ deeds, deed.pod = none → IsRemark deed
  working : ∀ name pod, before.running.get? name = some pod → ∃ next, after.running.get? name = some next ∧
    pod.SameHandles next ∧ if outcome.isApplied then IsAssigned pod (own name deeds) else own name deeds = []
  idle : ∀ name ∉ before.running.names, own name deeds = []

theorem sameHandles_charge (policy : Policy α) (fallback now : Nat) (pod : Pod α) :
    pod.SameHandles (charge policy fallback now pod) := fun kind => by cases kind <;> rfl

/-- The limits that a pass comes to: those of the plans where the node can hold them, and otherwise the joint ones. -/
inductive Decides (monitor : Monitor α) (remaining : α) (now : Nat) : Allocation → List (PerKind α) → Prop
  | perPod (fits : Joint.violatedCeilings ((monitor.plans remaining now).map (·.limits)) monitor.config.policy = []) :
    Decides monitor remaining now .perPod ((monitor.plans remaining now).map (·.limits))
  | joint {limits passes} (solved : monitor.solution remaining now = .ok (limits, passes)) :
    Decides monitor remaining now (.joint passes) limits

theorem Decides.isApplied {monitor : Monitor α} {remaining : α} {now : Nat} {outcome : Allocation}
    {limits : List (PerKind α)} (decides : Decides monitor remaining now outcome limits) :
    outcome.isApplied = true := by
  cases decides <;> rfl

theorem Decides.length {monitor : Monitor α} {remaining : α} {now : Nat} {outcome : Allocation}
    {limits : List (PerKind α)} (decides : Decides monitor remaining now outcome limits) :
    limits.length = (monitor.charged now).size := by
  cases decides with
  | perPod _ => simp [plans, Roster.values, Roster.size]
  | joint solved =>
    rw [length_of_solveJointly solved]
    simp [plans, Roster.values, Roster.size]

inductive Ends (before : Monitor α) (remaining : α) (now : Nat) : Allocation → Monitor α → List (Deed α) → Prop
  | skipped : Ends before remaining now .skipped before []
  | applied {outcome limits after remarks deeds} (decides : Decides before remaining now outcome limits)
    (remark : ∀ deed ∈ remarks, IsRemark deed)
    (visited : Visited (before.charged now).entries limits after.running.entries deeds)
    (config : after.config = before.config) (notReady : after.notReady = before.notReady)
    (completed : after.completed = before.completed) : Ends before remaining now outcome after (remarks ++ deeds)
  | kept {after remarks} (remark : ∀ deed ∈ remarks, IsRemark deed)
    (stamped : after.running = (before.charged now).map fun _ pod => pod.stamp now)
    (config : after.config = before.config) (notReady : after.notReady = before.notReady)
    (completed : after.completed = before.completed) : Ends before remaining now .keptPrevious after remarks

/-- How a pass ends, with every visit in full. -/
inductive Closes (before : Monitor α) (remaining : α) (now : Nat) : Allocation → Monitor α → List (Deed α) → Prop
  | skipped : Closes before remaining now .skipped before []
  | applied {outcome limits after remarks deeds} (decides : Decides before remaining now outcome limits)
    (remark : ∀ deed ∈ remarks, IsRemark deed)
    (visits : Visits (decide (outcome ≠ .perPod)) (before.charged now).entries limits deeds)
    (running : after.running.entries = appliedEach now (before.charged now).entries limits)
    (config : after.config = before.config) (notReady : after.notReady = before.notReady)
    (completed : after.completed = before.completed) : Closes before remaining now outcome after (remarks ++ deeds)
  | kept {after remarks} (remark : ∀ deed ∈ remarks, IsRemark deed)
    (stamped : after.running = (before.charged now).map fun _ pod => pod.stamp now)
    (config : after.config = before.config) (notReady : after.notReady = before.notReady)
    (completed : after.completed = before.completed) : Closes before remaining now .keptPrevious after remarks

theorem Closes.ends {before after : Monitor α} {remaining : α} {now : Nat} {outcome : Allocation}
    {deeds : List (Deed α)} (closes : Closes before remaining now outcome after deeds) :
    Ends before remaining now outcome after deeds := by
  cases closes with
  | skipped => exact .skipped
  | applied decides remark visits running config notReady completed =>
    have visited := visits.visited now
    rw [← running] at visited
    exact .applied decides remark visited config notReady completed
  | kept remark stamped config notReady completed => exact .kept remark stamped config notReady completed

theorem closes_allocate (node : Node σ α) (monitor : Monitor α) (remaining : α) (now : Moment) :
    Carries (fun out deeds => Closes monitor remaining now.instant out.1 out.2 deeds)
      (monitor.allocate node remaining now) := by
  unfold allocate
  split
  · exact carries_pure .skipped
  · dsimp only
    split
    · next fits =>
      have decides : Decides monitor remaining now.instant .perPod _ := .perPod (List.isEmpty_iff.mp fits)
      refine (carries_enforce node _ now false _ (Nat.le_of_eq decides.length.symm)).bind ?_
      rintro next deeds ⟨config, notReady, completed, running, visits⟩
      refine carries_pure ?_
      rw [List.append_nil]
      have silent : ∀ deed ∈ ([] : List (Deed α)), IsRemark deed := by simp
      exact .applied decides silent visits running config notReady completed
    · split
      · next limits passes solved =>
        have decides : Decides monitor remaining now.instant (.joint passes) limits := .joint solved
        refine (carries_log _ rfl).bind ?_
        intro _ remarks remark
        refine (carries_enforce node _ now true _ (Nat.le_of_eq decides.length.symm)).bind ?_
        rintro next deeds ⟨config, notReady, completed, running, visits⟩
        refine carries_pure ?_
        rw [List.append_nil]
        exact .applied decides remark visits running config notReady completed
      · refine (carries_keepPrevious _ now _ _).bind ?_
        rintro next remarks ⟨config, notReady, completed, stamped, remark⟩
        refine carries_pure ?_
        rw [List.append_nil]
        exact .kept remark stamped config notReady completed

theorem closes_allocateIfActing (node : Node σ α) (monitor : Monitor α) (remaining : α) (now : Moment) :
    Carries (fun out deeds => Closes monitor remaining now.instant out.1 out.2 deeds)
      (monitor.allocateIfActing node remaining now) := by
  unfold allocateIfActing
  split
  · exact carries_pure .skipped
  · exact closes_allocate node monitor remaining now

theorem carries_allocateIfActing (node : Node σ α) (monitor : Monitor α) (remaining : α) (now : Moment) :
    Carries (fun out deeds => Ends monitor remaining now.instant out.1 out.2 deeds)
      (monitor.allocateIfActing node remaining now) :=
  (closes_allocateIfActing node monitor remaining now).weaken fun _ _ closes => closes.ends

section

variable {before after : Monitor α} {outcome : Allocation} {deeds : List (Deed α)} {remaining : α} {now : Nat}
  (ends : Ends before remaining now outcome after deeds)
include ends

omit ends in
theorem get?_charged {name : String} {pod : Pod α} (found : before.running.get? name = some pod) :
    (before.charged now).get? name = some (charge before.config.policy before.lastUpdate now pod) := by
  rw [charged, Roster.get?_map, found]
  rfl

omit ends in
theorem names_charged : (before.charged now).names = before.running.names := List.map_map

theorem Ends.allocated : Allocated before outcome after deeds := by
  have unowned {remarks : List (Deed α)} (remark : ∀ deed ∈ remarks, IsRemark deed) (name : String) :
      own name remarks = [] := own_of_unowned fun deed member => (remark deed member).1
  cases ends with
  | skipped =>
    refine ⟨rfl, rfl, rfl, rfl, nofun, ?_, fun _ _ => rfl⟩
    intro name pod found
    exact ⟨pod, found, .refl pod, rfl⟩
  | @applied _ limits _ remarks deeds decides remark visited config notReady completed =>
    refine ⟨config, notReady, completed, visited.names.trans names_charged, ?_, ?_, ?_⟩
    · intro deed member shared
      rcases List.mem_append.mp member with early | late
      · exact remark deed early
      · exact absurd shared (visited.turns.owned deed late)
    · intro name pod found
      have present : (before.charged now).get? name = _ := get?_charged found
      have listed : name ∈ (before.charged now).names := (Roster.mem_names_iff ..).mpr ⟨_, present⟩
      obtain ⟨old, _, next, inside, outside, takes⟩ := visited.turns.taken name listed
      obtain rfl := Option.some.inj (present.symm.trans ((Roster.get?_eq_some_iff ..).mpr inside))
      have charging := sameHandles_charge before.config.policy before.lastUpdate now pod
      refine ⟨next, (Roster.get?_eq_some_iff ..).mpr outside, charging.trans takes.sameHandles, ?_⟩
      rw [if_pos decides.isApplied, own_append, unowned remark, List.nil_append]
      have named : (charge before.config.policy before.lastUpdate now pod).name = pod.name := rfl
      exact takes.isAssigned.before named charging
    · intro name absent
      have elsewhere : name ∉ (before.charged now).names := by rwa [names_charged]
      rw [own_append, unowned remark, visited.turns.idle name elsewhere]
      rfl
  | kept remark stamped config notReady completed =>
    refine ⟨config, notReady, completed, ?_, fun deed member _ => remark deed member, ?_, fun name _ => unowned remark name⟩
    · rw [stamped]
      exact List.map_map.trans names_charged
    · intro name pod found
      refine ⟨(charge before.config.policy before.lastUpdate now pod).stamp now, ?_, ?_, ?_⟩
      · rw [stamped, Roster.get?_map, get?_charged found]
        rfl
      · exact (sameHandles_charge _ _ _ pod).trans fun kind => by cases kind <;> rfl
      · rw [unowned remark]
        rfl

end

end PodBudget.Monitor
