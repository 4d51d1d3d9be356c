import PodBudget.Proofs.Loop.Courses

/-!
A loop does what plain calls do. Whatever reaches it in whatever order, and whatever wakes it first, it leaves the controller
and the node as a sequence of admissions and whole cycles would. The sequence has the admissions in the order in which they
were sent, one cycle for each tick that the ticker gave, and one for each pulse that was taken.
-/
namespace PodBudget.Loop

open Monitor (Call run perform)

variable {σ α : Type}

def wakeOf : Trigger → Wake
  | .tick => .tick
  | .pulse => .pulse

namespace Occurrence

def sent? : Occurrence α → Option (Admission α)
  | .delivered (.admission admission) true => some admission
  | _ => none

def taken? (trigger : Trigger) : Occurrence α → Option Moment
  | .woken wake now => if wake = wakeOf trigger then some now else none
  | _ => none

def isPulse : Occurrence α → Bool
  | .delivered .pulse reached => reached
  | _ => false

def isCall : Occurrence α → Bool
  | .delivered .shutdown reached => reached
  | .delivered .dropShutdown _ => true
  | _ => false

def isEnd : Occurrence α → Bool
  | .woken .shutdown _ => true
  | _ => false

def isIdle : Occurrence α → Bool
  | .delivered (.admission _) reached => !reached
  | .delivered .pulse reached => !reached
  | .delivered .shutdown reached => !reached
  | .delivered _ _ => true
  | .woken _ _ => false
  | .finished _ => false

section

variable (message : Message α) (reached : Bool) (wake : Wake) (now : Moment) (arrival : List Sample → List Sample)

@[simp] theorem taken?_delivered (trigger : Trigger) : (delivered message reached).taken? trigger = none := rfl
@[simp] theorem taken?_finished (trigger : Trigger) : (finished arrival : Occurrence α).taken? trigger = none := rfl
@[simp] theorem sent?_woken : (woken wake now : Occurrence α).sent? = none := rfl
@[simp] theorem sent?_finished : (finished arrival : Occurrence α).sent? = none := rfl
@[simp] theorem isPulse_woken : (woken wake now : Occurrence α).isPulse = false := rfl
@[simp] theorem isPulse_finished : (finished arrival : Occurrence α).isPulse = false := rfl
@[simp] theorem isCall_woken : (woken wake now : Occurrence α).isCall = false := rfl
@[simp] theorem isCall_finished : (finished arrival : Occurrence α).isCall = false := rfl
@[simp] theorem isEnd_delivered : (delivered message reached).isEnd = false := rfl
@[simp] theorem isEnd_finished : (finished arrival : Occurrence α).isEnd = false := rfl

end

end Occurrence

section

variable {γ δ : Type} (items : List γ) (item : γ)

theorem filterMap_snoc (view : γ → Option δ) :
    (items ++ [item]).filterMap view = items.filterMap view ++ (view item).toList := by
  rw [List.filterMap_append]
  cases seen : view item <;> simp [seen]

theorem countP_snoc (test : γ → Bool) : (items ++ [item]).countP test = items.countP test + (test item).toNat := by
  cases passes : test item <;> simp [passes]

end

section

variable (loop : Loop α) (message : Message α)

theorem deliver_keeps :
    (loop.deliver message).2.monitor = loop.monitor ∧ (loop.deliver message).2.ticker = loop.ticker ∧
      (loop.deliver message).2.finished = loop.finished := by
  cases message <;> simp only [deliver, sendAdmission, tryPulse, closeAdmissions, closePulses, sendShutdown, dropShutdown]
  case admission => split <;> simp
  case pulse => split <;> simp
  case shutdown => split <;> simp
  all_goals simp

theorem admissions_deliver :
    (loop.deliver message).2.admissions =
      loop.admissions ++ (Occurrence.delivered message (loop.deliver message).1).sent?.toList := by
  cases message <;> simp only [deliver, sendAdmission, tryPulse, closeAdmissions, closePulses, sendShutdown, dropShutdown]
  case admission => split <;> simp [Occurrence.sent?]
  case pulse => split <;> simp [Occurrence.sent?]
  case shutdown => split <;> simp [Occurrence.sent?]
  all_goals simp [Occurrence.sent?]

theorem pulsePending_deliver :
    (loop.deliver message).2.pulsePending.toNat =
      loop.pulsePending.toNat + (Occurrence.delivered message (loop.deliver message).1).isPulse.toNat := by
  cases message <;> simp only [deliver, sendAdmission, tryPulse, closeAdmissions, closePulses, sendShutdown, dropShutdown]
  case admission => split <;> simp [Occurrence.isPulse]
  case pulse =>
    split
    · next open_ =>
      simp only [Bool.and_eq_true, Bool.not_eq_true'] at open_
      simp [Occurrence.isPulse, open_.2]
    · simp [Occurrence.isPulse]
  case shutdown => split <;> simp [Occurrence.isPulse]
  all_goals simp [Occurrence.isPulse]

theorem shutdownSeen_deliver :
    (loop.deliver message).2.shutdownSeen =
      (loop.shutdownSeen || (Occurrence.delivered message (loop.deliver message).1).isCall) := by
  cases message <;> simp only [deliver, sendAdmission, tryPulse, closeAdmissions, closePulses, sendShutdown, dropShutdown]
  case admission => split <;> simp [Occurrence.isCall]
  case pulse => split <;> simp [Occurrence.isCall]
  case shutdown => split <;> simp [Occurrence.isCall]
  all_goals simp [Occurrence.isCall]

theorem isIdle_deliver {loop : Loop α} (closed : loop.finished = true) (message : Message α) :
    (Occurrence.delivered message (loop.deliver message).1).isIdle = true := by
  cases message <;> simp [Occurrence.isIdle, deliver, sendAdmission, tryPulse, sendShutdown, closed]

end

/-- What has become of the messages and of the time of a loop, when all this has occurred since its start. -/
structure Accounts (period : Nat) (now : Moment) (occurrences : List (Occurrence α)) (loop : Loop α) : Prop where
  ticks : (Ticker.start period .delay now.instant).Yields
    ((occurrences.filterMap (Occurrence.taken? .tick)).map (·.instant)) loop.ticker
  pulses : (occurrences.filterMap (Occurrence.taken? .pulse)).length + loop.pulsePending.toNat =
    occurrences.countP Occurrence.isPulse
  called : loop.shutdownSeen = occurrences.any Occurrence.isCall
  ended : loop.finished = (period == 0 || occurrences.any Occurrence.isEnd)
  heard : occurrences.any Occurrence.isEnd = true → loop.shutdownSeen = true

namespace Accounts

variable {period : Nat} {start moment : Moment} {occurrences : List (Occurrence α)} {loop : Loop α}

theorem deliver (accounts : Accounts period start occurrences loop) (message : Message α) :
    Accounts period start (occurrences ++ [.delivered message (loop.deliver message).1]) (loop.deliver message).2 := by
  obtain ⟨_, still, going⟩ := deliver_keeps loop message
  constructor
  case ticks =>
    rw [filterMap_snoc, still]
    simpa using accounts.ticks
  case pulses =>
    rw [filterMap_snoc, countP_snoc, pulsePending_deliver, ← accounts.pulses]
    simp [Nat.add_assoc]
  case called => simp [shutdownSeen_deliver, accounts.called]
  case ended => simp [going, accounts.ended]
  case heard =>
    intro closed
    rw [shutdownSeen_deliver, accounts.heard (by simpa using closed), Bool.true_or]

theorem tick (accounts : Accounts period start occurrences loop) (ready : loop.isReady moment.instant .tick = true) :
    Accounts period start (occurrences ++ [.woken .tick moment])
      { loop with ticker := loop.ticker.next moment.instant } := by
  have due : loop.ticker.isDue moment.instant = true := by simpa [isReady, going_of_isReady ready] using ready
  constructor
  case ticks =>
    rw [filterMap_snoc]
    simpa [Occurrence.taken?, wakeOf] using accounts.ticks.tick due
  case pulses => simpa [Occurrence.taken?, wakeOf] using accounts.pulses
  case called => simp [accounts.called]
  case ended => simp [accounts.ended, Occurrence.isEnd]
  case heard =>
    intro closed
    exact accounts.heard (by simpa [Occurrence.isEnd] using closed)

theorem pulse (accounts : Accounts period start occurrences loop) (ready : loop.isReady moment.instant .pulse = true) :
    Accounts period start (occurrences ++ [.woken .pulse moment]) { loop with pulsePending := false } := by
  have waiting : loop.pulsePending = true := by simpa [isReady, going_of_isReady ready] using ready
  constructor
  case ticks => simpa [Occurrence.taken?, wakeOf] using accounts.ticks
  case pulses =>
    rw [filterMap_snoc, countP_snoc, ← accounts.pulses, waiting]
    simp [Occurrence.taken?, wakeOf]
  case called => simp [accounts.called]
  case ended => simp [accounts.ended, Occurrence.isEnd]
  case heard =>
    intro closed
    exact accounts.heard (by simpa [Occurrence.isEnd] using closed)

theorem shutdown (accounts : Accounts period start occurrences loop)
    (ready : loop.isReady moment.instant .shutdown = true) :
    Accounts period start (occurrences ++ [.woken .shutdown moment]) { loop with finished := true } := by
  have seen : loop.shutdownSeen = true := by simpa [isReady, going_of_isReady ready] using ready
  constructor
  case ticks => simpa [Occurrence.taken?, wakeOf] using accounts.ticks
  case pulses => simpa [Occurrence.taken?, wakeOf] using accounts.pulses
  case called => simp [accounts.called]
  case ended => simp [Occurrence.isEnd]
  case heard => exact fun _ => seen

theorem aside (accounts : Accounts period start occurrences loop) {occurrence : Occurrence α} {next : Loop α}
    (apart : (∃ moment, occurrence = .woken .admission moment) ∨ ∃ arrival, occurrence = .finished arrival)
    (ticker : next.ticker = loop.ticker) (pulsePending : next.pulsePending = loop.pulsePending)
    (shutdownSeen : next.shutdownSeen = loop.shutdownSeen) (finished : next.finished = loop.finished) :
    Accounts period start (occurrences ++ [occurrence]) next := by
  have untaken (trigger : Trigger) : occurrence.taken? trigger = none := by
    obtain ⟨_, rfl⟩ | ⟨_, rfl⟩ := apart
    · cases trigger <;> rfl
    · rfl
  have unheard : occurrence.isPulse = false ∧ occurrence.isCall = false ∧ occurrence.isEnd = false := by
    obtain ⟨_, rfl⟩ | ⟨_, rfl⟩ := apart <;> exact ⟨rfl, rfl, rfl⟩
  obtain ⟨noPulse, noCall, noEnd⟩ := unheard
  constructor
  case ticks => simpa [untaken, ticker] using accounts.ticks
  case pulses => simpa [untaken, noPulse, pulsePending] using accounts.pulses
  case called => simp [noCall, shutdownSeen, accounts.called]
  case ended => simp [noEnd, finished, accounts.ended]
  case heard =>
    intro closed
    rw [shutdownSeen]
    exact accounts.heard (by simpa [noEnd] using closed)

theorem step [Number α] {node : Node σ α} {course next : Course σ α} {occurrence : Occurrence α}
    (accounts : Accounts period start occurrences course.loop) (step : Step node course occurrence next) :
    Accounts period start (occurrences ++ [occurrence]) next.loop := by
  cases step with
  | deliver message => exact accounts.deliver message
  | finish arrival _ => exact accounts.aside (.inr ⟨arrival, rfl⟩) rfl rfl rfl rfl
  | wake wake now _ ready =>
    cases wake with
    | tick => exact accounts.tick ready
    | pulse => exact accounts.pulse ready
    | admission =>
      obtain ⟨_, _, _, taken⟩ := take_admission node now ready course.scene
      refine accounts.aside (.inl ⟨now, rfl⟩) ?_ ?_ ?_ ?_ <;> simp only [Course.wake, taken]
    | shutdown =>
      simp only [Course.wake, take_shutdown node now ready]
      exact accounts.shutdown ready

end Accounts

def enrolled? : Call α → Option (Admission α)
  | .enroll admission => some admission
  | .cycle .. => none

def began? (trigger : Trigger) : Call α → Option Moment
  | .enroll _ => none
  | .cycle other now _ => if other = trigger then some now else none

def Course.underway? (course : Course σ α) (trigger : Trigger) : Option Moment :=
  course.busy.bind fun cycle => if cycle.1 = trigger then some cycle.2 else none

variable [Number α]

def publication? (node : Node σ α) (position : Monitor α × Scene σ α) : Call α → Option (NodeSnapshot α)
  | .enroll _ => none
  | .cycle trigger now arrival => some (position.1.cycle node trigger now arrival position.2).1.2.published

def publications (node : Node σ α) : Monitor α × Scene σ α → List (Call α) → List (NodeSnapshot α)
  | _, [] => []
  | position, call :: rest =>
    (publication? node position call).toList ++ publications node (perform node position call) rest

theorem publications_snoc (node : Node σ α) (start : Monitor α × Scene σ α) (calls : List (Call α)) (call : Call α) :
    publications node start (calls ++ [call]) =
      publications node start calls ++ (publication? node (run node start calls) call).toList := by
  induction calls generalizing start with
  | nil => simp [publications, run]
  | cons first rest ih =>
    simp only [List.cons_append, publications, ih, List.append_assoc]
    rfl

theorem run_snoc (node : Node σ α) (start : Monitor α × Scene σ α) (calls : List (Call α)) (call : Call α) :
    run node start (calls ++ [call]) = perform node (run node start calls) call := by
  simp only [run, List.foldl_append, List.foldl_cons, List.foldl_nil]

/-- The calls that a loop has made when all this has occurred. -/
structure Refines (node : Node σ α) (start : Monitor α × Scene σ α) (occurrences : List (Occurrence α))
    (course : Course σ α) (calls : List (Call α)) : Prop where
  position : (course.loop.monitor, course.scene) = run node start calls
  shown : course.shown = publications node start calls
  admissions : calls.filterMap enrolled? ++ course.loop.admissions = occurrences.filterMap Occurrence.sent?
  cycles (trigger : Trigger) :
    calls.filterMap (began? trigger) ++ (course.underway? trigger).toList =
      occurrences.filterMap (Occurrence.taken? trigger)

namespace Refines

variable {node : Node σ α} {start : Monitor α × Scene σ α} {occurrences : List (Occurrence α)}
  {course : Course σ α} {calls : List (Call α)}

theorem deliver (refines : Refines node start occurrences course calls) (message : Message α) :
    Refines node start (occurrences ++ [.delivered message (course.loop.deliver message).1])
      (course.receive message) calls := by
  constructor
  case position =>
    rw [← refines.position, ← (deliver_keeps course.loop message).1]
    rfl
  case shown => exact refines.shown
  case admissions =>
    rw [filterMap_snoc, ← refines.admissions, List.append_assoc]
    exact congrArg _ (admissions_deliver course.loop message)
  case cycles =>
    intro trigger
    rw [filterMap_snoc, ← refines.cycles trigger]
    simp [Course.receive, Course.underway?]

theorem begin (refines : Refines node start occurrences course calls) (free : course.busy = none) (trigger : Trigger)
    {now : Moment} : Refines node start (occurrences ++ [.woken (wakeOf trigger) now])
      (course.wake node now (wakeOf trigger)) calls := by
  have begun : course.underway? trigger = none := by rw [Course.underway?, free]; rfl
  constructor
  case position => cases trigger <;> exact refines.position
  case shown => cases trigger <;> exact refines.shown
  case admissions =>
    rw [filterMap_snoc, ← refines.admissions]
    cases trigger <;> simp [Course.wake, wakeOf]
  case cycles =>
    intro other
    rw [filterMap_snoc, ← refines.cycles other]
    cases trigger <;> cases other <;> simp [Course.wake, wakeOf, Course.underway?, free, Occurrence.taken?]

theorem finish (refines : Refines node start occurrences course calls) {cycle : Trigger × Moment}
    (busy : course.busy = some cycle) (arrival : List Sample → List Sample) :
    Refines node start (occurrences ++ [.finished arrival]) (course.finish node cycle arrival)
      (calls ++ [.cycle cycle.1 cycle.2 arrival]) := by
  constructor
  case position =>
    rw [run_snoc, ← refines.position]
    rfl
  case shown =>
    rw [publications_snoc, ← refines.position, ← refines.shown]
    rfl
  case admissions =>
    rw [filterMap_snoc, filterMap_snoc, ← refines.admissions]
    simp [enrolled?, Course.finish]
  case cycles =>
    intro trigger
    rw [filterMap_snoc, filterMap_snoc, ← refines.cycles trigger]
    simp [began?, Course.underway?, Course.finish, busy]

theorem enroll (refines : Refines node start occurrences course calls) (free : course.busy = none) {now : Moment}
    (ready : course.loop.isReady now.instant .admission = true) :
    ∃ admission, Refines node start (occurrences ++ [.woken .admission now]) (course.wake node now .admission)
      (calls ++ [.enroll admission]) := by
  obtain ⟨admission, rest, queue, taken⟩ := take_admission node now ready course.scene
  refine ⟨admission, ?_⟩
  constructor
  case position =>
    simp only [Course.wake, taken]
    rw [run_snoc, ← refines.position]
    rfl
  case shown =>
    rw [publications_snoc]
    simpa [publication?, Course.wake] using refines.shown
  case admissions =>
    simp only [Course.wake, taken]
    rw [filterMap_snoc, filterMap_snoc, ← refines.admissions, queue]
    simp [enrolled?]
  case cycles =>
    intro trigger
    rw [filterMap_snoc, filterMap_snoc, ← refines.cycles trigger]
    cases trigger <;> simp [began?, Course.underway?, Course.wake, free, Occurrence.taken?, wakeOf]

theorem shutdown (refines : Refines node start occurrences course calls) {now : Moment}
    (ready : course.loop.isReady now.instant .shutdown = true) :
    Refines node start (occurrences ++ [.woken .shutdown now]) (course.wake node now .shutdown) calls := by
  have taken := take_shutdown node now ready course.scene
  constructor
  case position => simpa only [Course.wake, taken] using refines.position
  case shown => exact refines.shown
  case admissions =>
    simp only [Course.wake, taken]
    rw [filterMap_snoc, ← refines.admissions]
    simp
  case cycles =>
    intro trigger
    rw [filterMap_snoc, ← refines.cycles trigger]
    cases trigger <;> simp [Course.underway?, Course.wake, Occurrence.taken?, wakeOf]

theorem step (refines : Refines node start occurrences course calls) {occurrence : Occurrence α} {next : Course σ α}
    (step : Step node course occurrence next) :
    ∃ more, Refines node start (occurrences ++ [occurrence]) next (calls ++ more) := by
  cases step with
  | deliver message => exact ⟨[], by simpa using refines.deliver message⟩
  | finish arrival busy => exact ⟨_, refines.finish busy arrival⟩
  | wake wake now free ready =>
    cases wake with
    | tick => exact ⟨[], by simpa [wakeOf] using refines.begin free .tick⟩
    | pulse => exact ⟨[], by simpa [wakeOf] using refines.begin free .pulse⟩
    | admission =>
      obtain ⟨admission, enrolled⟩ := refines.enroll free ready
      exact ⟨_, enrolled⟩
    | shutdown => exact ⟨[], by simpa using refines.shutdown ready⟩

end Refines

theorem refines_of_steps {node : Node σ α} {monitor : Monitor α} {now : Moment} {scene : Scene σ α}
    {occurrences : List (Occurrence α)} {course : Course σ α}
    (steps : Steps node (.start monitor now scene) occurrences course) :
    Accounts monitor.config.period now occurrences course.loop ∧
      ∃ calls, Refines node ((start monitor now).monitor, scene) occurrences course calls := by
  -- Along the steps, with the calls that have been made by then; a step adds one at most.
  induction steps with
  | start =>
    refine ⟨⟨.start, rfl, rfl, ?_, nofun⟩, [], rfl, rfl, rfl, fun _ => rfl⟩
    simp [Course.start, start]
  | step _ step ih =>
    obtain ⟨accounts, calls, refines⟩ := ih
    obtain ⟨more, refines⟩ := refines.step step
    exact ⟨accounts.step step, calls ++ more, refines⟩

structure IsOver (course : Course σ α) : Prop where
  finished : course.loop.finished = true
  free : course.busy = none

theorem Step.isOver {node : Node σ α} {course next : Course σ α} {occurrence : Occurrence α}
    (step : Step node course occurrence next) (before : course.loop.finished = true → IsOver course)
    (finished : next.loop.finished = true) : IsOver next := by
  refine ⟨finished, ?_⟩
  cases step with
  | deliver message => exact (before ((deliver_keeps course.loop message).2.2.symm.trans finished)).free
  | finish _ _ => rfl
  | wake wake now free ready =>
    have going := going_of_isReady ready
    cases wake with
    | tick => exact absurd finished (by simp [Course.wake, going])
    | pulse => exact absurd finished (by simp [Course.wake, going])
    | admission => exact free
    | shutdown => exact free

theorem isOver_of_steps {node : Node σ α} {monitor : Monitor α} {now : Moment} {scene : Scene σ α}
    {occurrences : List (Occurrence α)} {course : Course σ α}
    (steps : Steps node (.start monitor now scene) occurrences course) (finished : course.loop.finished = true) :
    IsOver course := by
  induction steps with
  | start => exact ⟨finished, rfl⟩
  | step _ step ih => exact step.isOver ih finished

theorem IsOver.steps {node : Node σ α} {course later : Course σ α} {rest : List (Occurrence α)} (closed : IsOver course)
    (steps : Steps node course rest later) :
    IsOver later ∧ later.loop.monitor = course.loop.monitor ∧ later.scene = course.scene ∧
      later.shown = course.shown ∧ ∀ occurrence ∈ rest, occurrence.isIdle = true := by
  induction steps with
  | start => exact ⟨closed, rfl, rfl, rfl, nofun⟩
  | @step occurrences middle _ _ _ step ih =>
    obtain ⟨still, monitor, scene, shown, idle⟩ := ih
    cases step with
    | deliver message =>
      obtain ⟨same, _, finished⟩ := deliver_keeps middle.loop message
      refine ⟨⟨finished.trans still.finished, still.free⟩, same.trans monitor, scene, shown, ?_⟩
      intro occurrence member
      obtain earlier | last := List.mem_append.mp member
      · exact idle occurrence earlier
      · rw [List.mem_singleton.mp last]
        exact isIdle_deliver still.finished message
    -- Nothing is ready any more, and there is no cycle that could finish.
    | wake _ _ _ ready => exact absurd still.finished (by simp [going_of_isReady ready])
    | finish _ busy => exact absurd still.free (by simp [busy])

/-- Whatever has reached a loop, whatever has woken it, and when: the controller, the node and what was published are as after
some admissions and whole cycles. The admissions among them, with those that wait, are the ones that were sent, in order, and none
waits at an idle loop. There is one cycle for each tick that the ticker gave and one for each pulse taken, of which there are no
more than were let in. A loop with a period ends when it takes a shutdown, which was sent or whose sender was lost before, and
an idle loop that was told to end has ended; closed channels leave what is ready as it is. No cycle is in progress at the end, and
nothing is done after it. A loop that is let run comes to where it is idle. -/
theorem refined_of_steps (node : Node σ α) (monitor : Monitor α) (now : Moment) (scene : Scene σ α)
    {occurrences : List (Occurrence α)} {course : Course σ α}
    (steps : Steps node (.start monitor now scene) occurrences course) :
    Accounts monitor.config.period now occurrences course.loop ∧
    (∃ calls,
      Refines node ((start monitor now).monitor, scene) occurrences course calls ∧
      calls.filterMap enrolled? <+: occurrences.filterMap Occurrence.sent? ∧
      (calls.filterMap (began? .pulse)).length ≤ occurrences.countP Occurrence.isPulse ∧
      ∀ instant, course.loop.ready? instant = none → course.loop.finished = false →
        calls.filterMap enrolled? = occurrences.filterMap Occurrence.sent?) ∧
    (∀ instant wake,
      course.loop.closeAdmissions.2.isReady instant wake = course.loop.isReady instant wake ∧
        course.loop.closePulses.2.isReady instant wake = course.loop.isReady instant wake) ∧
    (∀ instant, course.loop.ready? instant = none → occurrences.any Occurrence.isCall = true →
      course.loop.finished = true) ∧
    (course.loop.finished = true → course.busy = none ∧
      ∀ rest later, Steps node course rest later →
        later.loop.finished = true ∧ later.loop.monitor = course.loop.monitor ∧ later.scene = course.scene ∧
          later.shown = course.shown ∧ ∀ occurrence ∈ rest, occurrence.isIdle = true) ∧
    (course.busy = none → ∀ moment, ∃ rest later,
      Steps node course rest later ∧ later.busy = none ∧
        (later.loop, later.scene) = course.loop.settle node moment course.scene ∧
        later.loop.ready? moment.instant = none) := by
  obtain ⟨accounts, calls, refines⟩ := refines_of_steps steps
  refine ⟨accounts, ⟨calls, refines, ⟨_, refines.admissions⟩, ?_, ?_⟩, ?_, ?_, ?_, ?_⟩
  · have made := congrArg List.length (refines.cycles .pulse)
    rw [List.length_append] at made
    have taken := accounts.pulses
    omega
  · intro instant idle going
    -- The oldest admission would be ready.
    have none_waits := not_isReady_of_idle idle .admission
    simp only [isReady, going, Bool.not_false, Bool.true_and, Bool.not_eq_false', List.isEmpty_iff] at none_waits
    rw [← refines.admissions, none_waits, List.append_nil]
  · exact fun instant wake => ⟨rfl, rfl⟩
  · intro instant idle called
    have unready := not_isReady_of_idle idle .shutdown
    simpa [isReady, accounts.called, called] using unready
  · intro finished
    have closed := isOver_of_steps steps finished
    refine ⟨closed.free, ?_⟩
    intro rest later goesOn
    obtain ⟨still, unchanged⟩ := closed.steps goesOn
    exact ⟨still.finished, unchanged⟩
  · intro free moment
    obtain ⟨rest, later, goesOn, ends, settled⟩ :=
      steps_settleWithin node moment (course.loop.pending moment.instant) free
    refine ⟨rest, later, goesOn, ends, settled, ?_⟩
    have goes : course.loop.finished = false → 0 < course.loop.ticker.period := by
      intro going
      have ended := accounts.ended
      simp only [going, Bool.false_eq, Bool.or_eq_false_iff, beq_eq_false_iff_ne] at ended
      rw [accounts.ticks.period]
      exact Nat.pos_of_ne_zero ended.1
    have idle := idle_settle node moment goes course.scene
    rwa [settle, ← settled] at idle

/-- A pod is sent and two pulses are tried while the first cycle runs, and the sender of admissions goes away. Then the pod is
taken in, the pulse that was let in is taken, and the sender of the shutdown is lost. -/
def hurried : List (Occurrence Rat) :=
  [.woken .tick ⟨0, 0⟩, .delivered (.admission ⟨"trainer", 100⟩) true, .delivered .pulse true,
    .delivered .pulse false, .delivered .closeAdmissions true, .finished id, .woken .admission ⟨1, 0⟩,
    .woken .pulse ⟨2, 0⟩, .delivered .dropShutdown true, .finished id, .woken .shutdown ⟨3, 0⟩,
    .delivered .pulse false]

def calm : Course Unit Rat := .start (.new ⟨"node", 1000000000, false, .default⟩ none 0) ⟨0, 0⟩ ⟨(), []⟩

theorem refined_of_steps_hurried :
    ∃ course, Steps Monitor.willing calm hurried course ∧
      course.loop.finished = true ∧ course.busy = none ∧ course.loop.monitor.running.names = ["trainer"] ∧
      ∃ calls : List (Call Rat),
        calls.filterMap enrolled? <+: [⟨"trainer", 100⟩] ∧ (calls.filterMap (began? .pulse)).length ≤ 1 := by
  have runs : (calm.follow Monitor.willing hurried).map (·.loop.monitor.running.names) = some ["trainer"] := by
    decide +kernel
  obtain ⟨course, followed, names⟩ := Option.map_eq_some_iff.mp runs
  have steps := steps_of_follow followed
  obtain ⟨accounts, ⟨calls, _, inOrder, few, _⟩, _, _, ends, _⟩ := refined_of_steps _ _ _ _ steps
  have finished : course.loop.finished = true := accounts.ended
  exact ⟨course, steps, finished, (ends finished).1, names, calls, inOrder, few⟩

end PodBudget.Loop
