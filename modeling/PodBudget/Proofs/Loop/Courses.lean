import PodBudget.Monitor.Loop
import PodBudget.Proofs.Monitor.Run

/-!
The loop in smaller steps. A cycle takes a while: it begins when its tick or its pulse is taken and it is in progress until it
finishes. Meanwhile nothing wakes the loop, but messages go on reaching it. Which ready thing wakes a loop is left open, and
so is what reaches it when.
-/
namespace PodBudget

/-- The ticks that a ticker gives at the instants of a list. -/
inductive Ticker.Yields (start : Ticker) : List Nat → Ticker → Prop
  | start : Yields start [] start
  | tick {instants ticker now} (before : Yields start instants ticker) (due : ticker.isDue now = true) :
    Yields start (instants ++ [now]) (ticker.next now)

theorem Ticker.period_next (ticker : Ticker) (now : Nat) : (ticker.next now).period = ticker.period := by
  unfold next
  split
  · rfl
  · split <;> rfl

theorem Ticker.Yields.period {start ticker : Ticker} {instants : List Nat} (yields : Yields start instants ticker) :
    ticker.period = start.period := by
  induction yields with
  | start => rfl
  | tick _ _ ih => rw [Ticker.period_next, ih]

namespace Loop

variable {σ α : Type}

inductive Message (α : Type) where
  | admission (admission : Admission α)
  | pulse
  | closeAdmissions
  | closePulses
  | shutdown
  | dropShutdown

def deliver (loop : Loop α) : Message α → Bool × Loop α
  | .admission admission => loop.sendAdmission admission
  | .pulse => loop.tryPulse
  | .closeAdmissions => loop.closeAdmissions
  | .closePulses => loop.closePulses
  | .shutdown => loop.sendShutdown
  | .dropShutdown => loop.dropShutdown

structure Course (σ α : Type) where
  loop : Loop α
  scene : Scene σ α
  /-- The cycle that is in progress, and the moment when it began. -/
  busy : Option (Trigger × Moment)
  shown : List (NodeSnapshot α)

inductive Occurrence (α : Type) where
  | delivered (message : Message α) (reached : Bool)
  | woken (wake : Wake) (now : Moment)
  | finished (arrival : List Sample → List Sample)

theorem going_of_isReady {loop : Loop α} {now : Nat} {wake : Wake} (ready : loop.isReady now wake = true) :
    loop.finished = false := by
  cases wake <;> simp_all [isReady]

theorem ready?_of_finished {loop : Loop α} (ended : loop.finished = true) (now : Nat) : loop.ready? now = none := by
  simp [ready?, isReady, ended]

theorem isReady_of_ready? {loop : Loop α} {now : Nat} {wake : Wake} (chosen : loop.ready? now = some wake) :
    loop.isReady now wake = true := List.find?_some chosen

theorem not_isReady_of_idle {loop : Loop α} {now : Nat} (idle : loop.ready? now = none) (wake : Wake) :
    loop.isReady now wake = false := by
  have none_ready := List.find?_eq_none.mp idle wake (by cases wake <;> decide)
  exact Bool.eq_false_iff.mpr none_ready

def load (loop : Loop α) (now : Nat) : Nat :=
  if loop.finished then 0
  else loop.ticker.backlog now + loop.admissions.length + loop.pulsePending.toNat + 1

theorem load_le_pending (loop : Loop α) (now : Nat) : loop.load now ≤ loop.pending now := by
  have waiting := Bool.toNat_le loop.pulsePending
  unfold load pending
  split <;> omega

variable [Number α]

namespace Course

def start (monitor : Monitor α) (now : Moment) (scene : Scene σ α) : Course σ α :=
  ⟨.start monitor now, scene, none, []⟩

omit [Number α] in
def receive (course : Course σ α) (message : Message α) : Course σ α :=
  { course with loop := (course.loop.deliver message).2 }

/-- A tick and a pulse are taken when their cycle begins. -/
def wake (node : Node σ α) (course : Course σ α) (now : Moment) : Wake → Course σ α
  | .tick =>
    { course with
      loop := { course.loop with ticker := course.loop.ticker.next now.instant }
      busy := some (.tick, now) }
  | .pulse => { course with loop := { course.loop with pulsePending := false }, busy := some (.pulse, now) }
  | .admission =>
    { course with
      loop := (course.loop.take node now .admission course.scene).1
      scene := (course.loop.take node now .admission course.scene).2 }
  | .shutdown =>
    { course with
      loop := (course.loop.take node now .shutdown course.scene).1
      scene := (course.loop.take node now .shutdown course.scene).2 }

def finish (node : Node σ α) (course : Course σ α) (cycle : Trigger × Moment)
    (arrival : List Sample → List Sample) : Course σ α :=
  let out := course.loop.monitor.cycle node cycle.1 cycle.2 arrival course.scene
  { loop := { course.loop with monitor := out.1.2 }
    scene := out.2
    busy := none
    shown := course.shown ++ [out.1.2.published] }

end Course

inductive Step (node : Node σ α) (course : Course σ α) : Occurrence α → Course σ α → Prop
  | deliver (message : Message α) :
    Step node course (.delivered message (course.loop.deliver message).1) (course.receive message)
  | wake (wake : Wake) (now : Moment) (free : course.busy = none)
      (ready : course.loop.isReady now.instant wake = true) :
    Step node course (.woken wake now) (course.wake node now wake)
  | finish {cycle : Trigger × Moment} (arrival : List Sample → List Sample) (busy : course.busy = some cycle) :
    Step node course (.finished arrival) (course.finish node cycle arrival)

inductive Steps (node : Node σ α) (start : Course σ α) : List (Occurrence α) → Course σ α → Prop
  | start : Steps node start [] start
  | step {occurrences course occurrence next} (before : Steps node start occurrences course)
      (step : Step node course occurrence next) : Steps node start (occurrences ++ [occurrence]) next

theorem Steps.trans {node : Node σ α} {start middle last : Course σ α} {early late : List (Occurrence α)}
    (first : Steps node start early middle) (second : Steps node middle late last) :
    Steps node start (early ++ late) last := by
  induction second with
  | start => rwa [List.append_nil]
  | step _ step ih =>
    rw [← List.append_assoc]
    exact .step ih step

/-- Where a course goes when this is what occurs next, if it can be. -/
def Course.next? (node : Node σ α) (course : Course σ α) : Occurrence α → Option (Course σ α)
  | .delivered message reached =>
    if (course.loop.deliver message).1 = reached then some (course.receive message) else none
  | .woken wake now =>
    if course.busy.isNone ∧ course.loop.isReady now.instant wake then some (course.wake node now wake) else none
  | .finished arrival => course.busy.map fun cycle => course.finish node cycle arrival

theorem step_iff_next? {node : Node σ α} {course next : Course σ α} {occurrence : Occurrence α} :
    Step node course occurrence next ↔ course.next? node occurrence = some next := by
  constructor
  · intro step
    cases step with
    | deliver message => simp [Course.next?]
    | wake wake now free ready => simp [Course.next?, free, ready]
    | finish arrival busy => simp [Course.next?, busy]
  · intro goes
    cases occurrence with
    | delivered message reached =>
      obtain ⟨rfl, same⟩ := Option.ite_none_right_eq_some.mp goes
      cases same
      exact .deliver message
    | woken wake now =>
      obtain ⟨⟨free, ready⟩, same⟩ := Option.ite_none_right_eq_some.mp goes
      cases same
      exact .wake wake now (Option.isNone_iff_eq_none.mp free) ready
    | finished arrival =>
      obtain ⟨cycle, busy, rfl⟩ := Option.map_eq_some_iff.mp goes
      exact .finish arrival busy

def Course.follow (node : Node σ α) (course : Course σ α) (occurrences : List (Occurrence α)) :
    Option (Course σ α) :=
  occurrences.foldlM (Course.next? node) course

theorem steps_of_follow {node : Node σ α} {course last : Course σ α} {occurrences : List (Occurrence α)}
    (followed : course.follow node occurrences = some last) : Steps node course occurrences last := by
  induction occurrences generalizing course with
  | nil =>
    cases followed
    exact .start
  | cons occurrence rest ih =>
    obtain ⟨next, goes, goesOn⟩ := Option.bind_eq_some_iff.mp followed
    have first : Steps node course [occurrence] next := .step .start (step_iff_next?.mpr goes)
    exact first.trans (ih goesOn)

section

variable (node : Node σ α) {loop : Loop α} (now : Moment)

theorem take_tick (ready : loop.isReady now.instant .tick = true) (scene : Scene σ α) :
    let out := loop.monitor.runCycle node .tick now scene
    loop.take node now .tick scene =
      ({ loop with monitor := out.1.2, ticker := loop.ticker.next now.instant }, out.2) := by
  simp only [take, ready, Bool.not_true, Bool.false_eq_true, ↓reduceIte]
  rfl

theorem take_pulse (ready : loop.isReady now.instant .pulse = true) (scene : Scene σ α) :
    let out := loop.monitor.runCycle node .pulse now scene
    loop.take node now .pulse scene = ({ loop with monitor := out.1.2, pulsePending := false }, out.2) := by
  simp only [take, ready, Bool.not_true, Bool.false_eq_true, ↓reduceIte]
  rfl

theorem take_admission (ready : loop.isReady now.instant .admission = true) (scene : Scene σ α) :
    ∃ admission rest, loop.admissions = admission :: rest ∧
      loop.take node now .admission scene =
        ({ loop with monitor := (loop.monitor.enroll admission scene).1.2, admissions := rest },
          (loop.monitor.enroll admission scene).2) := by
  cases queue : loop.admissions with
  | nil => simp [isReady, queue] at ready
  | cons admission rest =>
    refine ⟨admission, rest, rfl, ?_⟩
    simp only [take, ready, Bool.not_true, Bool.false_eq_true, ↓reduceIte, queue]
    rfl

theorem take_shutdown (ready : loop.isReady now.instant .shutdown = true) (scene : Scene σ α) :
    loop.take node now .shutdown scene = ({ loop with finished := true }, scene) := by
  simp only [take, ready, Bool.not_true, Bool.false_eq_true, ↓reduceIte]
  rfl

theorem load_take {wake : Wake} (ready : loop.isReady now.instant wake = true) (pos : 0 < loop.ticker.period)
    (scene : Scene σ α) :
    (loop.take node now wake scene).1.load now.instant < loop.load now.instant ∧
      0 < (loop.take node now wake scene).1.ticker.period := by
  have going := going_of_isReady ready
  cases wake with
  | tick =>
    have due : loop.ticker.isDue now.instant = true := by simpa [isReady, going] using ready
    have fewer := loop.ticker.backlog_next now.instant due pos
    rw [take_tick node now ready]
    refine ⟨?_, by simpa only [Ticker.period_next] using pos⟩
    simp only [load, going, Bool.false_eq_true, ↓reduceIte]
    omega
  | pulse =>
    have waiting : loop.pulsePending = true := by simpa [isReady, going] using ready
    rw [take_pulse node now ready]
    refine ⟨?_, pos⟩
    simp only [load, going, waiting, Bool.false_eq_true, ↓reduceIte, Bool.toNat_false, Bool.toNat_true]
    omega
  | admission =>
    obtain ⟨admission, rest, queue, taken⟩ := take_admission node now ready scene
    rw [taken]
    refine ⟨?_, pos⟩
    simp only [load, going, queue, Bool.false_eq_true, ↓reduceIte, List.length_cons]
    omega
  | shutdown =>
    rw [take_shutdown node now ready]
    refine ⟨?_, pos⟩
    simp only [load, going, Bool.false_eq_true, ↓reduceIte]
    omega

theorem settleWithin_succ (fuel : Nat) {wake : Wake} (chosen : loop.ready? now.instant = some wake)
    (scene : Scene σ α) :
    loop.settleWithin node now (fuel + 1) scene =
      (loop.take node now wake scene).1.settleWithin node now fuel (loop.take node now wake scene).2 := by
  rw [settleWithin, chosen]
  rfl

theorem settleWithin_of_idle (fuel : Nat) (idle : loop.ready? now.instant = none) (scene : Scene σ α) :
    loop.settleWithin node now fuel scene = (loop, scene) := by
  cases fuel with
  | zero => rfl
  | succ fuel =>
    rw [settleWithin, idle]
    rfl

theorem idle_settleWithin {fuel : Nat} (enough : loop.load now.instant ≤ fuel) (pos : 0 < loop.ticker.period)
    (scene : Scene σ α) : (loop.settleWithin node now fuel scene).1.ready? now.instant = none := by
  -- Whatever is taken, less is left to take; so the fuel lasts as long as there is something.
  induction fuel generalizing loop scene with
  | zero =>
    cases chosen : loop.ready? now.instant with
    | none => exact chosen
    | some wake =>
      have less := (load_take node now (isReady_of_ready? chosen) pos scene).1
      omega
  | succ fuel ih =>
    cases chosen : loop.ready? now.instant with
    | none => rwa [settleWithin_of_idle node now _ chosen]
    | some wake =>
      obtain ⟨less, still⟩ := load_take node now (isReady_of_ready? chosen) pos scene
      rw [settleWithin_succ node now fuel chosen]
      exact ih (by omega) still _

theorem idle_settle (goes : loop.finished = false → 0 < loop.ticker.period) (scene : Scene σ α) :
    (loop.settle node now scene).1.ready? now.instant = none := by
  cases ended : loop.finished with
  | true =>
    have idle := ready?_of_finished ended now.instant
    rwa [settle, settleWithin_of_idle node now _ idle]
  | false => exact idle_settleWithin node now (loop.load_le_pending now.instant) (goes ended) scene

/-- What a loop takes at once is what happens in steps, where a cycle finishes as soon as it has begun. -/
theorem steps_take {course : Course σ α} (free : course.busy = none) {wake : Wake}
    (ready : course.loop.isReady now.instant wake = true) :
    ∃ occurrences next, Steps node course occurrences next ∧ next.busy = none ∧
      (next.loop, next.scene) = course.loop.take node now wake course.scene := by
  have woken : Steps node course [.woken wake now] (course.wake node now wake) := .step .start (.wake wake now free ready)
  cases wake with
  | tick =>
    refine ⟨_, _, .step woken (.finish id rfl), rfl, ?_⟩
    rw [take_tick node now ready]
    rfl
  | pulse =>
    refine ⟨_, _, .step woken (.finish id rfl), rfl, ?_⟩
    rw [take_pulse node now ready]
    rfl
  | admission => exact ⟨_, _, woken, free, rfl⟩
  | shutdown => exact ⟨_, _, woken, free, rfl⟩

theorem steps_settleWithin (fuel : Nat) {course : Course σ α} (free : course.busy = none) :
    ∃ occurrences next, Steps node course occurrences next ∧ next.busy = none ∧
      (next.loop, next.scene) = course.loop.settleWithin node now fuel course.scene := by
  induction fuel generalizing course with
  | zero => exact ⟨_, _, .start, free, rfl⟩
  | succ fuel ih =>
    cases chosen : course.loop.ready? now.instant with
    | none =>
      rw [settleWithin_of_idle node now _ chosen]
      exact ⟨_, _, .start, free, rfl⟩
    | some wake =>
      obtain ⟨early, middle, begins, between, taken⟩ := steps_take node now free (isReady_of_ready? chosen)
      obtain ⟨late, last, goesOn, ends, settled⟩ := ih between
      refine ⟨early ++ late, last, begins.trans goesOn, ends, ?_⟩
      rw [settled, settleWithin_succ node now fuel chosen, ← taken]

end

end Loop
end PodBudget
