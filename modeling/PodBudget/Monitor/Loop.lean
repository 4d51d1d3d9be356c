import PodBudget.Monitor.Cycle
import PodBudget.Ticker

/-!
The controller at work. Ticks, admissions, pulses and the shutdown reach it through channels of their own, and
whichever is ready may be taken next. Admissions queue up in order; of pulses at most one waits. A loop that has
a period ends on a shutdown and between whole cycles only, and it takes nothing afterwards.
-/
namespace PodBudget

inductive Wake where
  | tick
  | admission
  | pulse
  | shutdown
  deriving DecidableEq, Repr

structure Loop (α : Type) where
  monitor : Monitor α
  ticker : Ticker
  admissions : List (Admission α)
  pulsePending : Bool
  admissionsOpen : Bool
  pulsesOpen : Bool
  shutdownOpen : Bool
  shutdownSeen : Bool
  finished : Bool

namespace Loop

variable {σ α : Type} [Number α]

/-- A loop about to take its first tick; the registry learns that the controller is there. There are no ticks
without a period between them, and a loop without a period has ended. -/
def start (monitor : Monitor α) (now : Moment) : Loop α where
  monitor := monitor.report fun health => health.register Health.monitorPart now.unix
  ticker := .start monitor.config.period .delay now.instant
  admissions := []
  pulsePending := false
  admissionsOpen := true
  pulsesOpen := true
  shutdownOpen := true
  shutdownSeen := false
  finished := monitor.config.period == 0

-- What others do to the channels. Each says whether it reached the loop.

def sendAdmission (loop : Loop α) (admission : Admission α) : Bool × Loop α :=
  if loop.admissionsOpen && !loop.finished then
    (true, { loop with admissions := loop.admissions ++ [admission] })
  else (false, loop)

/-- A pulse is lost while another one waits. -/
def tryPulse (loop : Loop α) : Bool × Loop α :=
  if loop.pulsesOpen && !loop.finished && !loop.pulsePending then (true, { loop with pulsePending := true })
  else (false, loop)

def closeAdmissions (loop : Loop α) : Bool × Loop α := (loop.admissionsOpen, { loop with admissionsOpen := false })

def closePulses (loop : Loop α) : Bool × Loop α := (loop.pulsesOpen, { loop with pulsesOpen := false })

def sendShutdown (loop : Loop α) : Bool × Loop α :=
  if loop.shutdownOpen && !loop.finished then (true, { loop with shutdownSeen := true }) else (false, loop)

/-- Dropping the sender ends the loop as a shutdown does. -/
def dropShutdown (loop : Loop α) : Bool × Loop α :=
  (loop.shutdownOpen, { loop with shutdownOpen := false, shutdownSeen := true })

def isReady (loop : Loop α) (now : Nat) : Wake → Bool
  | .tick => !loop.finished && loop.ticker.isDue now
  | .admission => !loop.finished && !loop.admissions.isEmpty
  | .pulse => !loop.finished && loop.pulsePending
  | .shutdown => !loop.finished && loop.shutdownSeen

def take (node : Node σ α) (loop : Loop α) (now : Moment) (wake : Wake) : Dealing σ α (Loop α) :=
  if !loop.isReady now.instant wake then return loop
  else
    match wake with
    | .tick => do
      let (_, monitor) ← loop.monitor.runCycle node .tick now
      return { loop with monitor, ticker := loop.ticker.next now.instant }
    | .admission =>
      match loop.admissions with
      | [] => return loop
      | admission :: rest => do
        let (_, monitor) ← loop.monitor.enroll admission
        return { loop with monitor, admissions := rest }
    | .pulse => do
      let (_, monitor) ← loop.monitor.runCycle node .pulse now
      return { loop with monitor, pulsePending := false }
    | .shutdown => return { loop with finished := true }

/-- The first thing that is ready, in a fixed order. -/
def ready? (loop : Loop α) (now : Nat) : Option Wake :=
  [Wake.tick, .admission, .pulse, .shutdown].find? (loop.isReady now)

def pending (loop : Loop α) (now : Nat) : Nat :=
  loop.ticker.backlog now + loop.admissions.length + 2

/-- Takes what is ready until nothing is, at most `fuel` times. -/
def settleWithin (node : Node σ α) (loop : Loop α) (now : Moment) : Nat → Dealing σ α (Loop α)
  | 0 => return loop
  | fuel + 1 =>
    match loop.ready? now.instant with
    | none => return loop
    | some wake => do (← loop.take node now wake).settleWithin node now fuel

def settle (node : Node σ α) (loop : Loop α) (now : Moment) : Dealing σ α (Loop α) :=
  loop.settleWithin node now (loop.pending now.instant)

end Loop
end PodBudget
