import PodBudget.Monitor.State
import PodBudget.Ticker

/-!
The rounds of discovery: at every tick the source is scanned, the outcome is reported to the health registry,
and new pods are sent to the controller. There is room for so many that the controller has not taken; the rest
is held back, and the rounds stand still meanwhile. A failed scan is reported and nothing more; rounds that have
an interval between them end on a shutdown only.
-/
namespace PodBudget.Discovery

inductive PollError where
  | scan (message : String)
  | closed
  deriving DecidableEq, Repr

def PollError.message : PollError → String
  | .scan message => message
  | .closed => "Monitor stopped accepting admissions"

/-- A source of scans over its state `σ`: what a scan finds, or the message of its failure. -/
abbrev Source (σ α : Type) := σ → Except String (List (Admission α)) × σ

structure Rounds (σ α : Type) where
  source : σ
  ticker : Ticker
  health : Option Health
  sent : List (Admission α)
  held : List (Admission α)
  receiverOpen : Bool
  shutdownOpen : Bool
  shutdownSeen : Bool
  finished : Bool

namespace Rounds

variable {σ α : Type}

/-- Rounds about to make their first scan; without an interval between scans they have ended. -/
def new (source : σ) (interval : Nat) (health : Option Health) (now : Nat) : Rounds σ α where
  source
  ticker := .start interval .burst now
  health
  sent := []
  held := []
  receiverOpen := true
  shutdownOpen := true
  shutdownSeen := false
  finished := interval == 0

def look (scan : Source σ α) (rounds : Rounds σ α) (time : Int) :
    Except String (List (Admission α)) × Rounds σ α :=
  let (outcome, source) := scan rounds.source
  let failure := match outcome with | .ok _ => none | .error message => some message
  let health := rounds.health.map fun health => health.report Health.discoveryPart failure time
  (outcome, { rounds with source, health })

def poll (scan : Source σ α) (rounds : Rounds σ α) (time : Int) : Except PollError Nat × Rounds σ α :=
  let (outcome, rounds) := rounds.look scan time
  match outcome with
  | .error message => (.error (.scan message), rounds)
  | .ok admissions =>
    if admissions.isEmpty then (.ok 0, rounds)
    else if rounds.receiverOpen then
      (.ok admissions.length, { rounds with sent := rounds.sent ++ admissions })
    else (.error .closed, rounds)

def room : Nat := 64

/-- Sends on what there is room for. Nothing is held for a receiver that is gone. -/
def forward (rounds : Rounds σ α) : Rounds σ α :=
  if rounds.receiverOpen then
    let free := room - rounds.sent.length
    { rounds with sent := rounds.sent ++ rounds.held.take free, held := rounds.held.drop free }
  else { rounds with held := [] }

def receive (rounds : Rounds σ α) : List (Admission α) × Rounds σ α := (rounds.sent, { rounds with sent := [] })

def dropReceiver (rounds : Rounds σ α) : Bool × Rounds σ α :=
  (rounds.receiverOpen, { rounds with receiverOpen := false, sent := [] })

def sendShutdown (rounds : Rounds σ α) : Bool × Rounds σ α :=
  if rounds.shutdownOpen && !rounds.finished then (true, { rounds with shutdownSeen := true }) else (false, rounds)

def dropShutdown (rounds : Rounds σ α) : Bool × Rounds σ α :=
  (rounds.shutdownOpen, { rounds with shutdownOpen := false, shutdownSeen := true })

/-- Runs the ticks that are due, at most `fuel` of them, and then looks at the shutdown; neither while
something is held back. -/
def settleWithin (scan : Source σ α) (rounds : Rounds σ α) (now : Moment) : Nat → Rounds σ α
  | 0 => rounds
  | fuel + 1 =>
    let rounds := rounds.forward
    if rounds.finished || !rounds.held.isEmpty then rounds
    else if rounds.ticker.isDue now.instant then
      let (outcome, rounds) := rounds.look scan now.unix
      let held := match outcome with | .ok admissions => admissions | .error _ => []
      { rounds with held, ticker := rounds.ticker.next now.instant }.settleWithin scan now fuel
    else if rounds.shutdownSeen then { rounds with finished := true }
    else rounds

def settle (scan : Source σ α) (rounds : Rounds σ α) (now : Moment) : Rounds σ α :=
  rounds.settleWithin scan now (rounds.ticker.backlog now.instant + 1)

end Rounds
end PodBudget.Discovery
