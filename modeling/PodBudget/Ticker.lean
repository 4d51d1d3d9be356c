/-!
Tickers: at which instants periodic work is due, and what becomes of ticks that were missed. All times are
nanoseconds, but the clock that ticks are waited for goes by whole milliseconds.
-/
namespace PodBudget

inductive Missed where
  | delay
  | burst
  deriving DecidableEq, Repr

structure Ticker where
  period : Nat
  due : Nat
  missed : Missed
  deriving DecidableEq, Repr

namespace Ticker

/-- A tick that is no later than this counts as on time. -/
def tolerance : Nat := 5000000

def start (period : Nat) (missed : Missed) (now : Nat) : Ticker := ⟨period, now, missed⟩

def resolution : Nat := 1000000

/-- A tick fires at the first step of the clock that is not before it is due. -/
def isDue (ticker : Ticker) (now : Nat) : Bool :=
  decide ((ticker.due + (resolution - 1)) / resolution ≤ now / resolution)

theorem le_of_isDue {ticker : Ticker} {now : Nat} (due : ticker.isDue now = true) : ticker.due ≤ now := by
  have reached : (ticker.due + 999999) / 1000000 ≤ now / 1000000 := of_decide_eq_true due
  omega

def next (ticker : Ticker) (now : Nat) : Ticker :=
  match ticker.missed with
  | .burst => { ticker with due := ticker.due + ticker.period }
  | .delay =>
    if ticker.due + tolerance < now then { ticker with due := now + ticker.period }
    else { ticker with due := ticker.due + ticker.period }

def backlog (ticker : Ticker) (now : Nat) : Nat := now + 1 - ticker.due

theorem backlog_next (ticker : Ticker) (now : Nat) (due : ticker.isDue now = true) (pos : 0 < ticker.period) :
    (ticker.next now).backlog now < ticker.backlog now := by
  have due := le_of_isDue due
  unfold next backlog
  split
  · simp only; omega
  · split <;> simp only <;> omega

end Ticker
end PodBudget
