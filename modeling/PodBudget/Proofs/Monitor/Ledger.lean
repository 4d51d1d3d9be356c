import Mathlib.Data.List.Induction
import PodBudget.Proofs.Monitor.Charge

/-!
The ledger of a run: which pod started when, and which pass ended when and how. A pod's latest stay among the running
ones is read off it, and so is what the account of the pod must be: the time from each stamp to the next, charged
once, at the limits of the former.
-/
namespace PodBudget.Monitor

variable {α : Type}

/-- An instant up to which an account is settled, and the limits in force from then on. -/
structure Stamp (α : Type) where
  instant : Nat
  limits : PerKind α
  applied : Bool

structure Stretch (α : Type) where
  since : Nat
  upTo : Nat
  limits : PerKind α

def Stretch.covers (stretch : Stretch α) (instant : Nat) : Bool :=
  decide (stretch.since ≤ instant) && decide (instant < stretch.upTo)

/-- The times from each stamp to the next. -/
def stretches (last : Stamp α) : List (Stamp α) → List (Stretch α)
  | [] => []
  | stamp :: rest => ⟨last.instant, stamp.instant, last.limits⟩ :: stretches stamp rest

theorem stretches_concat (origin stamp : Stamp α) (passes : List (Stamp α)) :
    stretches origin (passes ++ [stamp]) =
      stretches origin passes ++
        [⟨(passes.getLastD origin).instant, stamp.instant, (passes.getLastD origin).limits⟩] := by
  induction passes generalizing origin with
  | nil => rfl
  | cons first rest ih =>
    rw [List.cons_append, stretches, stretches, ih, List.getLastD_cons, List.cons_append]

theorem le_last (origin : Stamp α) (passes : List (Stamp α))
    (sorted : ((origin :: passes).map (·.instant)).Pairwise (· ≤ ·)) :
    origin.instant ≤ (passes.getLastD origin).instant := by
  have above := (List.pairwise_cons.mp sorted).1
  obtain rfl | ⟨before, last, rfl⟩ := List.eq_nil_or_concat' passes
  · exact Nat.le_refl _
  · rw [List.getLastD_concat]
    exact above _ (List.mem_map_of_mem (by simp))

/-- Between the first stamp and the last, every instant lies in exactly one stretch; any other lies in none. -/
theorem countP_covers_stretches (origin : Stamp α) (passes : List (Stamp α))
    (sorted : ((origin :: passes).map (·.instant)).Pairwise (· ≤ ·)) (instant : Nat) :
    (stretches origin passes).countP (·.covers instant) =
      if origin.instant ≤ instant ∧ instant < (passes.getLastD origin).instant then 1 else 0 := by
  induction passes generalizing origin with
  | nil =>
    have never : ¬ (origin.instant ≤ instant ∧ instant < origin.instant) := by omega
    rw [List.getLastD_nil, if_neg never]
    rfl
  | cons stamp rest ih =>
    obtain ⟨above, tail⟩ := List.pairwise_cons.mp sorted
    have next : origin.instant ≤ stamp.instant := above _ List.mem_cons_self
    have last := le_last stamp rest tail
    rw [stretches, List.countP_cons, ih stamp tail, List.getLastD_cons]
    simp only [Stretch.covers, Bool.and_eq_true, decide_eq_true_eq]
    split_ifs <;> omega

/-- The latest stay of a pod among the running ones: its start, and the passes that it was present in. -/
structure Stay (α : Type) where
  origin : Stamp α
  passes : List (Stamp α)

namespace Stay

def last (stay : Stay α) : Stamp α := stay.passes.getLastD stay.origin

def stretches (stay : Stay α) : List (Stretch α) := Monitor.stretches stay.origin stay.passes

def instants (stay : Stay α) : List Nat := (stay.origin :: stay.passes).map (·.instant)

def add (stay : Stay α) (stamp : Stamp α) : Stay α := { stay with passes := stay.passes ++ [stamp] }

variable (stay : Stay α) (stamp : Stamp α)

theorem instants_add : (stay.add stamp).instants = stay.instants ++ [stamp.instant] := by
  rw [instants, add, ← List.cons_append, List.map_append, List.map_singleton, instants]

theorem last_add : (stay.add stamp).last = stamp := List.getLastD_concat

theorem stretches_add :
    (stay.add stamp).stretches = stay.stretches ++ [⟨stay.last.instant, stamp.instant, stay.last.limits⟩] :=
  stretches_concat stay.origin stamp stay.passes

end Stay

inductive Note where
  | began (name : String) (instant : Nat)
  | passed (instant : Nat) (outcome : Allocation)
  deriving DecidableEq

def Note.instant : Note → Nat
  | .began _ instant => instant
  | .passed instant _ => instant

structure Entry (α : Type) where
  note : Note
  running : Roster (Pod α)

namespace Entry

def ofPass (now : Moment) (out : Allocation × Monitor α) : Entry α := ⟨.passed now.instant out.1, out.2.running⟩

def ofStart (name : String) (now : Nat) (monitor : Monitor α) : Entry α := ⟨.began name now, monitor.running⟩

/-- What an entry makes of the stay of a pod. -/
def extend (name : String) (stay : Option (Stay α)) (entry : Entry α) : Option (Stay α) :=
  match entry.running.get? name, entry.note with
  | none, _ => stay
  | some pod, .began other instant =>
    if other = name then some ⟨⟨instant, pod.limits, false⟩, []⟩ else stay
  | some pod, .passed instant outcome => stay.map (·.add ⟨instant, pod.limits, outcome.isApplied⟩)

variable {name : String} {pod : Pod α} {monitor : Monitor α} (stay : Option (Stay α)) (now : Nat)

theorem extend_of_absent {entry : Entry α} (absent : entry.running.get? name = none) :
    entry.extend name stay = stay := by
  rw [extend, absent]

theorem extend_ofPass {now : Moment} {out : Allocation × Monitor α} (found : out.2.running.get? name = some pod) :
    (ofPass now out).extend name stay = stay.map (·.add ⟨now.instant, pod.limits, out.1.isApplied⟩) := by
  simp only [extend, ofPass, found]

theorem extend_ofStart (found : monitor.running.get? name = some pod) :
    (ofStart name now monitor).extend name stay = some ⟨⟨now, pod.limits, false⟩, []⟩ := by
  simp only [extend, ofStart, found, ↓reduceIte]

theorem extend_ofStart_of_ne {other : String} (differs : other ≠ name) :
    (ofStart other now monitor).extend name stay = stay := by
  cases found : monitor.running.get? name with
  | none => exact extend_of_absent stay found
  | some pod => simp only [extend, ofStart, found, differs, ↓reduceIte]

end Entry

def stayOf (name : String) (entries : List (Entry α)) : Option (Stay α) :=
  entries.foldl (Entry.extend name) none

theorem stayOf_concat (name : String) (entries : List (Entry α)) (entry : Entry α) :
    stayOf name (entries ++ [entry]) = entry.extend name (stayOf name entries) := by
  rw [stayOf, List.foldl_append]
  rfl

theorem sublist_instants {name : String} {entries : List (Entry α)} {stay : Stay α}
    (found : stayOf name entries = some stay) :
    stay.instants.Sublist (entries.map (·.note.instant)) := by
  induction entries using List.reverseRecOn generalizing stay with
  | nil => cases found
  | append_singleton entries entry ih =>
    rw [stayOf_concat] at found
    rw [List.map_append]
    unfold Entry.extend at found
    split at found
    · exact (ih found).trans (List.sublist_append_left _ _)
    · next note =>
      split at found
      · cases found
        rw [List.map_singleton, note]
        exact List.sublist_append_right _ _
      · exact (ih found).trans (List.sublist_append_left _ _)
    · next note =>
      obtain ⟨before, known, rfl⟩ := Option.map_eq_some_iff.mp found
      rw [Stay.instants_add, List.map_singleton, note]
      exact (ih known).append_right _

variable [Number α]

/-- The account of a pod over its stay: every stretch is charged, and the passes that wrote limits are counted. -/
structure Billed (cap : QueueCap) (stay : Stay α) (pod : Pod α) : Prop where
  settled : pod.lastUpdate = some stay.last.instant
  limits : pod.limits = stay.last.limits
  queue : pod.queue = stay.stretches.foldl (fun queue stretch =>
    Tokens.settle queue pod.reservation stretch.limits (Number.seconds (stretch.upTo - stretch.since)) cap) 0
  updates : pod.updates = stay.passes.countP (·.applied)

theorem Billed.rests {cap : QueueCap} {stay : Stay α} {before after : Pod α} (billed : Billed cap stay before)
    (rests : before.Rests after) : Billed cap stay after := by
  obtain ⟨account, limits⟩ := rests
  simp only [Pod.account, Account.mk.injEq] at account
  obtain ⟨reservation, queue, last, updates⟩ := account
  constructor
  · rw [last, billed.settled]
  · rw [limits, billed.limits]
  · rw [queue, billed.queue, reservation]
  · rw [updates, billed.updates]

theorem Billed.settles {cap : QueueCap} {stay : Stay α} {now : Nat} {outcome : Allocation} {before after : Pod α}
    (billed : Billed cap stay before) (settles : before.Settles cap now outcome after) :
    Billed cap (stay.add ⟨now, after.limits, outcome.isApplied⟩) after := by
  obtain ⟨since, last, charged⟩ := settles.charged
  have since_eq : since = stay.last.instant := Option.some.inj (last.symm.trans billed.settled)
  constructor
  · rw [settles.settled, Stay.last_add]
  · rw [Stay.last_add]
  · rw [charged, billed.queue, billed.limits, since_eq, settles.reservation, Stay.stretches_add, List.foldl_append]
    rfl
  · rw [settles.updates, billed.updates, Stay.add, List.countP_append, List.countP_singleton]

theorem billed_begin {cap : QueueCap} {pod : Pod α} {now : Nat} (empty : pod.queue = 0) (new : pod.updates = 0)
    (settled : pod.lastUpdate = some now) : Billed cap ⟨⟨now, pod.limits, false⟩, []⟩ pod :=
  ⟨settled, rfl, empty, new⟩

end PodBudget.Monitor
