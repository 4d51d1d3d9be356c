import PodBudget.Proofs.Monitor.Ledger

/-!
The history of a run: the positions that it passes, each with the ledger so far. A run of calls has one, and its notes
are what the cycles report.
-/
namespace PodBudget.Monitor

variable {σ α : Type} [Number α]

/-- A step of a run, with what it enters in the ledger. The instants of the steps are their own. -/
inductive Step (node : Node σ α) : Monitor α × Scene σ α → List (Entry α) → Monitor α × Scene σ α → Prop
  | enroll {monitor scene} (admission : Admission α) :
    Step node (monitor, scene) [] (standing (monitor.enroll admission scene))
  | expire {monitor scene} (trigger : Trigger) (now : Nat) :
    Step node (monitor, scene) [] (monitor.expire trigger now, scene)
  | sample {monitor scene} (entries : List (String × Pod α)) :
    Step node (monitor, scene) [] (monitor, (takeSamples node entries scene).2)
  | report {monitor scene} (samples : List Sample) :
    Step node (monitor, scene) [] ({ monitor with running := (foldSamples monitor.running samples).1 }, scene)
  | complete {monitor scene} (name : String) : Step node (monitor, scene) [] (monitor.complete name scene)
  | allocate {monitor scene} (remaining : α) (now : Moment) :
    Step node (monitor, scene) [.ofPass now (monitor.allocateIfActing node remaining now scene).1]
      (standing (monitor.allocateIfActing node remaining now scene))
  | ask {monitor scene} (name : String) : Step node (monitor, scene) [] (monitor, (node.askPaths name scene).2)
  | promote {monitor scene} (now : Nat) (name : String) (pod : Pod α) (paths : PerKind String)
      (waiting : monitor.notReady.get? name = some pod) :
    Step node (monitor, scene) [.ofStart name now (monitor.promote node now name pod paths scene).1]
      (monitor.promote node now name pod paths scene)
  | publish {monitor scene} (unix : Int) : Step node (monitor, scene) [] (monitor.publish unix, scene)

/-- The positions that a run passes, with the ledger so far. -/
inductive History (node : Node σ α) (start : Monitor α × Scene σ α) :
    List (Entry α) → Monitor α × Scene σ α → Prop
  | start : History node start [] start
  | step {entries more before after} (history : History node start entries before)
      (step : Step node before more after) : History node start (entries ++ more) after

theorem Step.reached {node : Node σ α} {start before after : Monitor α × Scene σ α} {more : List (Entry α)}
    (step : Step node before more after) (reached : Reached node start before) : Reached node start after := by
  cases step with
  | enroll admission => exact .enroll admission reached
  | expire trigger now => exact .move reached (.expire trigger now)
  | sample entries => exact .move reached (.sample entries)
  | report samples => exact .move reached (.report samples)
  | complete name => exact .move reached (.complete name)
  | allocate remaining now => exact .move reached (.allocate remaining now)
  | ask name => exact .move reached (.ask name)
  | promote now name pod paths waiting => exact .move reached (.promote now name pod paths waiting)
  | publish unix => exact .move reached (.publish unix)

theorem History.reached {node : Node σ α} {start position : Monitor α × Scene σ α} {entries : List (Entry α)}
    (history : History node start entries position) : Reached node start position := by
  induction history with
  | start => exact .start
  | step _ step ih => exact step.reached ih

def noted (node : Node σ α) (position : Monitor α × Scene σ α) : Call α → List Note
  | .enroll _ => []
  | .cycle trigger now arrival =>
    let report := (position.1.cycle node trigger now arrival position.2).1.1
    .passed now.instant report.allocation :: report.promoted.map (.began · now.instant)

def notes (node : Node σ α) (position : Monitor α × Scene σ α) : List (Call α) → List Note
  | [] => []
  | call :: rest => noted node position call ++ notes node (perform node position call) rest

def Call.instant? : Call α → Option Nat
  | .enroll _ => none
  | .cycle _ now _ => some now.instant

section

variable {node : Node σ α} {start : Monitor α × Scene σ α} {entries : List (Entry α)} {monitor : Monitor α}
  {scene : Scene σ α}

theorem History.still {position next : Monitor α × Scene σ α} (history : History node start entries position)
    (step : Step node position [] next) : History node start entries next :=
  List.append_nil entries ▸ history.step step

theorem History.completeAll (names : List String) (history : History node start entries (monitor, scene)) :
    History node start entries (monitor.completeAll names scene) := by
  induction names generalizing monitor scene with
  | nil => exact history
  | cons name rest ih => exact ih (history.still (.complete name))

theorem History.promoteEach (now : Nat) (names : List String)
    (history : History node start entries (monitor, scene)) :
    ∃ more, History node start (entries ++ more) (standing (monitor.promoteEach node now names scene)) ∧
      more.map (·.note) = (monitor.promoteEach node now names scene).1.1.map (.began · now) := by
  induction names generalizing entries monitor scene with
  | nil => exact ⟨[], (List.append_nil entries).symm ▸ history, rfl⟩
  | cons name rest ih =>
    have asked := history.still (.ask name)
    rw [promoteEach_cons]
    split
    · next paths pod _ waiting =>
      obtain ⟨more, later, same⟩ := ih (asked.step (.promote now name pod paths waiting))
      rw [List.append_assoc] at later
      refine ⟨_, later, ?_⟩
      rw [List.map_append, same]
      rfl
    · exact ih asked

theorem History.takeIn (samples : List Sample) (history : History node start entries (monitor, scene)) :
    History node start entries (standing (monitor.takeIn samples scene)) :=
  (history.still (.report samples)).completeAll _

theorem History.cycle (trigger : Trigger) (now : Moment) (arrival : List Sample → List Sample)
    (history : History node start entries (monitor, scene)) :
    ∃ more, History node start (entries ++ more) (standing (monitor.cycle node trigger now arrival scene)) ∧
      more.map (·.note) = noted node (monitor, scene) (.cycle trigger now arrival) := by
  let samples := arrival (takeSamples node monitor.running.entries scene).1
  have begun := (history.still (.sample monitor.running.entries)).still (.expire trigger now.instant)
  have allocated := (begun.takeIn samples).step (.allocate (monitor.remaining trigger now.instant) now)
  obtain ⟨more, promoted, same⟩ := allocated.promoteEach now.instant _
  rw [List.append_assoc] at promoted
  refine ⟨_, promoted.still (.publish now.unix), ?_⟩
  rw [List.map_append, same]
  rfl

theorem History.run (calls : List (Call α)) {position : Monitor α × Scene σ α}
    (history : History node start entries position) :
    ∃ more, History node start (entries ++ more) (run node position calls) ∧
      more.map (·.note) = notes node position calls := by
  induction calls generalizing entries position with
  | nil => exact ⟨[], (List.append_nil entries).symm ▸ history, rfl⟩
  | cons call rest ih =>
    have one : ∃ more, History node start (entries ++ more) (perform node position call) ∧
        more.map (·.note) = noted node position call := by
      cases call with
      | enroll admission => exact ⟨[], history.step (.enroll admission), rfl⟩
      | cycle trigger now arrival => exact history.cycle trigger now arrival
    obtain ⟨first, reached, same⟩ := one
    obtain ⟨second, final, still⟩ := ih reached
    rw [List.append_assoc] at final
    refine ⟨first ++ second, final, ?_⟩
    rw [List.map_append, same, still]
    rfl

end

theorem instant?_of_mem_noted {node : Node σ α} {position : Monitor α × Scene σ α} {call : Call α} {note : Note}
    (member : note ∈ noted node position call) : call.instant? = some note.instant := by
  cases call with
  | enroll admission => cases member
  | cycle trigger now arrival =>
    rcases List.mem_cons.mp member with rfl | began
    · rfl
    · obtain ⟨name, _, rfl⟩ := List.mem_map.mp began
      rfl

theorem instant?_of_mem_notes {node : Node σ α} {position : Monitor α × Scene σ α} {calls : List (Call α)}
    {note : Note} (member : note ∈ notes node position calls) :
    ∃ call ∈ calls, call.instant? = some note.instant := by
  induction calls generalizing position with
  | nil => cases member
  | cons call rest ih =>
    rcases List.mem_append.mp member with own | later
    · exact ⟨call, List.mem_cons_self, instant?_of_mem_noted own⟩
    · obtain ⟨other, present, same⟩ := ih later
      exact ⟨other, List.mem_cons_of_mem _ present, same⟩

theorem sorted_notes (node : Node σ α) (position : Monitor α × Scene σ α) (calls : List (Call α))
    (sorted : (calls.filterMap Call.instant?).Pairwise (· ≤ ·)) :
    ((notes node position calls).map (·.instant)).Pairwise (· ≤ ·) := by
  rw [List.pairwise_filterMap] at sorted
  rw [List.pairwise_map]
  induction calls generalizing position with
  | nil => exact .nil
  | cons call rest ih =>
    obtain ⟨before, sorted⟩ := List.pairwise_cons.mp sorted
    refine List.pairwise_append.mpr ⟨?_, ih _ sorted, ?_⟩
    · apply List.pairwise_of_forall_mem_list
      intro one first other second
      have same := (instant?_of_mem_noted first).symm.trans (instant?_of_mem_noted second)
      exact Nat.le_of_eq (Option.some.inj same)
    · intro one own other later
      obtain ⟨call, present, same⟩ := instant?_of_mem_notes later
      exact before call present _ (instant?_of_mem_noted own) _ same

end PodBudget.Monitor
