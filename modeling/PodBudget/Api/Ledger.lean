import PodBudget.Api.Gauges

/-!
A registry that keeps its series in a list, each set of labels once. It gathers families in the order of their names and
series in the order of their label values, and writes them line by line. Its histogram only counts.
-/
namespace PodBudget

namespace Gauge

def all : List Gauge :=
  [.podQueue, .podReservation, .podUpdates, .pods, .resourceAverage, .resourceWeight, .resourceLimit, .resourceUsage]

end Gauge

namespace Metrics

variable {α : Type}

def keyOf (series : Series α) : Gauge × List String := (series.gauge, series.values)

structure Ledger (α : Type) where
  series : List (Series α)
  distinct : (series.map keyOf).Nodup
  tally : Tally

/-- The values of labels in the order of the names; the node is declared last and comes first. -/
def byName {β : Type} (values : List β) : List β := values.getLast?.toList ++ values.dropLast

namespace Ledger

def new : Ledger α := ⟨[], .nil, .zero⟩

def reset (ledger : Ledger α) (gauge : Gauge) : Ledger α where
  series := ledger.series.filter fun series => !(series.gauge == gauge)
  distinct := ledger.distinct.sublist (List.filter_sublist.map keyOf)
  tally := ledger.tally

/-- Sets a value; one under the same labels gives way. -/
def set (ledger : Ledger α) (series : Series α) : Ledger α where
  series := ledger.series.filter (fun other => !(keyOf other == keyOf series)) ++ [series]
  distinct := by
    rw [List.map_append, List.nodup_append]
    refine ⟨ledger.distinct.sublist (List.filter_sublist.map keyOf), by simp, ?_⟩
    intro key member other single
    obtain ⟨entry, kept, rfl⟩ := List.mem_map.mp member
    obtain rfl : other = keyOf series := by simpa using single
    simpa using (List.mem_filter.mp kept).2
  tally := ledger.tally

def measure (ledger : Ledger α) (measurement : Measurement α) : Ledger α :=
  let tally := ledger.tally
  { ledger with
    tally := match measurement with
      | .cycle _ => { tally with cycles := tally.cycles + 1 }
      | .jointSolve => { tally with jointSolves := tally.jointSolves + 1 }
      | .jointFailure => { tally with jointFailures := tally.jointFailures + 1 }
      | .writeErrors count => { tally with writeErrors := tally.writeErrors + count } }

def family (ledger : Ledger α) (gauge : Gauge) : Family α where
  gauge
  series := (ledger.series.filter (·.gauge == gauge)).mergeSort fun one other =>
    (compare (byName one.values) (byName other.values)).isLE

def gather (ledger : Ledger α) : Gathered Tally α where
  families := (Gauge.all.map ledger.family).filter (!·.series.isEmpty)
  readings := ledger.tally

end Ledger

def escapeLabel (text : String) : String :=
  String.ofList (text.toList.flatMap fun c =>
    if c = '\\' then ['\\', '\\'] else if c = '"' then ['\\', '"'] else if c = '\n' then ['\\', 'n'] else [c])

def seriesText (series : Series α) : String :=
  let labels := (byName series.labels).map fun (name, value) => name ++ "=\"" ++ escapeLabel value ++ "\""
  series.gauge.name ++ "\x7b" ++ ",".intercalate labels ++ "\x7d"

def familyLines (family : Family α) : List (ExpositionLine α) :=
  .comment s!"# HELP {family.gauge.name} {family.gauge.help}" ::
    .comment s!"# TYPE {family.gauge.name} gauge" ::
    family.series.map fun series => .sample (seriesText series) series.value

def ledger : Registry (Ledger α) Tally α where
  new := Ledger.new
  reset := Ledger.reset
  set := Ledger.set
  measure := Ledger.measure
  gather := Ledger.gather
  encode gathered := .ok (gathered.families.flatMap familyLines)

end Metrics
end PodBudget
