import Mathlib.Data.List.Nodup
import Mathlib.Data.List.Perm.Basic
import PodBudget.Api.Ledger

/-!
What is supposed of a registry of metrics, and that one which keeps its series in a list is of that kind. A gauge finds a
series by a slot, which is made from the values of the labels; so series are told apart as far as their slots are.
-/
namespace PodBudget.Metrics

variable {ρ τ κ α : Type}

/-- All series that were gathered for a gauge. -/
def Gathered.shown (gathered : Gathered τ α) (gauge : Gauge) : List (Series α) :=
  (gathered.families.filter (·.gauge == gauge)).flatMap (·.series)

/-- What a library says of its registry. Each slot of a gauge holds at most one series, and setting a series finds the one
in its slot, which keeps the labels it was made with. What is gathered are the series that are held, in an order that
depends on them alone; and gauges are independent of one another and of all other measurements. -/
structure Registry.Lawful [DecidableEq κ] (registry : Registry ρ τ α) (slot : Gauge → List String → κ)
    (held : ρ → Gauge → κ → Option (Series α)) : Prop where
  held_new : ∀ gauge key, held registry.new gauge key = none
  held_reset : ∀ state gauge other key,
    held (registry.reset state gauge) other key = if other = gauge then none else held state other key
  held_set : ∀ state series, series.Fits → ∀ other key,
    held (registry.set state series) other key =
      if other = series.gauge ∧ key = slot series.gauge series.values then
        some { series with values := ((held state other key).map (·.values)).getD series.values }
      else held state other key
  held_measure : ∀ state measurement, held (registry.measure state measurement) = held state
  readings_reset : ∀ state gauge, (registry.gather (registry.reset state gauge)).readings = (registry.gather state).readings
  readings_set : ∀ state series, series.Fits →
    (registry.gather (registry.set state series)).readings = (registry.gather state).readings
  shown : ∀ state gauge, ∃ keys : List κ, keys.Nodup ∧ (∀ key, (held state gauge key).isSome → key ∈ keys) ∧
    ((registry.gather state).shown gauge).Perm (keys.filterMap (held state gauge))
  families : ∀ state other, held state = held other → (registry.gather state).families = (registry.gather other).families

theorem byName_injective {β : Type} {one other : List β} (same : byName one = byName other) : one = other := by
  have concat (front : List β) (last : β) : byName (front ++ [last]) = last :: front := by simp [byName]
  rcases List.eq_nil_or_concat' one with rfl | ⟨front, last, rfl⟩ <;>
    rcases List.eq_nil_or_concat' other with rfl | ⟨head, final, rfl⟩
  · rfl
  · rw [concat] at same
    cases same
  · rw [concat] at same
    cases same
  · rw [concat, concat] at same
    obtain ⟨rfl, rfl⟩ := List.cons.inj same
    rfl

/-- Where keys are distinct, a search for a key finds the entry that has it. -/
theorem find?_eq_some_iff_of_nodup {β γ : Type} [DecidableEq γ] {key : β → γ} {entries : List β}
    (distinct : (entries.map key).Nodup) {spot : γ} {entry : β} :
    entries.find? (fun other => key other = spot) = some entry ↔ entry ∈ entries ∧ key entry = spot := by
  constructor
  · intro found
    exact ⟨List.mem_of_find?_eq_some found, by simpa using List.find?_some found⟩
  · rintro ⟨member, here⟩
    cases found : entries.find? fun other => key other = spot with
    | none => exact absurd (decide_eq_true here) (List.find?_eq_none.mp found entry member)
    | some other =>
      have same : key other = spot := by simpa using List.find?_some found
      exact congrArg some
        (List.inj_on_of_nodup_map distinct (List.mem_of_find?_eq_some found) member (same.trans here.symm))

theorem nodup_values {entries : List (Series α)} (distinct : (entries.map keyOf).Nodup) (gauge : Gauge) :
    ((entries.filter (·.gauge == gauge)).map (·.values)).Nodup := by
  refine (List.nodup_map_iff_inj_on (distinct.of_map.filter _)).mpr ?_
  intro one first other second same
  obtain ⟨early, left⟩ := List.mem_filter.mp first
  obtain ⟨late, right⟩ := List.mem_filter.mp second
  refine List.inj_on_of_nodup_map distinct early late (Prod.ext ?_ same)
  exact (beq_iff_eq.mp left).trans (beq_iff_eq.mp right).symm

namespace Ledger

def held (ledger : Ledger α) (gauge : Gauge) (values : List String) : Option (Series α) :=
  ledger.series.find? fun series => keyOf series = (gauge, values)

theorem held_eq_some_iff {ledger : Ledger α} {gauge : Gauge} {values : List String} {series : Series α} :
    ledger.held gauge values = some series ↔ series ∈ ledger.series ∧ keyOf series = (gauge, values) :=
  find?_eq_some_iff_of_nodup ledger.distinct

theorem shown_gather (ledger : Ledger α) (gauge : Gauge) : ledger.gather.shown gauge = (ledger.family gauge).series := by
  have nonempty (families : List (Family α)) :
      (families.filter (!·.series.isEmpty)).flatMap (·.series) = families.flatMap (·.series) := by
    induction families with
    | nil => rfl
    | cons family rest ih =>
      rw [List.filter_cons, List.flatMap_cons, ← ih]
      cases empty : family.series with
      | nil => simp
      | cons first others => simp [empty]
  have single : Gauge.all.filter ((·.gauge == gauge) ∘ ledger.family) = [gauge] := by
    cases gauge <;> rfl
  rw [Gathered.shown, gather, List.filter_comm, nonempty, List.filter_map, single]
  simp

theorem family_perm (ledger : Ledger α) (gauge : Gauge) :
    (ledger.family gauge).series.Perm (ledger.series.filter (·.gauge == gauge)) := List.mergeSort_perm ..

theorem family_congr {ledger other : Ledger α} (same : ledger.held = other.held) (gauge : Gauge) :
    ledger.family gauge = other.family gauge := by
  have members (series : Series α) : series ∈ ledger.series ↔ series ∈ other.series := by
    have found := congrArg (· = some series) (congrFun₂ same series.gauge series.values)
    simpa [held_eq_some_iff, keyOf] using found
  have series : (ledger.series.filter (·.gauge == gauge)).Perm (other.series.filter (·.gauge == gauge)) :=
    ((List.perm_ext_iff_of_nodup ledger.distinct.of_map other.distinct.of_map).mpr members).filter _
  have sorted (ledger : Ledger α) : (ledger.family gauge).series.Pairwise fun one other =>
      (compare (byName one.values) (byName other.values)).isLE = true := by
    refine List.pairwise_mergeSort (fun _ _ _ => Std.TransCmp.isLE_trans) (fun one other => ?_) _
    have swapped : compare (byName other.values) (byName one.values) =
        (compare (byName one.values) (byName other.values)).swap := Std.OrientedCmp.eq_swap
    rw [swapped]
    cases compare (byName one.values) (byName other.values) <;> rfl
  refine congrArg (Family.mk gauge) (List.Perm.eq_of_pairwise ?_ (sorted ledger) (sorted other) ?_)
  · intro one last first second below above
    have values := byName_injective (Std.LawfulEqOrd.eq_of_compare (Std.OrientedCmp.isLE_antisymm below above))
    have early := (ledger.family_perm gauge).mem_iff.mp first
    have late := series.mem_iff.mpr ((other.family_perm gauge).mem_iff.mp second)
    exact List.inj_on_of_nodup_map (nodup_values ledger.distinct gauge) early late values
  · exact (ledger.family_perm gauge).trans (series.trans (other.family_perm gauge).symm)

/-- A registry that keeps its series in a list is one of the kind supposed; its slots are the values of the labels. -/
theorem lawful : (Metrics.ledger (α := α)).Lawful (fun _ values => values) held where
  held_new _ _ := rfl
  held_reset state gauge other key := by
    refine Option.ext fun series => ?_
    split
    next same =>
      simp only [reduceCtorEq, iff_false, held_eq_some_iff]
      rintro ⟨member, spot⟩
      have kept := (List.mem_filter.mp member).2
      simp [(Prod.mk.inj spot).1, same] at kept
    next differ =>
      simp only [held_eq_some_iff]
      refine and_congr_left fun spot => ?_
      have elsewhere : series.gauge ≠ gauge := fun same => differ ((Prod.mk.inj spot).1.symm.trans same)
      simp [Metrics.ledger, reset, elsewhere]
  held_set state series _ other key := by
    refine Option.ext fun found => ?_
    split
    next here =>
      obtain ⟨rfl, rfl⟩ := here
      have kept : ((state.held series.gauge series.values).map (·.values)).getD series.values = series.values := by
        cases old : state.held series.gauge series.values with
        | none => rfl
        | some before => exact (Prod.mk.inj (held_eq_some_iff.mp old).2).2
      simp only [kept, held_eq_some_iff, Metrics.ledger, set, List.mem_append, List.mem_filter,
        List.mem_singleton]
      constructor
      · rintro ⟨⟨-, other⟩ | rfl, spot⟩
        · simp [keyOf, (Prod.mk.inj spot).1, (Prod.mk.inj spot).2] at other
        · rfl
      · rintro ⟨rfl⟩
        exact ⟨.inr rfl, rfl⟩
    next elsewhere =>
      simp only [held_eq_some_iff]
      refine and_congr_left fun spot => ?_
      have apart : keyOf found ≠ keyOf series := by
        rintro same
        obtain ⟨gauge, values⟩ := Prod.mk.inj (spot.symm.trans same)
        exact elsewhere ⟨gauge, values⟩
      have differ : found ≠ series := fun same => apart (congrArg keyOf same)
      simp [Metrics.ledger, set, apart, differ]
  held_measure _ _ := rfl
  readings_reset _ _ := rfl
  readings_set _ _ _ := rfl
  shown state gauge := by
    refine ⟨_, nodup_values state.distinct gauge, ?_, ?_⟩
    · intro values some
      obtain ⟨series, found⟩ := Option.isSome_iff_exists.mp some
      obtain ⟨member, spot⟩ := held_eq_some_iff.mp found
      obtain ⟨rfl, rfl⟩ := Prod.mk.inj spot
      exact List.mem_map_of_mem (List.mem_filter.mpr ⟨member, beq_self_eq_true _⟩)
    · refine (shown_gather state gauge ▸ state.family_perm gauge).trans (.of_eq ?_)
      rw [List.filterMap_map]
      have each : ∀ series ∈ state.series.filter (·.gauge == gauge),
          (state.held gauge ∘ (·.values)) series = some series := by
        intro series member
        obtain ⟨inside, same⟩ := List.mem_filter.mp member
        exact held_eq_some_iff.mpr ⟨inside, Prod.ext (beq_iff_eq.mp same) rfl⟩
      rw [List.filterMap_congr each, List.filterMap_some]
  families state other same := by
    simp only [Metrics.ledger, gather]
    rw [funext (family_congr same)]

end Ledger

end PodBudget.Metrics
