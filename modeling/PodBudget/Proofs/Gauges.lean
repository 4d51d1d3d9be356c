import PodBudget.Proofs.Registry

/-!
What the gauges show. Showing a snapshot leaves nothing of the ones before it: whatever was shown and measured earlier,
every gauge then has one series for each running pod, or for each of its resources, and no other; the readings of all else
stay.
-/
namespace PodBudget

variable {ρ τ κ α : Type}

theorem Kind.name_injective {left right : Kind} (same : left.name = right.name) : left = right := by
  cases left <;> cases right <;> first | rfl | exact absurd same (by decide)

namespace Metrics

section snapshots

variable [Number α]

def resourceGauges : List (Gauge × (ResourceSnapshot α → α)) :=
  [(.resourceLimit, (·.limit)), (.resourceUsage, (·.usage)), (.resourceAverage, (·.average)),
    (.resourceWeight, (·.weight))]

def podGauges : List (Gauge × (PodSnapshot α → α)) :=
  [(.podUpdates, fun pod => Number.ofNat pod.updates), (.podReservation, (·.reservation)), (.podQueue, (·.queue))]

/-- What a gauge of resources has to show. -/
def resourcesShown (snapshot : NodeSnapshot α) (gauge : Gauge) (value : ResourceSnapshot α → α) : List (Series α) :=
  snapshot.running.flatMap fun pod => pod.resources.map fun resource =>
    ⟨gauge, [pod.name, resource.kind.name, snapshot.node], value resource⟩

def podsShown (snapshot : NodeSnapshot α) (gauge : Gauge) (value : PodSnapshot α → α) : List (Series α) :=
  snapshot.running.map fun pod => ⟨gauge, [pod.name, snapshot.node], value pod⟩

def blockOf (node : String) (pod : PodSnapshot α) : List (Series α) :=
  pod.resources.flatMap (resourceSeries node pod) ++ podSeries node pod

theorem seriesOf_eq (snapshot : NodeSnapshot α) :
    seriesOf snapshot = snapshot.running.flatMap (blockOf snapshot.node) ++ stageSeries snapshot := rfl

theorem filter_resourceGauges (snapshot : NodeSnapshot α) {gauge : Gauge} {value : ResourceSnapshot α → α}
    (listed : (gauge, value) ∈ resourceGauges) :
    (seriesOf snapshot).filter (·.gauge == gauge) = resourcesShown snapshot gauge value := by
  simp only [resourceGauges, List.mem_cons, Prod.mk.injEq, List.not_mem_nil, or_false] at listed
  rcases listed with ⟨rfl, rfl⟩ | ⟨rfl, rfl⟩ | ⟨rfl, rfl⟩ | ⟨rfl, rfl⟩ <;>
    simp [seriesOf_eq, blockOf, resourcesShown, resourceSeries, podSeries, stageSeries, List.filter_flatMap,
      List.map_eq_flatMap]

theorem filter_podGauges (snapshot : NodeSnapshot α) {gauge : Gauge} {value : PodSnapshot α → α}
    (listed : (gauge, value) ∈ podGauges) :
    (seriesOf snapshot).filter (·.gauge == gauge) = podsShown snapshot gauge value := by
  have nothing (resources : List (ResourceSnapshot α)) : resources.flatMap (fun _ => ([] : List (Series α))) = [] :=
    List.flatMap_eq_nil_iff.mpr fun _ _ => rfl
  simp only [podGauges, List.mem_cons, Prod.mk.injEq, List.not_mem_nil, or_false] at listed
  rcases listed with ⟨rfl, rfl⟩ | ⟨rfl, rfl⟩ | ⟨rfl, rfl⟩ <;>
    simp [seriesOf_eq, blockOf, podsShown, resourceSeries, podSeries, stageSeries, List.filter_flatMap,
      List.map_eq_flatMap, nothing]

theorem filter_pods (snapshot : NodeSnapshot α) :
    (seriesOf snapshot).filter (·.gauge == .pods) = stageSeries snapshot := by
  simp [seriesOf_eq, blockOf, resourceSeries, podSeries, stageSeries, List.filter_flatMap]

-- Series differ by what they are labelled with: those of different pods by the pod, and those of one pod by the
-- resource, if they have one.

theorem pod_of_mem_blockOf {node : String} {pod : PodSnapshot α} {series : Series α}
    (member : series ∈ blockOf node pod) :
    series.Fits ∧ series.labels.lookup "pod" = some pod.name ∧ series.labels.lookup "node" = some node := by
  simp only [blockOf, resourceSeries, podSeries, List.mem_append, List.mem_flatMap, List.mem_cons, List.not_mem_nil,
    or_false] at member
  rcases member with ⟨resource, -, rfl | rfl | rfl | rfl⟩ | rfl | rfl | rfl <;> exact ⟨rfl, rfl, rfl⟩

omit [Number α] in
theorem resource_of_mem_resourceSeries {node : String} {pod : PodSnapshot α} {resource : ResourceSnapshot α}
    {series : Series α} (member : series ∈ resourceSeries node pod resource) :
    series.labels.lookup "resource" = some resource.kind.name := by
  simp only [resourceSeries, List.mem_cons, List.not_mem_nil, or_false] at member
  rcases member with rfl | rfl | rfl | rfl <;> rfl

theorem resource_of_mem_podSeries {node : String} {pod : PodSnapshot α} {series : Series α}
    (member : series ∈ podSeries node pod) : series.labels.lookup "resource" = none := by
  simp only [podSeries, List.mem_cons, List.not_mem_nil, or_false] at member
  rcases member with rfl | rfl | rfl <;> rfl

def stages : List String := ["running", "not_ready", "completed"]

theorem values_stageSeries (snapshot : NodeSnapshot α) :
    (stageSeries snapshot).map keyOf = stages.map fun stage => (.pods, [stage]) := rfl

theorem stage_of_mem_stageSeries {snapshot : NodeSnapshot α} {series : Series α} (member : series ∈ stageSeries snapshot) :
    series.Fits ∧ series.labels.lookup "pod" = none ∧ series.labels.lookup "node" = none := by
  obtain ⟨_, -, rfl⟩ := List.mem_map.mp member
  exact ⟨rfl, rfl, rfl⟩

omit [Number α] in
theorem disjoint_keys {left right : List (Series α)}
    (apart : ∀ one ∈ left, ∀ other ∈ right, one.labels ≠ other.labels) :
    List.Disjoint (left.map keyOf) (right.map keyOf) := by
  intro key early late
  obtain ⟨one, first, rfl⟩ := List.mem_map.mp early
  obtain ⟨other, second, same⟩ := List.mem_map.mp late
  obtain ⟨gauge, values⟩ := Prod.mk.inj same
  exact apart one first other second (congrArg₂ List.zip (congrArg Gauge.labelNames gauge) values).symm

theorem nodup_blockOf (node : String) (pod : PodSnapshot α) (kinds : (pod.resources.map (·.kind)).Nodup) :
    ((blockOf node pod).map keyOf).Nodup := by
  rw [blockOf, List.map_append, List.nodup_append']
  refine ⟨?_, ?_, disjoint_keys ?_⟩
  · rw [List.map_flatMap, List.nodup_flatMap]
    refine ⟨fun resource _ => ?_, (List.pairwise_map.mp kinds).imp fun differ => disjoint_keys ?_⟩
    · simp [resourceSeries, keyOf]
    · intro one first other second same
      have kind := resource_of_mem_resourceSeries first
      rw [same, resource_of_mem_resourceSeries second] at kind
      exact differ (Kind.name_injective (Option.some.inj kind).symm)
  · simp [podSeries, keyOf]
  · intro one first other second same
    obtain ⟨resource, -, inside⟩ := List.mem_flatMap.mp first
    have kind := resource_of_mem_resourceSeries inside
    rw [same, resource_of_mem_podSeries second] at kind
    cases kind

theorem nodup_seriesOf (snapshot : NodeSnapshot α) (names : (snapshot.running.map (·.name)).Nodup)
    (kinds : ∀ pod ∈ snapshot.running, (pod.resources.map (·.kind)).Nodup) :
    ((seriesOf snapshot).map keyOf).Nodup := by
  rw [seriesOf_eq, List.map_append, List.nodup_append']
  refine ⟨?_, ?_, disjoint_keys ?_⟩
  · rw [List.map_flatMap, List.nodup_flatMap]
    refine ⟨fun pod member => nodup_blockOf _ pod (kinds pod member), ?_⟩
    refine (List.pairwise_map.mp names).imp fun differ => disjoint_keys ?_
    intro one first other second same
    have name := (pod_of_mem_blockOf first).2.1
    rw [same, (pod_of_mem_blockOf second).2.1] at name
    exact differ (Option.some.inj name).symm
  · rw [values_stageSeries]
    decide
  · intro one first other second same
    obtain ⟨pod, -, inside⟩ := List.mem_flatMap.mp first
    have name := (pod_of_mem_blockOf inside).2.1
    rw [same, (stage_of_mem_stageSeries second).2.1] at name
    cases name

theorem labels_of_mem_seriesOf {snapshot : NodeSnapshot α} {series : Series α} (member : series ∈ seriesOf snapshot) :
    series.Fits ∧ (∀ pod, series.labels.lookup "pod" = some pod → pod ∈ snapshot.running.map (·.name)) ∧
      ∀ node, series.labels.lookup "node" = some node → node = snapshot.node := by
  rw [seriesOf_eq] at member
  rcases List.mem_append.mp member with inside | inside
  · obtain ⟨pod, running, block⟩ := List.mem_flatMap.mp inside
    obtain ⟨fits, name, place⟩ := pod_of_mem_blockOf block
    rw [name, place]
    simp only [Option.some.injEq, forall_eq', and_true]
    exact ⟨fits, List.mem_map_of_mem running⟩
  · obtain ⟨fits, name, place⟩ := stage_of_mem_stageSeries inside
    rw [name, place]
    exact ⟨fits, nofun, nofun⟩

theorem stage_of_mem_seriesOf {snapshot : NodeSnapshot α} {series : Series α} (member : series ∈ seriesOf snapshot)
    (gauge : series.gauge = .pods) : ∃ stage ∈ stages, series.values = [stage] := by
  have staged : series ∈ stageSeries snapshot := by
    rw [← filter_pods, List.mem_filter]
    exact ⟨member, beq_iff_eq.mpr gauge⟩
  have key := List.mem_map_of_mem (f := keyOf) staged
  rw [values_stageSeries] at key
  obtain ⟨stage, listed, same⟩ := List.mem_map.mp key
  exact ⟨stage, listed, (Prod.mk.inj same).2.symm⟩

end snapshots

/-- What is done to the metrics: a snapshot is shown, or something else measured. -/
inductive Update (α : Type) where
  | publish (snapshot : NodeSnapshot α)
  | measure (measurement : Measurement α)

def Registry.apply [Number α] (registry : Registry ρ τ α) (state : ρ) : Update α → ρ
  | .publish snapshot => registry.publish state snapshot
  | .measure measurement => registry.measure state measurement

def spotOf (slot : Gauge → List String → κ) (series : Series α) : Gauge × κ :=
  (series.gauge, slot series.gauge series.values)

/-- No two series that differ by their labels meet in one slot. -/
def Separates (slot : Gauge → List String → κ) (entries : List (Series α)) : Prop :=
  ∀ one ∈ entries, ∀ other ∈ entries, spotOf slot one = spotOf slot other → one.values = other.values

/-- Numbers of pods, which are never dropped, are held for the stages and for nothing else. -/
def StagesOnly (slot : Gauge → List String → κ) (held : ρ → Gauge → κ → Option (Series α)) (state : ρ) : Prop :=
  ∀ key series, held state .pods key = some series →
    ∃ stage ∈ stages, series.values = [stage] ∧ key = slot .pods [stage]

namespace Registry.Lawful

variable [DecidableEq κ] {registry : Registry ρ τ α} {slot : Gauge → List String → κ}
  {held : ρ → Gauge → κ → Option (Series α)} (lawful : registry.Lawful slot held)
include lawful

theorem held_resets (gauges : List Gauge) (state : ρ) (gauge : Gauge) (key : κ) :
    held (gauges.foldl registry.reset state) gauge key = if gauge ∈ gauges then none else held state gauge key := by
  induction gauges generalizing state with
  | nil => rfl
  | cons first rest ih =>
    rw [List.foldl_cons, ih, lawful.held_reset]
    by_cases same : gauge = first <;> by_cases later : gauge ∈ rest <;> simp [same, later]

theorem readings_resets (gauges : List Gauge) (state : ρ) :
    (registry.gather (gauges.foldl registry.reset state)).readings = (registry.gather state).readings := by
  induction gauges generalizing state with
  | nil => rfl
  | cons first rest ih => exact (ih _).trans (lawful.readings_reset state first)

theorem readings_sets {entries : List (Series α)} (fits : ∀ series ∈ entries, series.Fits) (state : ρ) :
    (registry.gather (entries.foldl registry.set state)).readings = (registry.gather state).readings := by
  induction entries generalizing state with
  | nil => rfl
  | cons first rest ih =>
    obtain ⟨fit, others⟩ := List.forall_mem_cons.mp fits
    exact (ih others _).trans (lawful.readings_set state first fit)

theorem held_set_of_ne {series : Series α} (fits : series.Fits) (state : ρ) {gauge : Gauge} {key : κ}
    (elsewhere : spotOf slot series ≠ (gauge, key)) :
    held (registry.set state series) gauge key = held state gauge key := by
  rw [lawful.held_set state series fits, if_neg]
  rintro ⟨rfl, rfl⟩
  exact elsewhere rfl

theorem held_set_self {series : Series α} (fits : series.Fits) {state : ρ}
    (same : ∀ old, held state series.gauge (slot series.gauge series.values) = some old → old.values = series.values) :
    held (registry.set state series) series.gauge (slot series.gauge series.values) = some series := by
  rw [lawful.held_set state series fits, if_pos ⟨rfl, rfl⟩]
  cases found : held state series.gauge (slot series.gauge series.values) with
  | none => rfl
  | some old => simp [same old found]

theorem held_sets {entries : List (Series α)} (fits : ∀ series ∈ entries, series.Fits)
    (apart : (entries.map (spotOf slot)).Nodup) {state : ρ}
    (same : ∀ series ∈ entries, ∀ old, held state series.gauge (slot series.gauge series.values) = some old →
      old.values = series.values) (gauge : Gauge) (key : κ) :
    held (entries.foldl registry.set state) gauge key =
      (entries.find? fun series => spotOf slot series = (gauge, key)).or (held state gauge key) := by
  induction entries generalizing state with
  | nil => rfl
  | cons first rest ih =>
    obtain ⟨fit, fits⟩ := List.forall_mem_cons.mp fits
    obtain ⟨alone, apart⟩ := List.nodup_cons.mp apart
    obtain ⟨old, same⟩ := List.forall_mem_cons.mp same
    have untouched : ∀ series ∈ rest, held (registry.set state first) series.gauge (slot series.gauge series.values) =
        held state series.gauge (slot series.gauge series.values) := by
      intro series member
      refine lawful.held_set_of_ne fit state fun equal => alone ?_
      exact List.mem_map.mpr ⟨series, member, equal.symm⟩
    rw [List.foldl_cons, ih fits apart fun series member old found =>
      same series member old ((untouched series member).symm.trans found)]
    by_cases here : spotOf slot first = (gauge, key)
    · have missing : rest.find? (fun series => spotOf slot series = (gauge, key)) = none := by
        rw [List.find?_eq_none]
        intro series member equal
        exact alone (List.mem_map.mpr ⟨series, member, (of_decide_eq_true equal).trans here.symm⟩)
      rw [missing, List.find?_cons_of_pos (by simpa using here)]
      obtain ⟨rfl, rfl⟩ := Prod.mk.inj here
      exact lawful.held_set_self fit old
    · rw [lawful.held_set_of_ne fit state here, List.find?_cons_of_neg (by simpa using here)]

theorem stagesOnly_new : StagesOnly slot held registry.new := by
  intro key series found
  rw [lawful.held_new] at found
  cases found

theorem stagesOnly_set {state : ρ} (only : StagesOnly slot held state) {series : Series α} (fits : series.Fits)
    (staged : series.gauge = .pods → ∃ stage ∈ stages, series.values = [stage]) :
    StagesOnly slot held (registry.set state series) := by
  intro key found present
  rw [lawful.held_set state series fits] at present
  split at present
  next here =>
    obtain ⟨gauge, rfl⟩ := here
    cases old : held state .pods (slot series.gauge series.values) with
    | none =>
      rw [old] at present
      obtain ⟨stage, listed, values⟩ := staged gauge.symm
      rw [← Option.some.inj present]
      exact ⟨stage, listed, values, by rw [← gauge, values]⟩
    | some before =>
      rw [old] at present
      rw [← Option.some.inj present]
      exact only _ before old
  next => exact only key found present

theorem stagesOnly_sets {entries : List (Series α)} (fits : ∀ series ∈ entries, series.Fits)
    (staged : ∀ series ∈ entries, series.gauge = .pods → ∃ stage ∈ stages, series.values = [stage]) {state : ρ}
    (only : StagesOnly slot held state) : StagesOnly slot held (entries.foldl registry.set state) := by
  induction entries generalizing state with
  | nil => exact only
  | cons first rest ih =>
    obtain ⟨fit, fits⟩ := List.forall_mem_cons.mp fits
    obtain ⟨stage, staged⟩ := List.forall_mem_cons.mp staged
    exact ih fits staged (lawful.stagesOnly_set only fit stage)

theorem stagesOnly_resets {state : ρ} (only : StagesOnly slot held state) :
    StagesOnly slot held (Gauge.replaced.foldl registry.reset state) := by
  intro key series found
  rw [lawful.held_resets, if_neg (by decide)] at found
  exact only key series found

variable [Number α]

theorem stagesOnly_updates {state : ρ} (only : StagesOnly slot held state) (updates : List (Update α)) :
    StagesOnly slot held (updates.foldl registry.apply state) := by
  induction updates generalizing state with
  | nil => exact only
  | cons update rest ih =>
    cases update with
    | publish snapshot =>
      refine ih (lawful.stagesOnly_sets ?_ ?_ (lawful.stagesOnly_resets only))
      · exact fun series member => (labels_of_mem_seriesOf member).1
      · exact fun series member => stage_of_mem_seriesOf member
    | measure measurement =>
      refine ih fun key series found => ?_
      rw [Registry.apply, lawful.held_measure] at found
      exact only key series found

variable {snapshot : NodeSnapshot α} (names : (snapshot.running.map (·.name)).Nodup)
  (kinds : ∀ pod ∈ snapshot.running, (pod.resources.map (·.kind)).Nodup)
  (separate : Separates slot (seriesOf snapshot))

omit lawful [DecidableEq κ] in
include names kinds separate in
theorem nodup_spots : ((seriesOf snapshot).map (spotOf slot)).Nodup := by
  have keys := nodup_seriesOf snapshot names kinds
  refine (List.nodup_map_iff_inj_on keys.of_map).mpr ?_
  intro one first other second same
  refine List.inj_on_of_nodup_map keys first second ?_
  exact Prod.ext (Prod.mk.inj same).1 (separate one first other second same)

omit lawful [DecidableEq κ] in
theorem exists_stage (snapshot : NodeSnapshot α) {stage : String} (listed : stage ∈ stages) :
    ∃ series ∈ seriesOf snapshot, series.gauge = .pods ∧ series.values = [stage] := by
  have key := List.mem_map_of_mem (f := fun stage => (Gauge.pods, [stage])) listed
  rw [← values_stageSeries snapshot] at key
  obtain ⟨series, staged, same⟩ := List.mem_map.mp key
  refine ⟨series, ?_, Prod.mk.inj same⟩
  rw [seriesOf_eq]
  exact List.mem_append_right _ staged

include names kinds separate

theorem held_publish {state : ρ} (only : StagesOnly slot held state) (gauge : Gauge) (key : κ) (series : Series α) :
    held (registry.publish state snapshot) gauge key = some series ↔
      series ∈ seriesOf snapshot ∧ spotOf slot series = (gauge, key) := by
  have apart := nodup_spots names kinds separate
  have fits : ∀ series ∈ seriesOf snapshot, series.Fits := fun series member => (labels_of_mem_seriesOf member).1
  -- All that is left of earlier snapshots are the numbers of pods, and these are set again.
  have left : ∀ gauge key old, held (Gauge.replaced.foldl registry.reset state) gauge key = some old →
      ∃ again ∈ seriesOf snapshot, spotOf slot again = (gauge, key) ∧ again.values = old.values := by
    intro gauge key old found
    rw [lawful.held_resets, Option.ite_none_left_eq_some] at found
    obtain rfl : gauge = .pods := by
      cases gauge <;> first | rfl | exact absurd found.1 (by decide)
    obtain ⟨stage, listed, values, rfl⟩ := only key old found.2
    obtain ⟨again, member, pods, same⟩ := exists_stage snapshot listed
    exact ⟨again, member, by rw [spotOf, pods, same], same.trans values.symm⟩
  have kept : ∀ series ∈ seriesOf snapshot, ∀ old, held (Gauge.replaced.foldl registry.reset state) series.gauge
      (slot series.gauge series.values) = some old → old.values = series.values := by
    intro series member old found
    obtain ⟨again, present, spot, same⟩ := left _ _ old found
    exact same.symm.trans (separate again present series member spot)
  have found : (seriesOf snapshot).find? (fun other => spotOf slot other = (gauge, key)) = some series ↔
      series ∈ seriesOf snapshot ∧ spotOf slot series = (gauge, key) := find?_eq_some_iff_of_nodup apart
  rw [Registry.publish, lawful.held_sets fits apart kept, ← found, Option.or_eq_some_iff, or_iff_left_iff_imp]
  rintro ⟨missing, old⟩
  obtain ⟨again, member, spot, -⟩ := left _ _ series old
  exact absurd (decide_eq_true spot) (List.find?_eq_none.mp missing again member)

theorem shown_publish {state : ρ} (only : StagesOnly slot held state) (gauge : Gauge) :
    ((registry.gather (registry.publish state snapshot)).shown gauge).Perm
      ((seriesOf snapshot).filter (·.gauge == gauge)) := by
  have holds := lawful.held_publish names kinds separate only gauge
  obtain ⟨keys, distinct, covers, same⟩ := lawful.shown (registry.publish state snapshot) gauge
  refine same.trans ((List.perm_ext_iff_of_nodup ?_ ?_).mpr fun series => ?_)
  · refine distinct.filterMap fun one other series first second => ?_
    have spot := ((holds one series).mp first).2
    rw [((holds other series).mp second).2] at spot
    exact (Prod.mk.inj spot).2.symm
  · exact (nodup_seriesOf snapshot names kinds).of_map.filter _
  · rw [List.mem_filterMap, List.mem_filter, beq_iff_eq]
    constructor
    · rintro ⟨key, -, found⟩
      obtain ⟨member, spot⟩ := (holds key series).mp found
      exact ⟨member, (Prod.mk.inj spot).1⟩
    · rintro ⟨member, rfl⟩
      have found := (holds (slot series.gauge series.values) series).mpr ⟨member, rfl⟩
      exact ⟨_, covers _ (Option.isSome_of_eq_some found), found⟩

end Registry.Lawful

/-- A snapshot that is shown after any history is all that the gauges show, in a registry that keeps the series of the
snapshot apart. Each gauge of resources has exactly one series for each resource of each running pod, each gauge of pods
exactly one for each running pod, and the stages are counted; the values and labels are those of this snapshot, so a pod
that does not run any more is not shown, whatever was shown before. Other readings stay. -/
theorem shown_of_updates [DecidableEq κ] [Number α] {registry : Registry ρ τ α} {slot : Gauge → List String → κ}
    {held : ρ → Gauge → κ → Option (Series α)} (lawful : registry.Lawful slot held) (updates : List (Update α))
    (snapshot : NodeSnapshot α) (names : (snapshot.running.map (·.name)).Nodup)
    (kinds : ∀ pod ∈ snapshot.running, (pod.resources.map (·.kind)).Nodup)
    (separate : Separates slot (seriesOf snapshot)) :
    let before := updates.foldl registry.apply registry.new
    let gathered := (registry.publishAndGather before snapshot).1
    (∀ gauge value, (gauge, value) ∈ resourceGauges →
      (gathered.shown gauge).Perm (resourcesShown snapshot gauge value)) ∧
    (∀ gauge value, (gauge, value) ∈ podGauges → (gathered.shown gauge).Perm (podsShown snapshot gauge value)) ∧
    (gathered.shown .pods).Perm
      [⟨.pods, ["running"], Number.ofNat snapshot.running.length⟩,
        ⟨.pods, ["not_ready"], Number.ofNat snapshot.notReady.length⟩,
        ⟨.pods, ["completed"], Number.ofNat snapshot.completed.length⟩] ∧
    (∀ gauge, ((gathered.shown gauge).map (·.values)).Nodup) ∧
    (∀ gauge, ∀ series ∈ gathered.shown gauge,
      (∀ pod, series.labels.lookup "pod" = some pod → pod ∈ snapshot.running.map (·.name)) ∧
      ∀ node, series.labels.lookup "node" = some node → node = snapshot.node) ∧
    (∀ others : List (Update α),
      (registry.publishAndGather (others.foldl registry.apply registry.new) snapshot).1.families = gathered.families) ∧
    gathered.readings = (registry.gather before).readings := by
  intro before gathered
  have only (history : List (Update α)) :
      StagesOnly slot held (history.foldl registry.apply registry.new) :=
    lawful.stagesOnly_updates lawful.stagesOnly_new history
  have shown (gauge : Gauge) : (gathered.shown gauge).Perm ((seriesOf snapshot).filter (·.gauge == gauge)) :=
    lawful.shown_publish names kinds separate (only updates) gauge
  refine ⟨?_, ?_, ?_, ?_, ?_, ?_, ?_⟩
  · intro gauge value listed
    exact filter_resourceGauges snapshot listed ▸ shown gauge
  · intro gauge value listed
    exact filter_podGauges snapshot listed ▸ shown gauge
  · have staged := shown .pods
    rw [filter_pods] at staged
    exact staged
  · intro gauge
    rw [((shown gauge).map _).nodup_iff]
    exact nodup_values (nodup_seriesOf snapshot names kinds) gauge
  · intro gauge series member
    have present := List.mem_of_mem_filter ((shown gauge).mem_iff.mp member)
    exact (labels_of_mem_seriesOf present).2
  · intro others
    refine lawful.families _ _ ?_
    funext gauge key
    refine Option.ext fun series => ?_
    exact (lawful.held_publish names kinds separate (only others) gauge key series).trans
      (lawful.held_publish names kinds separate (only updates) gauge key series).symm
  · have fits : ∀ series ∈ seriesOf snapshot, series.Fits := fun series member => (labels_of_mem_seriesOf member).1
    exact (lawful.readings_sets fits _).trans (lawful.readings_resets _ _)

private def trainer : PodSnapshot Rat :=
  ⟨"trainer", .running, 200, 5, 3, [⟨.gpu, 42, 10, 9, 2⟩, ⟨.cpu, 30, 20, 18, 1⟩]⟩

private def server : PodSnapshot Rat := ⟨"server", .running, 100, 0, 7, [⟨.cpu, 55, 50, 40, 1⟩]⟩

private def earlier : List (Update Rat) :=
  [.publish ⟨"left", 1, [server, trainer], [], []⟩, .measure (.cycle (1 / 500)), .measure (.writeErrors 2)]

/-- The server has completed since, and the node goes by another name. -/
theorem shown_of_updates_renamed :
    let before := earlier.foldl ledger.apply .new
    let gathered := (ledger.publishAndGather before ⟨"right", 2, [trainer], [], [server]⟩).1
    ((ledger.gather before).shown .podQueue).length = 2 ∧
      (gathered.shown .podQueue).Perm [⟨.podQueue, ["trainer", "right"], 5⟩] ∧
      (gathered.shown .resourceLimit).Perm
        [⟨.resourceLimit, ["trainer", "gpu", "right"], 42⟩, ⟨.resourceLimit, ["trainer", "cpu", "right"], 30⟩] ∧
      (gathered.shown .pods).length = 3 ∧ gathered.readings = ⟨1, 0, 0, 2⟩ := by
  intro before gathered
  obtain ⟨resources, pods, stages, -, -, -, readings⟩ := shown_of_updates Ledger.lawful earlier
    ⟨"right", 2, [trainer], [], [server]⟩ (by decide) (by decide) fun _ _ _ _ same => (Prod.mk.inj same).2
  refine ⟨?_, pods .podQueue (·.queue) (by simp [podGauges]), resources .resourceLimit (·.limit) (by simp [resourceGauges]),
    stages.length_eq, ?_⟩
  · refine (congrArg List.length (Ledger.shown_gather before .podQueue)).trans ?_
    rw [(before.family_perm .podQueue).length_eq]
    decide +kernel
  · exact readings.trans (by decide +kernel)

end Metrics
end PodBudget
