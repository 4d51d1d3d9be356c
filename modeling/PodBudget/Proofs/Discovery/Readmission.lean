import PodBudget.Discovery.Scanner
import PodBudget.Proofs.Monitor.Inheritance

/-!
Pods that come back. Discovery knows the names of the last listing, the controller knows which pods it has not seen
completed; a pod that returns is reported anew, and it gets a record of its own where the controller has noticed by then
that it was gone. A clock that counts what happens at the site dates each record by the event at which its pod began to
wait, whatever that event was.
-/
namespace PodBudget.Discovery

variable {σ α : Type} [Number α]

/-- A report that reached the controller. -/
structure Delivery (α : Type) where
  admission : Admission α
  moment : Nat
  live : Bool
  accepted : Bool
  /-- The waiting record of the name right after the report. -/
  record : Option (Pod α)
  deriving DecidableEq

/-- The scanner and the controller of a node, and what the one has reported to the other, the latest first. -/
structure Site (σ α : Type) where
  scanner : Scanner α
  position : Monitor α × Scene σ α
  deliveries : List (Delivery α)
  clock : Nat
  /-- The moment at which the pod of a name last began to wait. -/
  born : String → Option Nat

theorem Scanner.seen_review (scanner : Scanner α) (listing : Listing) {name : String}
    (member : name ∈ (scanner.review listing).2.seen) :
    name ∈ scanner.seen ∨ name ∈ (scanner.review listing).1.map (·.name) := by
  obtain ⟨pod, holds, rfl⟩ := List.mem_map.mp member
  by_cases old : pod.name ∈ scanner.seen
  · exact .inl old
  · have fresh : pod ∈ (scanner.holders listing).filter fun pod => !scanner.seen.contains pod.name :=
      List.mem_filter.mpr ⟨holds, by simpa using old⟩
    exact .inr (List.mem_map.mpr ⟨scanner.grant pod, List.mem_map_of_mem fresh, rfl⟩)

namespace Site

def moveTo (site : Site σ α) (position : Monitor α × Scene σ α) : Site σ α :=
  { site with
    position
    clock := site.clock + 1
    born := fun name =>
      if position.1.notReady.contains name && !site.position.1.notReady.contains name then some site.clock
      else site.born name }

def deliver (site : Site σ α) (admission : Admission α) : Site σ α :=
  let out := site.position.1.enroll admission site.position.2
  let delivery := ⟨admission, site.clock, site.position.1.isLive admission.name, out.1.1,
    out.1.2.notReady.get? admission.name⟩
  { site.moveTo (Monitor.standing out) with deliveries := delivery :: site.deliveries }

/-- What happens at a site: a scan, whose reports are all delivered, a cycle, or a change of the node. -/
inductive Step (σ : Type) where
  | scan (answer : Except ScanFault Listing)
  | cycle (trigger : Trigger) (now : Moment) (arrival : List Sample → List Sample)
  | change (change : σ → σ)

def next (node : Node σ α) (site : Site σ α) : Step σ → Site σ α
  | .scan answer =>
    let out := site.scanner.scan answer
    (out.1.toOption.getD []).foldl deliver { site with scanner := out.2 }
  | .cycle trigger now arrival => site.moveTo (Monitor.perform node site.position (.cycle trigger now arrival))
  | .change change => site.moveTo (site.position.1, { site.position.2 with node := change site.position.2.node })

def fresh (scanner : Scanner α) (monitor : Monitor α) (state : σ) : Site σ α :=
  ⟨scanner, (monitor, ⟨state, []⟩), [], 0, fun _ => none⟩

def latest (site : Site σ α) (name : String) : Option (Delivery α) :=
  site.deliveries.find? (·.admission.name == name)

/-- The report that the record of a name was made at: the most recent that was accepted. -/
def origin (site : Site σ α) (name : String) : Option (Delivery α) :=
  site.deliveries.find? fun delivery => delivery.admission.name == name && delivery.accepted

/-- The deliveries account for the records of the controller: each record is that of the last report of its name that was
accepted, and began to wait there. -/
structure Accounted (site : Site σ α) : Prop where
  staged : site.position.1.Staged
  answered : ∀ delivery ∈ site.deliveries, delivery.accepted = !delivery.live
  recorded : ∀ delivery ∈ site.deliveries, delivery.accepted = true →
    delivery.record = some (Monitor.admitted delivery.admission)
  timed : ∀ delivery ∈ site.deliveries, delivery.moment < site.clock
  ordered : site.deliveries.Pairwise fun later earlier => earlier.moment < later.moment
  tracked : ∀ delivery ∈ site.deliveries, delivery.admission.name ∈ site.position.1.tracked
  granted : ∀ name pod, site.position.1.Records name pod → ∃ origin, site.origin name = some origin ∧
    site.born name = some origin.moment ∧ pod.reservation = origin.admission.reservation

def Reported (site : Site σ α) : Prop :=
  ∀ name ∈ site.scanner.seen, name ∈ site.deliveries.map (·.admission.name)

theorem accounted_fresh (scanner : Scanner α) (config : MonitorConfig α) (health : Option Health) (now : Nat)
    (state : σ) : (fresh scanner (.new config health now) state).Accounted where
  staged := Monitor.staged_new config health now
  answered _ member := absurd member List.not_mem_nil
  recorded _ member := absurd member List.not_mem_nil
  timed _ member := absurd member List.not_mem_nil
  ordered := .nil
  tracked _ member := absurd member List.not_mem_nil
  granted name _ found := by
    rcases found with waiting | running | completed
    · exact absurd ((Roster.get?_empty name).symm.trans waiting) nofun
    · exact absurd ((Roster.get?_empty name).symm.trans running) nofun
    · exact absurd ((Roster.get?_empty name).symm.trans completed) nofun

omit [Number α] in
theorem begins_iff {before after : Monitor α} {name : String} :
    (after.notReady.contains name && !before.notReady.contains name) = true ↔
      name ∈ after.notReady.names ∧ name ∉ before.notReady.names := by
  rw [Bool.and_eq_true, Bool.not_eq_true', Bool.eq_false_iff, Roster.contains_iff, ne_eq, Roster.contains_iff]

omit [Number α] in
theorem born_moveTo {site : Site σ α} {position : Monitor α × Scene σ α} {name : String}
    (waiting : ∀ pod, position.1.notReady.get? name = some pod → ∃ old, site.position.1.notReady.get? name = some old) :
    (site.moveTo position).born name = site.born name := by
  refine if_neg fun begins => ?_
  obtain ⟨after, before⟩ := begins_iff.mp begins
  obtain ⟨pod, found⟩ := (Roster.mem_names_iff ..).mp after
  exact before ((Roster.mem_names_iff ..).mpr (waiting pod found))

section

variable {site : Site σ α} (accounted : site.Accounted)
include accounted

theorem accounted_moveTo {position : Monitor α × Scene σ α} (staged : position.1.Staged)
    (kept : site.position.1.tracked ⊆ position.1.tracked) (inherits : Monitor.Inherits site.position.1 position.1) :
    (site.moveTo position).Accounted where
  staged := staged
  answered := accounted.answered
  recorded := accounted.recorded
  timed delivery member := Nat.lt_succ_of_lt (accounted.timed delivery member)
  ordered := accounted.ordered
  tracked delivery member := kept (accounted.tracked delivery member)
  granted name pod found := by
    obtain ⟨old, present, same⟩ := inherits.record name pod found
    obtain ⟨origin, known, born, equal⟩ := accounted.granted name old present
    refine ⟨origin, known, ?_, same.trans equal⟩
    rw [born_moveTo fun pod waits => ⟨pod, inherits.waiting name pod waits⟩, born]

/-- What has to hold of one more report, and of the position it leads to. -/
theorem accounted_report {position : Monitor α × Scene σ α} {delivery : Delivery α} (staged : position.1.Staged)
    (kept : site.position.1.tracked ⊆ position.1.tracked) (moment : delivery.moment = site.clock)
    (answer : delivery.accepted = !delivery.live)
    (record : delivery.accepted = true → delivery.record = some (Monitor.admitted delivery.admission))
    (tracked : delivery.admission.name ∈ position.1.tracked)
    (granted : ∀ name pod, position.1.Records name pod → ∃ origin,
      Site.origin { site.moveTo position with deliveries := delivery :: site.deliveries } name = some origin ∧
        (site.moveTo position).born name = some origin.moment ∧ pod.reservation = origin.admission.reservation) :
    Accounted { site.moveTo position with deliveries := delivery :: site.deliveries } where
  staged := staged
  answered := List.forall_mem_cons.mpr ⟨answer, accounted.answered⟩
  recorded := List.forall_mem_cons.mpr ⟨record, accounted.recorded⟩
  timed := by
    refine List.forall_mem_cons.mpr ⟨?_, fun other member => Nat.lt_succ_of_lt (accounted.timed other member)⟩
    exact moment ▸ Nat.lt_succ_self _
  ordered := List.pairwise_cons.mpr ⟨moment ▸ accounted.timed, accounted.ordered⟩
  tracked := List.forall_mem_cons.mpr ⟨tracked, fun other member => kept (accounted.tracked other member)⟩
  granted := granted

variable {admission : Admission α}

theorem accounted_of_live (live : site.position.1.isLive admission.name = true) :
    (site.deliver admission).Accounted := by
  have out := Monitor.enroll_of_live site.position.1 admission site.position.2 live
  have moved : (site.moveTo site.position).Accounted :=
    accounted_moveTo accounted accounted.staged (List.Subset.refl _) (.refl _)
  simp only [deliver, out, live, Monitor.standing]
  refine accounted_report accounted accounted.staged (List.Subset.refl _) rfl rfl nofun ?_ ?_
  · exact List.mem_append_left _ (List.mem_append.mpr ((Monitor.isLive_iff ..).mp live))
  · intro name pod found
    obtain ⟨origin, known, same⟩ := moved.granted name pod found
    refine ⟨origin, ?_, same⟩
    rw [Site.origin, List.find?_cons_of_neg (by simp)]
    exact known

theorem accounted_of_free (free : ¬ site.position.1.isLive admission.name = true) :
    (site.deliver admission).Accounted := by
  have out := Monitor.enroll_of_free site.position.1 admission site.position.2 free
  have entered : (site.position.1.taking admission).notReady.get? admission.name = some (Monitor.admitted admission) :=
    (Roster.get?_insert ..).trans (if_pos rfl)
  simp only [deliver, out, free, Monitor.standing]
  refine accounted_report accounted (Monitor.staged_taking free accounted.staged) (Monitor.subset_taking free) rfl rfl
    (fun _ => entered) ?_ ?_
  · exact (Monitor.mem_tracked_iff _ _).mpr ⟨Monitor.admitted admission, .inl entered⟩
  · intro name pod found
    have record := Monitor.records_taking free found
    by_cases same : admission.name = name
    · subst same
      rw [if_pos rfl] at record
      refine ⟨_, List.find?_cons_of_pos (by simp), ?_, record⟩
      have absent := (not_or.mp ((Monitor.isLive_iff ..).not.mp free)).1
      have here := (Roster.mem_names_iff ..).mpr ⟨_, entered⟩
      exact if_pos (begins_iff.mpr ⟨here, absent⟩)
    · rw [if_neg same] at record
      obtain ⟨origin, known, born, equal⟩ := accounted.granted name pod record
      refine ⟨origin, ?_, ?_, equal⟩
      · rw [Site.origin, List.find?_cons_of_neg (by simp [same])]
        exact known
      · refine (born_moveTo fun pod waits => ⟨pod, ?_⟩).trans born
        exact ((Roster.get?_insert ..).trans (if_neg same)).symm.trans waits

end

theorem accounted_deliverAll {site : Site σ α} (accounted : site.Accounted) (admissions : List (Admission α)) :
    (admissions.foldl deliver site).Accounted := by
  induction admissions generalizing site with
  | nil => exact accounted
  | cons admission rest ih =>
    apply ih
    by_cases live : site.position.1.isLive admission.name = true
    · exact accounted_of_live accounted live
    · exact accounted_of_free accounted live

theorem accounted_next {site : Site σ α} (accounted : site.Accounted) (node : Node σ α) (step : Step σ) :
    (site.next node step).Accounted := by
  cases step with
  | scan answer =>
    apply accounted_deliverAll
    exact { accounted with }
  | cycle trigger now arrival =>
    have moves := Monitor.moves_cycle node site.position.1 site.position.2 trigger now arrival
    obtain ⟨staged, kept, -⟩ := Monitor.sound_of_moves moves accounted.staged
    exact accounted_moveTo accounted staged kept.symm.subset (Monitor.inherits_of_moves moves accounted.staged)
  | change change => exact accounted_moveTo accounted accounted.staged (List.Subset.refl _) (.refl _)

omit [Number α] in
theorem reported_fresh (resource : String) (tokensPerDevice : α) (monitor : Monitor α) (state : σ) :
    (fresh (.new resource tokensPerDevice) monitor state).Reported :=
  fun _ member => absurd member List.not_mem_nil

theorem reported_deliverAll {site : Site σ α} (admissions : List (Admission α))
    (known : ∀ name ∈ site.scanner.seen,
      name ∈ site.deliveries.map (·.admission.name) ∨ name ∈ admissions.map (·.name)) :
    (admissions.foldl deliver site).Reported := by
  induction admissions generalizing site with
  | nil => simpa [Reported] using known
  | cons admission rest ih =>
    apply ih
    intro name member
    have either := known name member
    simp only [deliver, List.map_cons, List.mem_cons] at either ⊢
    rcases either with old | rfl | late
    · exact .inl (.inr old)
    · exact .inl (.inl rfl)
    · exact .inr late

theorem reported_next {site : Site σ α} (reported : site.Reported) (node : Node σ α) (step : Step σ) :
    (site.next node step).Reported := by
  cases step with
  | scan answer =>
    apply reported_deliverAll
    cases answer with
    | error fault => exact fun name member => .inl (reported name member)
    | ok listing =>
      intro name member
      exact (Scanner.seen_review site.scanner listing member).imp_left (reported name)
  | cycle trigger now arrival => exact reported
  | change change => exact reported

omit [Number α] in
/-- The most recent report of a name made the name's record, if it was accepted. -/
theorem origin_of_latest {site : Site σ α} {name : String} {report : Delivery α}
    (latest : site.latest name = some report) (accepted : report.accepted = true) : site.origin name = some report := by
  obtain ⟨named, later, earlier, whole, others⟩ := List.find?_eq_some_iff_append.mp latest
  refine List.find?_eq_some_iff_append.mpr ⟨by simp only [named, accepted, Bool.and_self], later, earlier, whole, ?_⟩
  intro delivery member
  have other := others delivery member
  simp only [Bool.not_eq_true'] at other ⊢
  rw [other, Bool.false_and]

/-- The name's only record began to wait at the most recent report, as a fresh record, or else at an earlier one, from which
it stood in the way of the most recent. -/
structure Current (site : Site σ α) (name : String) (report origin : Delivery α) : Prop where
  last : site.latest name = some report
  made : site.origin name = some origin
  answer : report.accepted = !report.live
  dates : origin = report ↔ report.live = false
  earlier : report.live = true → origin.moment < report.moment
  record : origin.record = some (Monitor.admitted origin.admission)
  once : site.position.1.tracked.count name = 1
  born : site.born name = some origin.moment
  granted : ∀ pod, site.position.1.Records name pod → pod.reservation = origin.admission.reservation

omit [Number α] in
theorem origin_eq_or_lt {site : Site σ α}
    (ordered : site.deliveries.Pairwise fun later earlier => earlier.moment < later.moment) {name : String}
    {report origin : Delivery α} (latest : site.latest name = some report) (dated : site.origin name = some origin) :
    origin = report ∨ origin.moment < report.moment := by
  obtain ⟨-, later, earlier, whole, others⟩ := List.find?_eq_some_iff_append.mp latest
  have accepted := List.find?_some dated
  have member := List.mem_of_find?_eq_some dated
  rw [Bool.and_eq_true] at accepted
  rw [whole] at member ordered
  rcases List.mem_append.mp member with before | after
  · exact absurd accepted.1 (by simpa using others origin before)
  · rcases List.mem_cons.mp after with same | old
    · exact .inl same
    · exact .inr ((List.pairwise_cons.mp (List.pairwise_append.mp ordered).2.1).1 origin old)

theorem current_of_mem_seen {site : Site σ α} (accounted : site.Accounted) (reported : site.Reported) {name : String}
    (member : name ∈ site.scanner.seen) : ∃ report origin, site.Current name report origin := by
  obtain ⟨delivery, delivered, same⟩ := List.mem_map.mp (reported name member)
  have found : site.latest name ≠ none := by
    intro absent
    exact List.find?_eq_none.mp absent delivery delivered (beq_iff_eq.mpr same)
  obtain ⟨report, latest⟩ := Option.ne_none_iff_exists'.mp found
  have known : name ∈ site.position.1.tracked := same ▸ accounted.tracked delivery delivered
  obtain ⟨pod, record⟩ := (Monitor.mem_tracked_iff ..).mp known
  obtain ⟨origin, dated, born, -⟩ := accounted.granted name pod record
  have answer := accounted.answered report (List.mem_of_find?_eq_some latest)
  have accepted : origin.accepted = true := (Bool.and_eq_true .. ▸ List.find?_some dated).2
  have dates : origin = report ↔ report.live = false := by
    constructor
    · rintro rfl
      rw [answer, Bool.not_eq_true'] at accepted
      exact accepted
    · intro idle
      have taken : report.accepted = true := by rw [answer, idle]; rfl
      exact Option.some.inj (dated.symm.trans (origin_of_latest latest taken))
  refine ⟨report, origin, latest, dated, answer, dates, ?_, ?_, ?_, born, ?_⟩
  · intro live
    refine (origin_eq_or_lt accounted.ordered latest dated).resolve_left fun same => ?_
    rw [dates.mp same] at live
    cases live
  · exact accounted.recorded origin (List.mem_of_find?_eq_some dated) accepted
  · exact List.count_eq_one_of_mem accounted.staged.distinct known
  · intro other found
    obtain ⟨again, granted, -, same⟩ := accounted.granted name other found
    rw [dated] at granted
    rw [same, Option.some.inj granted]

end Site

open Site in
/-- However scans and cycles follow on one another, each pod that the scanner remembers has a record at the controller.
The record was made at the most recent report of the pod, fresh and waiting, unless the controller had at that report an
older one that was still waiting or running; then it is that one. -/
theorem current_of_run (node : Node σ α) (resource : String) (tokensPerDevice : α) (config : MonitorConfig α)
    (health : Option Health) (now : Nat) (state : σ) (steps : List (Step σ)) :
    let site := steps.foldl (next node) (fresh (.new resource tokensPerDevice) (.new config health now) state)
    ∀ name ∈ site.scanner.seen, ∃ report origin, site.Current name report origin := by
  have kept : ∀ site : Site σ α, site.Accounted ∧ site.Reported →
      (steps.foldl (next node) site).Accounted ∧ (steps.foldl (next node) site).Reported := by
    induction steps with
    | nil => exact fun _ => id
    | cons step rest ih =>
      exact fun site sound => ih _ ⟨accounted_next sound.1 node step, reported_next sound.2 node step⟩
  intro site name member
  obtain ⟨accounted, reported⟩ := kept _ ⟨accounted_fresh .., reported_fresh resource tokensPerDevice _ state⟩
  exact current_of_mem_seen accounted reported member

def wavering : Node Bool Rat where
  resolve here pod := (if here then some ⟨pod, pod⟩ else none, here)
  read here handle := (if here then .ok ⟨0, 0⟩ else .error (.missing handle.path), here)
  write here _ _ := (.ok (), here)
  rebalance here := (.ok (), here)

private def returning (tokens : List String) : ListedPod :=
  ⟨"web-0", "", [⟨"main", [⟨"token", tokens⟩], []⟩]⟩

private def opening : Site Bool Rat :=
  .fresh (.new "token" 100) (.new ⟨"node", 1000000000, false, .default⟩ none 0) true

private def noticed : List (Site.Step Bool) :=
  [.scan (.ok [returning ["0", "1"]]), .cycle .tick ⟨0, 0⟩ id, .change fun _ => false, .scan (.ok []),
    .cycle .tick ⟨1000000000, 1⟩ id, .scan (.ok [returning ["2"]])]

theorem current_of_run_noticed :
    let site := noticed.foldl (Site.next wavering) opening
    let report : Delivery Rat := ⟨⟨"web-0", 100⟩, 4, false, true, some (Monitor.admitted ⟨"web-0", 100⟩)⟩
    "web-0" ∈ site.scanner.seen ∧ site.Current "web-0" report report := by
  intro site report
  have seen : "web-0" ∈ site.scanner.seen := by decide +kernel
  have latest : site.latest "web-0" = some report := by decide +kernel
  obtain ⟨last, origin, current⟩ := current_of_run wavering "token" 100 _ none 0 true noticed "web-0" seen
  obtain rfl := Option.some.inj (latest.symm.trans current.last)
  obtain rfl := current.dates.mpr rfl
  exact ⟨seen, current⟩

/-- The pod leaves and is back before a cycle notices. Its new grant is lost, and once a cycle has noticed, all that the
controller has of the listed pod is the completed record of its former grant. -/
private def unnoticed : List (Site.Step Bool) :=
  [.scan (.ok [returning ["0", "1"]]), .cycle .tick ⟨0, 0⟩ id, .change fun _ => false, .scan (.ok []),
    .scan (.ok [returning ["2"]]), .cycle .tick ⟨1000000000, 1⟩ id]

theorem completed_of_unnoticed :
    let site := unnoticed.foldl (Site.next wavering) opening
    "web-0" ∈ site.scanner.seen ∧ site.position.1.isLive "web-0" = false ∧
      (site.position.1.completed.get? "web-0").map (·.reservation) = some 200 ∧ site.born "web-0" = some 0 ∧
      site.latest "web-0" = some ⟨⟨"web-0", 100⟩, 3, true, false, none⟩ := by
  decide +kernel

end PodBudget.Discovery
