import PodBudget.Proofs.Discovery.Presence
import PodBudget.Proofs.Monitor.Admission

/-!
Pods of one name. A listing may hold several of them, from different domains, and a scan looks each up in the listing
before; so it reports all of them. The controller has one record for a name: it takes in the first and refuses the
others.
-/
namespace PodBudget

variable {σ α : Type} [Number α]

namespace Monitor

/-- Takes pods in one after another, and notes which of them were accepted. -/
def enrollEach (monitor : Monitor α) : List (Admission α) → Dealing σ α (List Bool × Monitor α)
  | [] => return ([], monitor)
  | admission :: rest => do
    let (accepted, monitor) ← monitor.enroll admission
    let (answers, monitor) ← monitor.enrollEach rest
    return (accepted :: answers, monitor)

theorem enrollEach_cons (monitor : Monitor α) (admission : Admission α) (rest : List (Admission α))
    (scene : Scene σ α) :
    let first := monitor.enroll admission scene
    let later := first.1.2.enrollEach rest first.2
    monitor.enrollEach (admission :: rest) scene = ((first.1.1 :: later.1.1, later.1.2), later.2) := rfl

theorem answer_enroll (monitor : Monitor α) (admission : Admission α) (scene : Scene σ α) :
    (monitor.enroll admission scene).1.1 = !monitor.isLive admission.name := by
  by_cases live : monitor.isLive admission.name = true
  · rw [enroll_of_live monitor admission scene live, live]
    rfl
  · rw [enroll_of_free monitor admission scene live, Bool.eq_false_iff.mpr live]
    rfl

theorem isLive_enroll (monitor : Monitor α) (admission : Admission α) (scene : Scene σ α) (name : String) :
    (monitor.enroll admission scene).1.2.isLive name = (monitor.isLive name || admission.name == name) := by
  by_cases live : monitor.isLive admission.name = true
  · rw [enroll_of_live monitor admission scene live]
    by_cases same : admission.name = name
    · rw [← same, live]
      rfl
    · simp [same]
  · rw [enroll_of_free monitor admission scene live]
    by_cases same : admission.name = name <;> simp [isLive, taking, Roster.contains, Roster.get?_insert, same]

theorem notReady_enroll_of_live (monitor : Monitor α) (admission : Admission α) (scene : Scene σ α) {name : String}
    (live : monitor.isLive name = true) :
    (monitor.enroll admission scene).1.2.notReady.get? name = monitor.notReady.get? name := by
  by_cases taken : monitor.isLive admission.name = true
  · rw [enroll_of_live monitor admission scene taken]
  · have differs : admission.name ≠ name := fun same => taken (same ▸ live)
    rw [enroll_of_free monitor admission scene taken, taking, Roster.get?_insert, if_neg differs]

theorem notReady_enrollEach_of_live (monitor : Monitor α) (admissions : List (Admission α)) (scene : Scene σ α)
    {name : String} (live : monitor.isLive name = true) :
    (monitor.enrollEach admissions scene).1.2.notReady.get? name = monitor.notReady.get? name := by
  induction admissions generalizing monitor scene with
  | nil => rfl
  | cons admission rest ih =>
    have still : (monitor.enroll admission scene).1.2.isLive name = true := by rw [isLive_enroll, live, Bool.true_or]
    rw [enrollEach_cons, ih _ _ still, notReady_enroll_of_live monitor admission scene live]

theorem length_enrollEach (monitor : Monitor α) (admissions : List (Admission α)) (scene : Scene σ α) :
    (monitor.enrollEach admissions scene).1.1.length = admissions.length := by
  induction admissions generalizing monitor scene with
  | nil => rfl
  | cons admission rest ih => exact congrArg (· + 1) (ih _ _)

theorem getElem?_enrollEach (monitor : Monitor α) (admissions : List (Admission α)) (scene : Scene σ α) {number : Nat}
    {admission : Admission α} (given : admissions[number]? = some admission) :
    (monitor.enrollEach admissions scene).1.1[number]? =
      some (!monitor.isLive admission.name && decide (admission.name ∉ (admissions.take number).map (·.name))) := by
  induction admissions generalizing monitor scene number with
  | nil => cases given
  | cons first rest ih =>
    rw [enrollEach_cons]
    cases number with
    | zero =>
      cases given
      simp [answer_enroll]
    | succ number =>
      have later := ih (monitor.enroll first scene).1.2 (monitor.enroll first scene).2 given
      rw [isLive_enroll] at later
      by_cases same : first.name = admission.name
      · simpa [same] using later
      · have differs : (first.name == admission.name) = false := by simpa using same
        rw [differs, Bool.or_false] at later
        simpa [Ne.symm same] using later

theorem isFresh_enrollEach (monitor : Monitor α) (admissions : List (Admission α)) (scene : Scene σ α) {name : String}
    (free : ¬ monitor.isLive name = true) {admission : Admission α}
    (first : admissions.find? (·.name == name) = some admission) :
    ∃ pod, (monitor.enrollEach admissions scene).1.2.notReady.get? name = some pod ∧ IsFresh admission pod := by
  induction admissions generalizing monitor scene with
  | nil => cases first
  | cons head rest ih =>
    rw [enrollEach_cons]
    by_cases same : head.name = name
    · rw [List.find?_cons_of_pos (by simpa using same)] at first
      obtain rfl : head = admission := Option.some.inj first
      subst same
      have live : (monitor.enroll head scene).1.2.isLive head.name = true := by simp [isLive_enroll]
      rw [notReady_enrollEach_of_live _ _ _ live]
      have absent := not_or.mp ((isLive_iff monitor head.name).not.mp free)
      exact ((admits monitor scene head).2 absent).2.1
    · rw [List.find?_cons_of_neg (by simpa using same)] at first
      exact ih _ _ (by simpa [isLive_enroll, same] using free) first

end Monitor

namespace Discovery

def Listing.namesakes (listing : Listing) (resource name : String) : Listing :=
  listing.filter fun pod => pod.name = name ∧ pod.Holds resource

theorem Scanner.count_review (scanner : Scanner α) (listing : Listing) (name : String) :
    ((scanner.review listing).1.map (·.name)).count name =
      if name ∈ scanner.seen then 0 else (listing.namesakes scanner.resource name).length := by
  have names : (scanner.review listing).1.map (·.name) =
      ((scanner.holders listing).filter fun pod => !scanner.seen.contains pod.name).map (·.name) := by
    rw [review, List.map_map]
    rfl
  rw [names, holders, List.filter_filter, List.count, List.countP_map, List.countP_filter, Listing.namesakes,
    ← List.countP_eq_length_filter]
  split
  · next seen =>
    refine List.countP_eq_zero.mpr fun pod _ => ?_
    simp only [Function.comp_apply, Bool.and_eq_true, beq_iff_eq, Bool.not_eq_true', not_and]
    rintro rfl
    simp [seen]
  · next fresh =>
    refine List.countP_congr fun pod _ => ?_
    simp only [Function.comp_apply, Bool.and_eq_true, beq_iff_eq, Bool.not_eq_true', bne_iff_ne, decide_eq_true_eq,
      ListedPod.count_ne_zero_iff]
    constructor
    · rintro ⟨rfl, _, holds⟩
      exact ⟨rfl, holds⟩
    · rintro ⟨rfl, holds⟩
      exact ⟨rfl, by simpa using fresh, holds⟩

omit [Number α] in
theorem nodup_iff_not_mem_take {β : Type} {items : List β} :
    items.Nodup ↔ ∀ (number : Nat) item, items[number]? = some item → item ∉ items.take number := by
  constructor
  · intro distinct number item given before
    have later : item ∈ items.drop number := List.mem_iff_getElem?.mpr ⟨0, by simpa using given⟩
    rw [← List.take_append_drop number items] at distinct
    exact (List.nodup_append.mp distinct).2.2 item before item later rfl
  · intro fresh
    refine List.pairwise_iff_getElem.mpr fun i j low high before same => ?_
    refine fresh j items[j] (List.getElem?_eq_getElem high) (List.mem_take_iff_getElem.mpr ⟨i, ?_, same⟩)
    omega

/-- A name that was not seen before is reported once for each pod of the listing that holds devices under it; so the
reports differ in their names exactly if there is no name of two such pods. Where none of the names is taken, the
controller accepts the first report of a name, whose record it makes, and refuses the others. -/
theorem accepted_of_reports (scanner : Scanner α) (listing : Listing) :
    let reports := (scanner.review listing).1
    (∀ name, (reports.map (·.name)).count name =
        if name ∈ scanner.seen then 0 else (listing.namesakes scanner.resource name).length) ∧
      ((reports.map (·.name)).Nodup ↔
        ∀ name, name ∉ scanner.seen → (listing.namesakes scanner.resource name).length ≤ 1) ∧
      ∀ (monitor : Monitor α) (scene : Scene σ α), (∀ report ∈ reports, ¬ monitor.isLive report.name = true) →
        let out := (monitor.enrollEach reports scene).1
        (∀ number report, reports[number]? = some report →
          out.1[number]? = some (decide (report.name ∉ (reports.take number).map (·.name)))) ∧
        ((∀ answer ∈ out.1, answer = true) ↔ (reports.map (·.name)).Nodup) ∧
        ∀ name report, reports.find? (·.name == name) = some report →
          ∃ pod, out.2.notReady.get? name = some pod ∧ Monitor.IsFresh report pod := by
  intro reports
  refine ⟨scanner.count_review listing, ?_, ?_⟩
  · rw [List.nodup_iff_count]
    constructor
    · intro once name fresh
      have count := once name
      rwa [scanner.count_review, if_neg fresh] at count
    · intro alone name
      rw [scanner.count_review]
      split
      · exact Nat.zero_le 1
      · next fresh => exact alone name fresh
  · intro monitor scene free out
    have answers (number : Nat) (report : Admission α) (given : reports[number]? = some report) :
        out.1[number]? = some (decide (report.name ∉ (reports.take number).map (·.name))) := by
      have untaken := Bool.eq_false_iff.mpr (free report (List.mem_of_getElem? given))
      have answer := monitor.getElem?_enrollEach reports scene given
      rwa [untaken, Bool.not_false, Bool.true_and] at answer
    refine ⟨answers, ?_, ?_⟩
    · rw [nodup_iff_not_mem_take]
      constructor
      · intro accepted number name given
        rw [List.getElem?_map] at given
        obtain ⟨report, here, rfl⟩ := Option.map_eq_some_iff.mp given
        have answer := accepted _ (List.mem_of_getElem? (answers number report here))
        rw [← List.map_take]
        exact of_decide_eq_true answer
      · intro fresh answer member
        obtain ⟨number, here⟩ := List.mem_iff_getElem?.mp member
        have inside : number < reports.length := by
          rw [← monitor.length_enrollEach reports scene]
          exact (List.getElem?_eq_some_iff.mp here).1
        have given := List.getElem?_eq_getElem inside
        have new := fresh number reports[number].name (by rw [List.getElem?_map, given]; rfl)
        rw [← List.map_take] at new
        obtain rfl := Option.some.inj ((answers number _ given).symm.trans here)
        exact decide_eq_true new
    · intro name report first
      have member := List.mem_of_find?_eq_some first
      have named : report.name = name := by simpa using List.find?_some first
      exact monitor.isFresh_enrollEach reports scene (named ▸ free report member) first

/-- Pods of one name from two domains, which hold a device each, and a pod that was there before. -/
private def twins : Listing :=
  [⟨"web", "left", [⟨"main", [⟨"token", ["0"]⟩], []⟩]⟩, ⟨"db", "left", [⟨"main", [⟨"token", ["1"]⟩], []⟩]⟩,
    ⟨"web", "right", [⟨"main", [⟨"port", ["9"]⟩, ⟨"token", ["2"]⟩], []⟩]⟩]

private def watcher : Scanner Rat := ⟨"token", 100, ["db"]⟩

private def vacant : Monitor Rat := .new ⟨"node", 1000000000, false, .default⟩ none 0

theorem accepted_of_reports_twins :
    (∀ report ∈ (watcher.review twins).1, ¬ vacant.isLive report.name = true) ∧
      ((watcher.review twins).1.map (·.name)).count "web" = 2 ∧ ((watcher.review twins).1.map (·.name)).count "db" = 0 ∧
      (vacant.enrollEach (watcher.review twins).1 (⟨(), []⟩ : Scene Unit Rat)).1.1[1]? = some false ∧
      ∃ pod, (vacant.enrollEach (watcher.review twins).1 (⟨(), []⟩ : Scene Unit Rat)).1.2.notReady.get? "web" =
        some pod ∧ Monitor.IsFresh ⟨"web", 100⟩ pod := by
  obtain ⟨counts, _, delivered⟩ := accepted_of_reports (σ := Unit) watcher twins
  have free : ∀ report ∈ (watcher.review twins).1, ¬ vacant.isLive report.name = true := by decide +kernel
  obtain ⟨answers, _, records⟩ := delivered vacant ⟨(), []⟩ free
  have web := counts "web"
  have db := counts "db"
  refine ⟨free, web.trans (by decide +kernel), db.trans (by decide +kernel), ?_, ?_⟩
  · exact (answers 1 ⟨"web", 100⟩ (by decide +kernel)).trans (by decide +kernel)
  · exact records "web" ⟨"web", 100⟩ (by decide +kernel)

/-- One scan reports a name twice, and the controller refuses the second report. -/
theorem refused_of_twins :
    ¬ ((watcher.review twins).1.map (·.name)).Nodup ∧
      (vacant.enrollEach (watcher.review twins).1 (⟨(), []⟩ : Scene Unit Rat)).1.1 = [true, false] := by
  decide +kernel

end Discovery
end PodBudget
