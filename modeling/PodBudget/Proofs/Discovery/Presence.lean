import Mathlib.Algebra.Ring.Nat
import PodBudget.Discovery.Scanner

/-!
What scan after scan reports. The scanner keeps no more than the names of the last listing, and that is enough: a
pod is reported where it starts to hold devices, and for as long as it holds some it is not reported again.
-/
namespace PodBudget.Discovery

def ListedPod.Holds (pod : ListedPod) (resource : String) : Prop :=
  ∃ container ∈ pod.containers, ∃ devices ∈ container.devices, devices.resource = resource ∧ devices.ids ≠ []

instance (pod : ListedPod) (resource : String) : Decidable (pod.Holds resource) :=
  inferInstanceAs (Decidable (∃ _ ∈ _, _))

def Listing.Has (listing : Listing) (resource name : String) : Prop :=
  ∃ pod ∈ listing, pod.name = name ∧ pod.Holds resource

instance (listing : Listing) (resource name : String) : Decidable (listing.Has resource name) :=
  inferInstanceAs (Decidable (∃ _ ∈ _, _))

/-- Devices of a resource that a pod holds, entry by entry of each of its containers. -/
def ListedPod.devices (pod : ListedPod) (resource : String) : Nat :=
  (pod.containers.map fun container =>
    (container.devices.map fun devices => if devices.resource = resource then devices.ids.length else 0).sum).sum

theorem ListedPod.count_eq_devices (pod : ListedPod) (resource : String) :
    pod.count resource = pod.devices resource := by
  have entries (held : List Devices) :
      ((held.filter (·.resource == resource)).flatMap (·.ids)).length =
        (held.map fun devices => if devices.resource = resource then devices.ids.length else 0).sum := by
    induction held with
    | nil => rfl
    | cons devices held ih =>
      by_cases same : devices.resource = resource
      · simp [same, ih]
      · simp [same, ih]
  unfold count devices
  induction pod.containers with
  | nil => rfl
  | cons container containers ih =>
    rw [List.flatMap_cons, List.filter_append, List.flatMap_append, List.length_append, entries, ih, List.map_cons,
      List.sum_cons]

theorem ListedPod.count_ne_zero_iff (pod : ListedPod) (resource : String) :
    pod.count resource ≠ 0 ↔ pod.Holds resource := by
  rw [count, Ne, List.length_eq_zero_iff, List.flatMap_eq_nil_iff]
  simp only [List.mem_filter, List.mem_flatMap, beq_iff_eq, Holds, Classical.not_forall]
  constructor
  · rintro ⟨devices, ⟨⟨container, inside, entry⟩, same⟩, some⟩
    exact ⟨container, inside, devices, entry, same, some⟩
  · rintro ⟨container, inside, devices, entry, same, some⟩
    exact ⟨devices, ⟨⟨container, inside, entry⟩, same⟩, some⟩

variable {α : Type} [Number α]

/-- What is reported of a listing after another: the pods that hold devices and held none before. -/
def news (resource : String) (tokensPerDevice : α) (before listing : Listing) : List (Admission α) :=
  (listing.filter fun pod => pod.Holds resource ∧ ¬ before.Has resource pod.name).map fun pod =>
    ⟨pod.name, Number.ofNat (pod.devices resource) * tokensPerDevice⟩

def found {ε β : Type} (answers : List (Except ε β)) : List β := answers.filterMap Except.toOption

theorem found_ok {ε β : Type} (result : β) (answers : List (Except ε β)) :
    found (.ok result :: answers) = result :: found answers := rfl

namespace Scanner

def after (scanner : Scanner α) (answers : List (Except ScanFault Listing)) : Scanner α :=
  answers.foldl (fun scanner answer => (scanner.scan answer).2) scanner

def outcomes (scanner : Scanner α) : List (Except ScanFault Listing) → List (Except ScanFault (List (Admission α)))
  | [] => []
  | answer :: answers => (scanner.scan answer).1 :: (scanner.scan answer).2.outcomes answers

/-- The names in the scanner's memory are those that held devices in the listing. -/
def Recalls (scanner : Scanner α) (listing : Listing) : Prop :=
  ∀ name, name ∈ scanner.seen ↔ listing.Has scanner.resource name

omit [Number α] in
theorem recalls_new (resource : String) (tokensPerDevice : α) : (new resource tokensPerDevice).Recalls [] := by
  simp [Recalls, new, Listing.Has]

theorem recalls_review (scanner : Scanner α) (listing : Listing) : (scanner.review listing).2.Recalls listing := by
  intro name
  simp only [review, holders, List.mem_map, List.mem_filter, bne_iff_ne, ListedPod.count_ne_zero_iff, Listing.Has]
  constructor
  · rintro ⟨pod, ⟨listed, holds⟩, same⟩
    exact ⟨pod, listed, same, holds⟩
  · rintro ⟨pod, listed, same, holds⟩
    exact ⟨pod, ⟨listed, holds⟩, same⟩

theorem Recalls.review_fst {scanner : Scanner α} {before : Listing} (recalls : scanner.Recalls before)
    (listing : Listing) :
    (scanner.review listing).1 = news scanner.resource scanner.tokensPerDevice before listing := by
  have grants : scanner.grant = fun pod =>
      ⟨pod.name, Number.ofNat (pod.devices scanner.resource) * scanner.tokensPerDevice⟩ := by
    funext pod
    rw [grant, pod.count_eq_devices]
  have fresh : ((scanner.holders listing).filter fun pod => !scanner.seen.contains pod.name) =
      listing.filter fun pod => pod.Holds scanner.resource ∧ ¬ before.Has scanner.resource pod.name := by
    rw [holders, List.filter_filter]
    apply List.filter_congr
    intro pod _
    rw [Bool.eq_iff_iff]
    simp only [Bool.and_eq_true, Bool.not_eq_true', List.contains_eq_mem, decide_eq_false_iff_not, recalls pod.name,
      bne_iff_ne, pod.count_ne_zero_iff, decide_eq_true_eq, and_comm]
  rw [news, ← fresh, ← grants]
  rfl

/-- A run of scans reports of each listing what is new since the listing before, failures in between or not. -/
theorem Recalls.found_outcomes {scanner : Scanner α} {before : Listing} (recalls : scanner.Recalls before)
    (answers : List (Except ScanFault Listing)) :
    found (scanner.outcomes answers) =
      List.zipWith (news scanner.resource scanner.tokensPerDevice) (before :: found answers) (found answers) := by
  induction answers generalizing scanner before with
  | nil => rfl
  | cons answer answers ih =>
    cases answer with
    | error fault => exact ih recalls
    | ok listing =>
      have later := ih (scanner.recalls_review listing)
      rw [found_ok, List.zipWith_cons_cons, ← recalls.review_fst listing]
      exact congrArg _ later

theorem getElem?_outcomes (scanner : Scanner α) (answers : List (Except ScanFault Listing)) (number : Nat) :
    (scanner.outcomes answers)[number]? =
      answers[number]?.map fun answer => ((scanner.after (answers.take number)).scan answer).1 := by
  induction answers generalizing scanner number with
  | nil => simp [outcomes]
  | cons answer answers ih =>
    cases number with
    | zero => rfl
    | succ number => exact ih (scanner.scan answer).2 number

theorem after_take_succ (scanner : Scanner α) {answers : List (Except ScanFault Listing)} {number : Nat}
    {answer : Except ScanFault Listing} (given : answers[number]? = some answer) :
    scanner.after (answers.take (number + 1)) = ((scanner.after (answers.take number)).scan answer).2 := by
  rw [after, List.take_add_one, given, List.foldl_append]
  rfl

end Scanner

section stay

variable {resource name : String}

theorem name_mem_news {before listing : Listing} {tokensPerDevice : α} :
    name ∈ (news resource tokensPerDevice before listing).map (·.name) ↔
      listing.Has resource name ∧ ¬ before.Has resource name := by
  simp only [news, List.map_map, List.mem_map, List.mem_filter, decide_eq_true_eq, Function.comp_apply]
  constructor
  · rintro ⟨pod, ⟨listed, holds, absent⟩, rfl⟩
    exact ⟨⟨pod, listed, rfl, holds⟩, absent⟩
  · rintro ⟨⟨pod, listed, rfl, holds⟩, absent⟩
    exact ⟨pod, ⟨listed, holds, absent⟩, rfl⟩

theorem count_news {before listing : Listing} (distinct : (listing.map (·.name)).Nodup) (tokensPerDevice : α) :
    ((news resource tokensPerDevice before listing).map (·.name)).count name =
      if listing.Has resource name ∧ ¬ before.Has resource name then 1 else 0 := by
  have once : ((news resource tokensPerDevice before listing).map (·.name)).Nodup := by
    rw [news, List.map_map]
    exact distinct.sublist (List.filter_sublist.map _)
  simp only [once.count, name_mem_news]

theorem count_stay (before : Listing) {stay : List Listing} (distinct : ∀ listing ∈ stay, (listing.map (·.name)).Nodup)
    (present : ∀ listing ∈ stay, listing.Has resource name) (tokensPerDevice : α) :
    ((List.zipWith (news resource tokensPerDevice) (before :: stay) stay).flatten.map (·.name)).count name =
      if stay = [] ∨ before.Has resource name then 0 else 1 := by
  induction stay generalizing before with
  | nil => rfl
  | cons listing stay ih =>
    have here : listing.Has resource name := present listing List.mem_cons_self
    have later := ih listing (fun other member => distinct other (List.mem_cons_of_mem _ member))
      fun other member => present other (List.mem_cons_of_mem _ member)
    rw [List.zipWith_cons_cons, List.flatten_cons, List.map_append, List.count_append, later, if_pos (.inr here),
      count_news (distinct listing List.mem_cons_self)]
    by_cases held : before.Has resource name
    · simp [held]
    · simp [held, here]

theorem stretch_news (first : Listing) (before stay later : List Listing) (tokensPerDevice : α) :
    ((List.zipWith (news resource tokensPerDevice) (first :: (before ++ stay ++ later)) (before ++ stay ++ later)).drop
        before.length).take stay.length =
      List.zipWith (news resource tokensPerDevice) (before.getLastD first :: stay) stay := by
  induction before generalizing first with
  | nil =>
    simp only [List.nil_append, List.length_nil, List.drop_zero, List.getLastD_nil]
    induction stay generalizing first with
    | nil => rfl
    | cons listing stay ih => exact congrArg _ (ih listing)
  | cons listing before ih =>
    rw [List.getLastD_cons]
    exact ih listing

end stay

/-- Over a run of scans in which no listing repeats a name, each listing makes known what holds devices there and did
not in the listing before; a failed scan says so and changes nothing. So every stay of a pod is reported once. -/
theorem reports_of_scans (resource : String) (tokensPerDevice : α) (answers : List (Except ScanFault Listing))
    (distinct : ∀ listing ∈ found answers, (listing.map (·.name)).Nodup) :
    found ((Scanner.new resource tokensPerDevice).outcomes answers) =
        List.zipWith (news resource tokensPerDevice) ([] :: found answers) (found answers) ∧
      (∀ number fault, answers[number]? = some (.error fault) →
        ((Scanner.new resource tokensPerDevice).outcomes answers)[number]? = some (.error fault) ∧
        (Scanner.new resource tokensPerDevice).after (answers.take (number + 1)) =
          (Scanner.new resource tokensPerDevice).after (answers.take number)) ∧
      ∀ name before stay later, found answers = before ++ stay ++ later → stay ≠ [] →
        ¬ (before.getLastD []).Has resource name → (∀ listing ∈ stay, listing.Has resource name) →
        ((((found ((Scanner.new resource tokensPerDevice).outcomes answers)).drop before.length).take
          stay.length).flatten.map (·.name)).count name = 1 := by
  have reports : found ((Scanner.new resource tokensPerDevice).outcomes answers) =
      List.zipWith (news resource tokensPerDevice) ([] :: found answers) (found answers) :=
    (Scanner.recalls_new resource tokensPerDevice).found_outcomes answers
  refine ⟨reports, ?_, ?_⟩
  · intro number fault failed
    rw [Scanner.getElem?_outcomes, Scanner.after_take_succ _ failed, failed]
    exact ⟨rfl, rfl⟩
  · intro name before stay later whole some absent present
    have inside : ∀ listing ∈ stay, (listing.map (·.name)).Nodup := by
      intro listing member
      apply distinct
      rw [whole]
      simp [member]
    rw [reports, whole, stretch_news, count_stay _ inside present, if_neg (not_or.mpr ⟨some, absent⟩)]

private def divided (name : String) : ListedPod :=
  ⟨name, "", [⟨"left", [⟨"token", ["0", "1"]⟩, ⟨"port", ["9"]⟩], []⟩, ⟨"right", [⟨"token", ["2"]⟩], []⟩]⟩

private def single (name : String) : ListedPod := ⟨name, "", [⟨"main", [⟨"token", ["5"]⟩], []⟩]⟩

private def bare (name : String) : ListedPod := ⟨name, "", [⟨"main", [], []⟩]⟩

/-- One pod loses its devices and regains them, another holds some from the second listing on. -/
private def interrupted : List (Except ScanFault Listing) :=
  [.error .notReady, .ok [divided "web", bare "db"], .error .refused, .ok [single "db", divided "web"],
    .ok [bare "web", single "db"], .ok [divided "web", single "db"]]

theorem reports_of_scans_interrupted :
    (∀ listing ∈ found interrupted, (listing.map (·.name)).Nodup) ∧
      found ((Scanner.new "token" (100 : Rat)).outcomes interrupted) =
        [[⟨"web", 300⟩], [⟨"db", 100⟩], [], [⟨"web", 300⟩]] ∧
      ((Scanner.new "token" (100 : Rat)).outcomes interrupted)[2]? = some (.error .refused) ∧
      ((((found ((Scanner.new "token" (100 : Rat)).outcomes interrupted)).drop 1).take 3).flatten.map
        (·.name)).count "db" = 1 := by
  have distinct : ∀ listing ∈ found interrupted, (listing.map (·.name)).Nodup := by decide +kernel
  obtain ⟨reports, failures, once⟩ := reports_of_scans "token" (100 : Rat) interrupted distinct
  have told : found ((Scanner.new "token" (100 : Rat)).outcomes interrupted) =
      [[⟨"web", 300⟩], [⟨"db", 100⟩], [], [⟨"web", 300⟩]] := by
    rw [reports]
    decide +kernel
  have stay := once "db" [[divided "web", bare "db"]]
    [[single "db", divided "web"], [bare "web", single "db"], [divided "web", single "db"]] [] rfl (by simp)
    (by decide +kernel) (by decide +kernel)
  exact ⟨distinct, told, (failures 2 .refused rfl).1, stay⟩

end PodBudget.Discovery
