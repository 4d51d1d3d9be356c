import Mathlib.Data.List.Basic
import PodBudget.Proofs.Node.ControlFiles

/-!
Directories of different pods. What a template makes of a name tells the name, so the paths of two pods differ. Whether
they lead to different directories depends on the steps in them: a name of a directory that is no step itself keeps
pods apart, in a template that never goes up.
-/
namespace PodBudget.Node

namespace Template

variable {name other template front rest : List Char} {c : Char}

theorem fill_placeholder (name rest : List Char) : fill name (placeholder ++ rest) = name ++ fill name rest := rfl

theorem fill_cons (plain : ¬placeholder <+: c :: rest) : fill name (c :: rest) = c :: fill name rest := by
  rw [fill]
  rintro later rfl rfl
  exact plain ⟨later, rfl⟩

theorem template_induction {motive : List Char → Prop} (empty : motive [])
    (hole : ∀ rest, motive rest → motive (placeholder ++ rest))
    (plain : ∀ c rest, ¬placeholder <+: c :: rest → motive rest → motive (c :: rest)) (template : List Char) :
    motive template := by
  induction template using fill.induct with
  | case1 rest ih => exact hole rest ih
  | case2 c rest other ih =>
    refine plain c rest ?_ ih
    rintro ⟨later, same⟩
    obtain ⟨rfl, rfl⟩ := List.cons.inj same
    exact other later rfl rfl
  | case3 => exact empty

-- Names can be told from what a template makes of them.

def occurrences : List Char → Nat
  | '\x7b' :: 'p' :: 'o' :: 'd' :: '\x7d' :: rest => occurrences rest + 1
  | _ :: rest => occurrences rest
  | [] => 0

theorem occurrences_placeholder (rest : List Char) : occurrences (placeholder ++ rest) = occurrences rest + 1 := rfl

theorem occurrences_cons (plain : ¬placeholder <+: c :: rest) : occurrences (c :: rest) = occurrences rest := by
  rw [occurrences]
  rintro later rfl rfl
  exact plain ⟨later, rfl⟩

theorem contained_rest (plain : ¬placeholder <+: c :: rest) (contained : placeholder <:+: c :: rest) :
    placeholder <:+: rest :=
  (List.infix_cons_iff.mp contained).resolve_left plain

theorem not_contained_nil : ¬placeholder <:+: [] := by simp [placeholder]

theorem occurrences_pos (contained : placeholder <:+: template) : 0 < occurrences template := by
  induction template using template_induction with
  | empty => exact absurd contained not_contained_nil
  | hole rest => exact Nat.succ_pos _
  | plain c rest plain ih =>
    rw [occurrences_cons plain]
    exact ih (contained_rest plain contained)

theorem length_fill (name template : List Char) :
    (fill name template).length = (fill [] template).length + occurrences template * name.length := by
  induction template using template_induction with
  | empty => simp [fill, occurrences]
  | hole rest ih =>
    simp only [fill_placeholder, occurrences_placeholder, List.length_append, List.length_nil, ih, Nat.add_mul]
    omega
  | plain c rest plain ih =>
    simp only [fill_cons plain, occurrences_cons plain, List.length_cons, ih]
    omega

theorem eq_of_fill_eq (contained : placeholder <:+: template) (same : fill name template = fill other template) :
    name = other := by
  have lengths : name.length = other.length := by
    have counted := congrArg List.length same
    rw [length_fill name, length_fill other, Nat.add_left_cancel_iff] at counted
    exact Nat.eq_of_mul_eq_mul_left (occurrences_pos contained) counted
  induction template using template_induction with
  | empty => exact absurd contained not_contained_nil
  | hole rest =>
    rw [fill_placeholder, fill_placeholder] at same
    exact List.append_inj_left same lengths
  | plain c rest plain ih =>
    rw [fill_cons plain, fill_cons plain] at same
    exact ih (contained_rest plain contained) (List.cons.inj same).2

theorem prefix_append_slash (begins : placeholder <+: front ++ '/' :: rest) : placeholder <+: front := by
  have parts : front ++ ['/'] <+: front ++ '/' :: rest := ⟨rest, by simp⟩
  have noSlash : '/' ∉ placeholder := by decide
  rcases List.prefix_or_prefix_of_prefix begins parts with inside | beyond
  · rcases List.prefix_concat_iff.mp inside with whole | inside
    · exact absurd (whole ▸ List.mem_append_right front List.mem_cons_self) noSlash
    · exact inside
  · exact absurd (beyond.subset (List.mem_append_right front List.mem_cons_self)) noSlash

theorem fill_append_slash (name front rest : List Char) :
    fill name (front ++ '/' :: rest) = fill name front ++ '/' :: fill name rest := by
  induction front using template_induction with
  | empty => exact fill_cons (by simp [placeholder])
  | hole more ih => rw [List.append_assoc, fill_placeholder, fill_placeholder, ih, List.append_assoc]
  | plain c more plain ih =>
    have further : ¬placeholder <+: c :: (more ++ '/' :: rest) := fun begins => plain (prefix_append_slash begins)
    rw [List.cons_append, fill_cons further, fill_cons plain, ih, List.cons_append]

theorem mem_fill (mem : c ∈ fill name template) : c ∈ name ∨ c ∈ template := by
  induction template using template_induction with
  | empty => cases mem
  | hole rest ih =>
    rcases List.mem_append.mp mem with inName | inRest
    · exact .inl inName
    · exact (ih inRest).imp_right (List.mem_append_right placeholder)
  | plain d rest plain ih =>
    rw [fill_cons plain] at mem
    rcases List.mem_cons.mp mem with rfl | inRest
    · exact .inr List.mem_cons_self
    · exact (ih inRest).imp_right (List.mem_cons_of_mem d)

theorem pieces_fill (noSlash : '/' ∉ name) (template : List Char) :
    FileTree.pieces (fill name template) = (FileTree.pieces template).map (fill name) := by
  induction size : template.length using Nat.strongRecOn generalizing template with
  | ind count ih =>
    by_cases slash : '/' ∈ template
    · obtain ⟨front, rest, rfl, alone⟩ := List.eq_append_cons_of_mem slash
      have smaller : rest.length < count := by
        rw [← size, List.length_append, List.length_cons]
        omega
      have whole : '/' ∉ fill name front := fun mem => (mem_fill mem).elim noSlash alone
      rw [fill_append_slash, FileTree.pieces_append_slash, FileTree.pieces_append_slash,
        FileTree.pieces_of_noSlash whole, FileTree.pieces_of_noSlash alone, ih _ smaller rest rfl, List.map_append]
      rfl
    · have whole : '/' ∉ fill name template := fun mem => (mem_fill mem).elim noSlash slash
      rw [FileTree.pieces_of_noSlash whole, FileTree.pieces_of_noSlash slash]
      rfl

theorem fill_eq_self_or_infix (template : List Char) :
    (∀ name, fill name template = template) ∨ ∀ name, name <:+: fill name template := by
  induction template using template_induction with
  | empty => exact .inl fun _ => rfl
  | hole rest => exact .inr fun name => (List.prefix_append name _).isInfix
  | plain c rest plain ih =>
    refine ih.imp (fun same name => ?_) fun inside name => ?_
    · rw [fill_cons plain, same]
    · rw [fill_cons plain]
      exact List.infix_cons (inside name)

end Template

namespace FileTree

variable {name path : String}

/-- A name that is no step of another kind: neither empty nor dots, and without a slash. -/
structure IsComponent (name : String) : Prop where
  nonempty : name ≠ ""
  noSlash : '/' ∉ name.toList
  notHere : name ≠ "."
  notUp : name ≠ ".."

instance (name : String) : Decidable (IsComponent name) :=
  decidable_of_iff (name ≠ "" ∧ '/' ∉ name.toList ∧ name ≠ "." ∧ name ≠ "..")
    ⟨fun ⟨nonempty, noSlash, notHere, notUp⟩ => ⟨nonempty, noSlash, notHere, notUp⟩,
      fun component => ⟨component.nonempty, component.noSlash, component.notHere, component.notUp⟩⟩

/-- A stretch of a path that leads somewhere else. -/
def IsStep (piece : List Char) : Prop := piece ≠ [] ∧ piece ≠ ['.']

instance (piece : List Char) : Decidable (IsStep piece) := inferInstanceAs (Decidable (_ ∧ _))

theorem IsComponent.of_infix (component : IsComponent name) {piece : List Char} (inside : name.toList <:+: piece) :
    IsStep piece ∧ piece ≠ ['.', '.'] := by
  have nonempty : name.toList ≠ [] := by simpa using component.nonempty
  have notHere : name.toList ≠ ['.'] := fun same => component.notHere (String.toList_inj.mp same)
  have notUp : name.toList ≠ ['.', '.'] := fun same => component.notUp (String.toList_inj.mp same)
  refine ⟨⟨?_, ?_⟩, ?_⟩
  · rintro rfl
    simp_all
  · rintro rfl
    simp_all [List.infix_cons_iff, List.prefix_cons_iff]
  · rintro rfl
    have shapes : (∃ rest, name.toList = '.' :: rest ∧ (rest = [] ∨ rest = ['.'])) ∨ name.toList = ['.'] := by
      simpa [List.infix_cons_iff, List.prefix_cons_iff, nonempty] using inside
    rcases shapes with ⟨rest, same, rfl | rfl⟩ | same
    · exact notHere same
    · exact notUp same
    · exact notHere same

theorem pieces_eq_splitOn (path : List Char) : pieces path = path.splitOn '/' := by
  induction path with
  | nil => rfl
  | cons c rest ih =>
    rw [List.splitOn_cons_eq_if_modifyHead, ← ih]
    by_cases slash : c = '/'
    · simp [pieces, slash]
    · cases parts : pieces rest with
      | nil => exact absurd parts (pieces_ne_nil rest)
      | cons head tail => simp [pieces, slash, parts]

theorem pieces_injective : Function.Injective pieces := by
  intro first second same
  have joined (path : List Char) : ['/'].intercalate (pieces path) = path := by
    rw [pieces_eq_splitOn, List.intercalate_splitOn]
  rw [← joined first, same, joined]

theorem mem_names_up : ".." ∈ names path ↔ ['.', '.'] ∈ pieces path.toList := by
  have spelled (piece : List Char) : String.ofList piece = ".." ↔ piece = ['.', '.'] := by
    rw [← String.toList_inj, String.toList_ofList]
    rfl
  simp [names, spelled]

theorem placeOf_eq (noUp : ".." ∉ names path) :
    placeOf path = ((pieces path.toList).filter (IsStep ·)).map String.ofList := by
  have walk (parts : List String) (below : ".." ∉ parts) (here : List String) :
      parts.foldl step here = here ++ parts.filter (· ≠ ".") := by
    induction parts generalizing here with
    | nil => simp
    | cons part rest ih =>
      obtain ⟨notUp, below⟩ := not_or.mp (List.mem_cons.not.mp below)
      rw [List.foldl_cons, ih below]
      by_cases dot : part = "."
      · simp [step, dot]
      · simp [step, dot, Ne.symm notUp]
  have spelled (piece : List Char) : String.ofList piece = "." ↔ piece = ['.'] := by
    rw [← String.toList_inj, String.toList_ofList]
    rfl
  rw [placeOf, walk _ noUp, List.nil_append, names, List.filter_map, List.filter_filter]
  congr 1
  refine List.filter_congr fun piece _ => ?_
  rw [Bool.eq_iff_iff, decide_eq_true_iff]
  simp [IsStep, spelled, and_comm]

section components

open Template (fill)

variable {template : String} {pod other : String}

theorem placeOf_fill (noUp : ".." ∉ names template) (component : IsComponent name) :
    placeOf (String.ofList (fill name.toList template.toList)) =
      (((pieces template.toList).map (fill name.toList)).filter (IsStep ·)).map String.ofList := by
  have parts : pieces (String.ofList (fill name.toList template.toList)).toList =
      (pieces template.toList).map (fill name.toList) := by
    rw [String.toList_ofList, Template.pieces_fill component.noSlash]
  have below : ".." ∉ names (String.ofList (fill name.toList template.toList)) := by
    rw [mem_names_up, parts, List.mem_map]
    rintro ⟨piece, mem, up⟩
    rcases Template.fill_eq_self_or_infix piece with same | inside
    · exact noUp (mem_names_up.mpr (up ▸ (same name.toList).symm ▸ mem))
    · exact (component.of_infix (inside _)).2 up
  rw [placeOf_eq below, parts]

/-- A stretch is the same for both names, or holds the name and is a step for both, so stretches that agree where they
are steps agree everywhere. -/
theorem map_fill_eq_of_steps (first : IsComponent pod) (second : IsComponent other) {parts : List (List Char)}
    (steps : (parts.map (fill pod.toList)).filter (IsStep ·) = (parts.map (fill other.toList)).filter (IsStep ·)) :
    parts.map (fill pod.toList) = parts.map (fill other.toList) := by
  have agree (piece : List Char) : (∀ name, fill name piece = piece) ∨
      IsStep (fill pod.toList piece) ∧ IsStep (fill other.toList piece) :=
    (Template.fill_eq_self_or_infix piece).imp_right fun inside =>
      ⟨(first.of_infix (inside _)).1, (second.of_infix (inside _)).1⟩
  have alike : (fun piece => decide (IsStep piece)) ∘ fill pod.toList =
      (fun piece => decide (IsStep piece)) ∘ fill other.toList := by
    funext piece
    rcases agree piece with same | ⟨one, two⟩
    · simp [same]
    · simp [one, two]
  rw [List.filter_map, List.filter_map, alike, List.map_inj_left] at steps
  refine List.map_congr_left fun piece mem => ?_
  rcases agree piece with same | ⟨-, step⟩
  · rw [same, same]
  · exact steps piece (List.mem_filter.mpr ⟨mem, decide_eq_true step⟩)

/-- Names of their own, put into a template that never goes up, lead to different places. -/
theorem placeOf_fill_ne (contained : Template.placeholder <:+: template.toList) (noUp : ".." ∉ names template)
    (first : IsComponent pod) (second : IsComponent other) (differ : pod ≠ other) :
    placeOf (String.ofList (fill pod.toList template.toList)) ≠
      placeOf (String.ofList (fill other.toList template.toList)) := by
  intro same
  rw [placeOf_fill noUp first, placeOf_fill noUp second] at same
  have steps := List.map_injective_iff.mpr (fun _ _ => String.ofList_injective) same
  have whole : fill pod.toList template.toList = fill other.toList template.toList := by
    apply pieces_injective
    rw [Template.pieces_fill first.noSlash, Template.pieces_fill second.noSlash]
    exact map_fill_eq_of_steps first second steps
  exact differ (String.toList_inj.mp (Template.eq_of_fill_eq contained whole))

end components

theorem Leads.eq_placeOf {tree : FileTree} {place : List String} (leads : Leads tree [] (names path) place) :
    place = placeOf path := by
  unfold placeOf
  generalize names path = parts at leads
  generalize ([] : List String) = here at leads ⊢
  induction leads with
  | here => rfl
  | onward _ _ ih => rw [ih, List.foldl_cons]

end FileTree

namespace Template

open FileTree (Leads names placeOf IsComponent)

/-- A template with a placeholder gives different pods different paths, whatever their names are. If the template never
goes up, and the names are names of directories and no steps, then the paths are about different places, so in no tree
do they lead to one directory. -/
theorem separated_of_placeholder (templates : PathTemplates) (kind : Kind)
    (contained : placeholder <:+: (templates.get kind).toList) :
    (∀ pod other, pod ≠ other → resolve templates kind pod ≠ resolve templates kind other) ∧
    (".." ∉ names (templates.get kind) → ∀ pod other, IsComponent pod → IsComponent other → pod ≠ other →
      placeOf (resolve templates kind pod) ≠ placeOf (resolve templates kind other) ∧
      ∀ tree place, Leads tree [] (names (resolve templates kind pod)) place →
        ¬Leads tree [] (names (resolve templates kind other)) place) := by
  constructor
  · intro pod other differ same
    exact differ (String.toList_inj.mp (eq_of_fill_eq contained (String.ofList_injective same)))
  · intro noUp pod other first second differ
    have apart := FileTree.placeOf_fill_ne contained noUp first second differ
    exact ⟨apart, fun tree place here there => apart (here.eq_placeOf.symm.trans there.eq_placeOf)⟩

private def braced : PathTemplates := ⟨"$ROOT/\x7bpod\x7d", "$ROOT/\x7b\x7bpod\x7d-\x7bpod\x7d/gpu"⟩

theorem separated_of_placeholder_braced :
    placeholder <:+: (braced.get .gpu).toList ∧ ".." ∉ names (braced.get .gpu) ∧
      IsComponent "\x7bpod\x7d" ∧ IsComponent "pod" ∧ "\x7bpod\x7d" ≠ "pod" ∧
      resolve braced .gpu "\x7bpod\x7d" ≠ resolve braced .gpu "pod" ∧
      placeOf (resolve braced .gpu "\x7bpod\x7d") ≠ placeOf (resolve braced .gpu "pod") := by
  have contained : placeholder <:+: (braced.get .gpu).toList := ⟨"$ROOT/\x7b".toList, "-\x7bpod\x7d/gpu".toList, by decide⟩
  have noUp : ".." ∉ names (braced.get .gpu) := by decide
  have components : IsComponent "\x7bpod\x7d" ∧ IsComponent "pod" := by decide
  have differ : "\x7bpod\x7d" ≠ "pod" := by decide
  obtain ⟨paths, places⟩ := separated_of_placeholder braced .gpu contained
  exact ⟨contained, noUp, components.1, components.2, differ, paths _ _ differ,
    (places noUp _ _ components.1 components.2 differ).1⟩

private def single : FileTree :=
  ⟨[(["$ROOT"], .directory), (["$ROOT", "cpu"], .directory), (["$ROOT", "cpu", "p"], .directory),
    (["$ROOT", "cpu", "p", "cpuacct.usage"], .file "1".toUTF8), (["$ROOT", "gpu"], .directory),
    (["$ROOT", "gpu", "p"], .directory), (["$ROOT", "gpu", "p", "total_runtime"], .file "2".toUTF8)]⟩

private def plainly : ControlFiles :=
  ⟨.v1, ⟨"$ROOT/cpu/\x7bpod\x7d", "$ROOT/gpu/\x7bpod\x7d"⟩, "$ROOT/resource_conf"⟩

/-- A template that leaves the directory of the pod again. -/
private def upwards : PathTemplates := ⟨"$ROOT/cpu/\x7bpod\x7d/..", "$ROOT/gpu/\x7bpod\x7d"⟩

/-- Paths that differ can lead to one directory. By a step in a name it does, so that the limit of one pod takes the place
of another one's; and by a step up after the placeholder. -/
theorem shared_of_steps :
    ("p" ≠ "./p" ∧ plainly.resolve single "p" = some ⟨"$ROOT/cpu/p", "$ROOT/gpu/p"⟩ ∧
      plainly.resolve single "./p" = some ⟨"$ROOT/cpu/./p", "$ROOT/gpu/./p"⟩ ∧
      (∃ place, Leads single [] (names "$ROOT/cpu/p") place ∧ Leads single [] (names "$ROOT/cpu/./p") place) ∧
      ControlFiles.readText
        (plainly.afterLimits 0 [(⟨.cpu, "$ROOT/cpu/p"⟩, (50 : Rat)), (⟨.cpu, "$ROOT/cpu/./p"⟩, 70)] single)
        "$ROOT/cpu/p/cpu.cfs_quota_us" = .ok "70000") ∧
    "p" ≠ "q" ∧ resolve upwards .cpu "p" ≠ resolve upwards .cpu "q" ∧
      placeOf (resolve upwards .cpu "p") = placeOf (resolve upwards .cpu "q") := by
  refine ⟨⟨by decide, by decide +kernel, by decide +kernel, ⟨["$ROOT", "cpu", "p"], ?_, ?_⟩, by decide +kernel⟩,
    by decide, by decide, by decide⟩
  · exact .onward rfl (.onward rfl (.onward rfl (.here _)))
  · exact .onward rfl (.onward rfl (.onward rfl (.onward rfl (.here _))))

end Template
end PodBudget.Node
