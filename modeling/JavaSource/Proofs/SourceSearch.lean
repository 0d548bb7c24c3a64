import JavaSource.Disk.Path
import JavaSource.Proofs.DiskTree
import JavaSource.Proofs.QualifiedName
import Mathlib.Data.Char
import Mathlib.Data.List.Lex
import Mathlib.Data.List.Nodup
import Mathlib.Logic.Function.Iterate

/-!
# The search for source files

A search keeps a stack of directories that it has not read yet. What it has found, together with
the source files at or below the directories on the stack, is the same at every step, and every
step reads one directory. So the search ends and has found each source file once, wherever it
stands, and the sorted result does not depend on the order in which entries are listed.
-/

namespace JavaSource

/-! ### Order of addresses -/

theorem Text.before_iff_lt {s t : Text} : before s t = true ↔ s < t := by
  induction s generalizing t with
  | nil =>
    cases t with
    | nil => simp [before]
    | cons d t => simp [before]
  | cons c s ih =>
    cases t with
    | nil => simp [before]
    | cons d t =>
      rw [before, List.cons_lt_cons_iff, Bool.or_eq_true, Bool.and_eq_true, ih, beq_iff_eq,
        decide_eq_true_iff]
      rfl

namespace Disk

theorem addressBefore_iff_lt {a b : Address} : addressBefore a b = true ↔ a < b := by
  induction a generalizing b with
  | nil =>
    cases b with
    | nil => simp [addressBefore]
    | cons y b => simp [addressBefore]
  | cons x a ih =>
    cases b with
    | nil => simp [addressBefore]
    | cons y b =>
      rw [addressBefore, List.cons_lt_cons_iff, Bool.or_eq_true, Bool.and_eq_true, ih, beq_iff_eq,
        Text.before_iff_lt]

/-! ### Files of a tree -/

variable {disk entries : Disk} {path a : Address} {content : List UInt8}

theorem filesBelow_eq_flatMap (path : Address) (entries : Disk) :
    filesBelow path entries = entries.flatMap fun e => filesOfNode (path ++ [e.1]) e.2 := by
  induction entries with
  | nil => rfl
  | cons entry rest ih =>
    obtain ⟨name, node⟩ := entry
    rw [filesBelow, List.flatMap_cons, ih]

/-- The files below a directory are those that addresses in it lead to. -/
theorem mem_filesBelow_iff (h : IsTree entries) :
    (a, content) ∈ filesBelow path entries ↔
      ∃ b, a = path ++ b ∧ find? b entries = some (.file content) := by
  induction h generalizing path with
  | intro entries nodup _ ih =>
    rw [filesBelow_eq_flatMap, List.mem_flatMap]
    constructor
    · rintro ⟨⟨name, node⟩, hmem, hfile⟩
      have hlookup := lookup_of_mem nodup hmem
      cases node with
      | file content' =>
        obtain ⟨rfl, rfl⟩ := Prod.mk.inj (List.mem_singleton.1 hfile)
        exact ⟨[name], rfl, hlookup⟩
      | dir sub =>
        obtain ⟨b, rfl, hb⟩ := (ih name sub hmem).1 hfile
        exact ⟨name :: b, by simp, (find?_cons_of_dir hlookup).trans hb⟩
    · rintro ⟨b, rfl, hb⟩
      cases b with
      | nil => cases hb
      | cons name b =>
        by_cases hdir : ∃ sub, entries.lookup name = some (.dir sub)
        · obtain ⟨sub, hsub⟩ := hdir
          rw [find?_cons_of_dir hsub] at hb
          refine ⟨(name, .dir sub), mem_of_lookup hsub, (ih name sub (mem_of_lookup hsub)).2 ?_⟩
          exact ⟨b, by simp, hb⟩
        · rcases eq_or_ne b [] with rfl | hne
          · exact ⟨(name, .file content), mem_of_lookup hb, List.mem_singleton_self _⟩
          · rw [find?_cons_eq_none hne fun sub hsub => hdir ⟨sub, hsub⟩] at hb
            cases hb

theorem mem_files_iff (h : IsTree disk) :
    (a, content) ∈ files disk ↔ read? a disk = some content := by
  rw [files, mem_filesBelow_iff h, read?_eq_some_iff, kindAt_eq_file_iff]
  exact ⟨fun ⟨b, hb, hfind⟩ => hb ▸ hfind, fun hfind => ⟨a, rfl, hfind⟩⟩

/-- All files of one entry lie at or below it. -/
theorem prefix_of_mem_filesOfNode {node : FileTree} (h : ∀ sub, node = .dir sub → IsTree sub)
    (ha : a ∈ (filesOfNode path node).map Prod.fst) : path <+: a := by
  obtain ⟨⟨a, content⟩, hmem, rfl⟩ := List.mem_map.1 ha
  cases node with
  | file content' => exact (Prod.mk.inj (List.mem_singleton.1 hmem)).1 ▸ List.prefix_rfl
  | dir sub =>
    obtain ⟨b, rfl, -⟩ := (mem_filesBelow_iff (h sub rfl)).1 hmem
    exact List.prefix_append path b

theorem nodup_filesBelow (h : IsTree entries) (path : Address) :
    ((filesBelow path entries).map Prod.fst).Nodup := by
  induction h generalizing path with
  | intro entries nodup sub ih =>
    rw [filesBelow_eq_flatMap, List.map_flatMap, List.nodup_flatMap]
    constructor
    · rintro ⟨name, node⟩ hmem
      cases node with
      | file content => exact List.nodup_singleton _
      | dir entries' => exact ih name entries' hmem (path ++ [name])
    · refine (List.pairwise_map.1 nodup).imp_of_mem fun {e e'} he he' hne => ?_
      intro a ha ha'
      have hsub : ∀ entry ∈ entries, ∀ sub, entry.2 = .dir sub → IsTree sub := by
        rintro ⟨name, node⟩ hentry sub' rfl
        exact sub name sub' hentry
      have hp := prefix_of_mem_filesOfNode (hsub e he) ha
      have hp' := prefix_of_mem_filesOfNode (hsub e' he') ha'
      have hsame : path ++ [e.1] = path ++ [e'.1] :=
        (List.prefix_of_prefix_length_le hp hp' (by simp)).eq_of_length (by simp)
      exact hne (List.singleton_inj.1 (List.append_cancel_left hsame))

/-! ### Source files -/

theorem extension?_eq_some_iff {name ext : Text} (h : '.' ∉ ext) :
    extension? name = some ext ↔ ∃ stem, stem ≠ [] ∧ name = stem ++ '.' :: ext := by
  simp only [extension?, Option.bind_eq_some_iff, Option.ite_none_left_eq_some, List.isEmpty_iff,
    Option.some_inj]
  constructor
  · rintro ⟨⟨stem, last⟩, hsplit, hstem, rfl⟩
    exact ⟨stem, hstem, Text.eq_of_splitLast? hsplit⟩
  · rintro ⟨stem, hstem, rfl⟩
    exact ⟨(stem, ext), Text.splitLast?_append stem h, hstem, rfl⟩

/-- A source file is named by something with `.java` behind it. -/
theorem isSource_iff :
    isSource a = true ↔ ∃ dirs stem, stem ≠ [] ∧ a = dirs ++ [stem ++ ".java".toList] := by
  have hext : '.' ∉ "java".toList := by decide
  rw [isSource, decide_eq_true_iff, Option.bind_eq_some_iff]
  constructor
  · rintro ⟨name, hname, hjava⟩
    obtain ⟨dirs, rfl⟩ := List.getLast?_eq_some_iff.1 hname
    obtain ⟨stem, hstem, rfl⟩ := (extension?_eq_some_iff hext).1 hjava
    exact ⟨dirs, stem, hstem, rfl⟩
  · rintro ⟨dirs, stem, hstem, rfl⟩
    exact ⟨_, List.getLast?_concat .., (extension?_eq_some_iff hext).2 ⟨stem, hstem, rfl⟩⟩

def sourcesOf (files : List (Address × List UInt8)) : List Address :=
  (files.map Prod.fst).filter isSource

theorem sourcesOf_append (files files' : List (Address × List UInt8)) :
    sourcesOf (files ++ files') = sourcesOf files ++ sourcesOf files' := by
  simp [sourcesOf]

/-! ### The search -/

namespace Search

variable {search : Search}

/-- What a search has found, and the source files below the directories that wait. -/
def reached (search : Search) : List Address :=
  search.found ++ search.pending.flatMap fun d => sourcesOf (filesBelow d.1 d.2)

theorem reached_note (here : Address) (search : Search) (entry : Text × FileTree) :
    (search.note here entry).reached.Perm
      (search.reached ++ sourcesOf (filesOfNode (here ++ [entry.1]) entry.2)) := by
  obtain ⟨name, node⟩ := entry
  cases node with
  | file content =>
    by_cases hsource : isSource (here ++ [name]) = true
    · simp only [note, hsource, if_true, reached, filesOfNode, sourcesOf, List.map_cons,
        List.map_nil, List.filter_cons_of_pos, List.filter_nil, List.append_assoc]
      exact (List.perm_append_comm).append_left search.found
    · have hnone : sourcesOf (filesOfNode (here ++ [name]) (.file content)) = [] :=
        List.filter_eq_nil_iff.2 fun a ha => List.mem_singleton.1 ha ▸ hsource
      rw [hnone, List.append_nil, note, if_neg hsource]
  | dir entries =>
    simp only [note, reached, filesOfNode, List.flatMap_cons, List.append_assoc]
    exact (List.perm_append_comm).append_left search.found

theorem reached_foldl_note (here : Address) (search : Search) (entries : Disk) :
    (entries.foldl (note here) search).reached.Perm
      (search.reached ++ sourcesOf (filesBelow here entries)) := by
  induction entries generalizing search with
  | nil => simp [filesBelow, sourcesOf]
  | cons entry rest ih =>
    obtain ⟨name, node⟩ := entry
    rw [List.foldl_cons, filesBelow, sourcesOf_append, ← List.append_assoc]
    exact (ih _).trans ((reached_note here search (name, node)).append_right _)

/-- Reading a directory only moves source files from those below it to those found or those below
its entries. -/
theorem reached_step (search : Search) : search.step.reached.Perm search.reached := by
  obtain ⟨pending, found⟩ := search
  cases pending with
  | nil => exact List.Perm.refl _
  | cons d rest =>
    refine (reached_foldl_note d.1 ⟨rest, found⟩ d.2).trans ?_
    simp only [reached, List.flatMap_cons, List.append_assoc]
    exact (List.perm_append_comm).append_left found

theorem perm_run (search : Search) : search.run.Perm search.reached := by
  fun_induction run search with
  | case1 search h => simp [reached, h]
  | case2 search h ih => exact ih.trans (reached_step search)

/-- A search takes as many steps as there are directories to be read. -/
theorem iterate_step_unread (search : Search) :
    step^[search.unread] search = ⟨[], search.run⟩ := by
  fun_induction run search with
  | case1 search h =>
    obtain ⟨pending, found⟩ := search
    obtain rfl : pending = [] := h
    rfl
  | case2 search h ih =>
    rw [← unread_step h, Function.iterate_succ_apply]
    exact ih

theorem unread_start (disk : Disk) : (start disk).unread = countDirsBelow disk + 1 := by
  simp [start, unread]

end Search

/-! ### The sorted result -/

theorem perm_sources (disk : Disk) : (sources disk).Perm (sourcesOf (files disk)) := by
  refine (List.mergeSort_perm ..).trans ((Search.start disk).perm_run.trans ?_)
  simp [Search.reached, Search.start, files]

theorem mem_sources_iff (h : IsTree disk) :
    a ∈ sources disk ↔ (∃ content, read? a disk = some content) ∧ isSource a = true := by
  rw [(perm_sources disk).mem_iff, sourcesOf, List.mem_filter, List.mem_map]
  refine and_congr_left fun _ => ?_
  constructor
  · rintro ⟨⟨a, content⟩, hmem, rfl⟩
    exact ⟨content, (mem_files_iff h).1 hmem⟩
  · rintro ⟨content, hread⟩
    exact ⟨(a, content), (mem_files_iff h).2 hread, rfl⟩

theorem nodup_sources (h : IsTree disk) : (sources disk).Nodup :=
  (perm_sources disk).nodup_iff.2 ((nodup_filesBelow h []).filter isSource)

theorem pairwise_sources (h : IsTree disk) : (sources disk).Pairwise (· < ·) := by
  have hle {b c : Address} : (!addressBefore c b) = true ↔ b ≤ c := by
    rw [Bool.not_eq_true', ← Bool.not_eq_true, addressBefore_iff_lt, not_lt]
  have hsorted : (sources disk).Pairwise fun b c => (!addressBefore c b) = true := by
    apply List.pairwise_mergeSort
    · intro b c d hbc hcd
      exact hle.2 ((hle.1 hbc).trans (hle.1 hcd))
    · intro b c
      rw [Bool.or_eq_true, hle, hle]
      exact le_total b c
  exact hsorted.imp₂ (fun b c hbc hne => lt_of_le_of_ne (hle.1 hbc) hne) (nodup_sources h)

end Disk

end JavaSource
