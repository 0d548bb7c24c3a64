import JavaSource.Disk.Tree
import Mathlib.Data.List.Induction
import Mathlib.Logic.Function.Basic

/-!
# What stands on a disk

A disk shows what stands at each address: nothing, a directory, or a file with its bytes. A change
of one directory that sets one name there sets one address of the disk, and nothing else changes.
Where no name stands twice in one directory, none does afterwards.
-/

namespace JavaSource.Disk

/-! ### Trees -/

/-- No name stands twice in one directory, neither in the top directory nor in any below. -/
inductive IsTree : Disk → Prop
  | intro (entries : Disk) (nodup : (entries.map Prod.fst).Nodup)
      (sub : ∀ name entries', (name, .dir entries') ∈ entries → IsTree entries') : IsTree entries

variable {disk disk' entries entries' : Disk} {name first : Text} {node : FileTree} {a b : Address}

theorem IsTree.nodup (h : IsTree disk) : (disk.map Prod.fst).Nodup := by
  cases h
  assumption

theorem IsTree.sub (h : IsTree disk) (hmem : (name, .dir entries) ∈ disk) : IsTree entries := by
  cases h with
  | intro _ _ hsub => exact hsub name entries hmem

theorem isTree_nil : IsTree [] := .intro [] List.nodup_nil (by simp)

theorem mem_of_lookup (h : disk.lookup name = some node) : (name, node) ∈ disk := by
  obtain ⟨front, back, hdisk, -⟩ := List.lookup_eq_some_iff.1 h
  rw [hdisk]
  exact List.mem_append_right _ (List.mem_cons_self ..)

theorem lookup_of_mem (h : (disk.map Prod.fst).Nodup) (hmem : (name, node) ∈ disk) :
    disk.lookup name = some node := by
  obtain ⟨front, back, rfl⟩ := List.append_of_mem hmem
  rw [List.map_append, List.map_cons, List.nodup_append] at h
  refine List.lookup_eq_some_iff.2 ⟨front, back, rfl, fun entry hentry => ?_⟩
  have hne := h.2.2 entry.1 (List.mem_map_of_mem hentry) name (List.mem_cons_self ..)
  simpa using Ne.symm hne

/-! ### Setting an entry -/

theorem lookup_cons_of_ne (h : name ≠ first) :
    List.lookup name ((first, node) :: disk) = disk.lookup name := by
  rw [List.lookup_cons, beq_false_of_ne h]

theorem lookup_setEntry (name other : Text) (node : FileTree) (disk : Disk) :
    (setEntry name node disk).lookup other =
      if other = name then some node else disk.lookup other := by
  induction disk with
  | nil =>
    by_cases h : other = name
    · simp [setEntry, h]
    · rw [setEntry, lookup_cons_of_ne h, if_neg h]
  | cons entry rest ih =>
    obtain ⟨first, node'⟩ := entry
    by_cases hfirst : first = name
    · subst hfirst
      rw [setEntry, if_pos rfl]
      by_cases h : other = first
      · simp [h]
      · rw [lookup_cons_of_ne h, lookup_cons_of_ne h, if_neg h]
    · rw [setEntry, if_neg hfirst]
      by_cases h : other = first
      · have hother : other ≠ name := fun heq => hfirst (h.symm.trans heq)
        simp [h, hfirst]
      · rw [lookup_cons_of_ne h, lookup_cons_of_ne h, ih]

theorem mem_setEntry {entry : Text × FileTree} (h : entry ∈ setEntry name node disk) :
    entry = (name, node) ∨ entry ∈ disk := by
  induction disk with
  | nil => exact Or.inl (List.mem_singleton.1 h)
  | cons first rest ih =>
    rw [setEntry] at h
    split at h
    · rcases List.mem_cons.1 h with h | h
      · exact Or.inl h
      · exact Or.inr (List.mem_cons_of_mem _ h)
    · rcases List.mem_cons.1 h with h | h
      · exact Or.inr (h ▸ List.mem_cons_self ..)
      · exact (ih h).imp_right (List.mem_cons_of_mem _)

theorem nodup_setEntry (h : (disk.map Prod.fst).Nodup) :
    ((setEntry name node disk).map Prod.fst).Nodup := by
  induction disk with
  | nil => simp [setEntry]
  | cons first rest ih =>
    rw [List.map_cons, List.nodup_cons] at h
    rw [setEntry]
    split
    · next hname => simpa [← hname] using h
    · next hname =>
      rw [List.map_cons, List.nodup_cons]
      refine ⟨fun hmem => ?_, ih h.2⟩
      obtain ⟨entry, hentry, heq⟩ := List.mem_map.1 hmem
      rcases mem_setEntry hentry with rfl | hrest
      · exact hname heq.symm
      · exact h.1 (heq ▸ List.mem_map_of_mem hrest)

theorem IsTree.setEntry (h : IsTree disk) (hnode : ∀ sub, node = .dir sub → IsTree sub) :
    IsTree (setEntry name node disk) := by
  refine .intro _ (nodup_setEntry h.nodup) fun other sub hsub => ?_
  rcases mem_setEntry hsub with heq | hsub
  · exact hnode sub (Prod.mk.inj heq).2.symm
  · exact h.sub hsub

/-! ### Following an address -/

theorem find?_cons_congr (h : disk.lookup name = disk'.lookup name) :
    find? (name :: a) disk = find? (name :: a) disk' := by
  cases a with
  | nil => exact h
  | cons other rest => simp only [find?, h]

theorem find?_cons_of_dir (h : disk.lookup name = some (.dir entries)) :
    find? (name :: a) disk = find? a entries := by
  cases a with
  | nil => exact h
  | cons other rest => simp [find?, h]

theorem find?_cons_eq_none (ha : a ≠ []) (h : ∀ sub, disk.lookup name ≠ some (.dir sub)) :
    find? (name :: a) disk = none := by
  obtain ⟨other, rest, rfl⟩ := List.exists_cons_of_ne_nil ha
  cases hl : disk.lookup name with
  | none => simp [find?, hl]
  | some node =>
    cases node with
    | file content => simp [find?, hl]
    | dir sub => exact absurd hl (h sub)

theorem exists_dir_of_find?_cons (h : find? (name :: a) disk = some (.dir entries)) :
    ∃ sub, disk.lookup name = some (.dir sub) ∧ find? a sub = some (.dir entries) := by
  rcases eq_or_ne a [] with rfl | ha
  · exact ⟨entries, h, rfl⟩
  · by_cases hdir : ∃ sub, disk.lookup name = some (.dir sub)
    · obtain ⟨sub, hsub⟩ := hdir
      exact ⟨sub, hsub, (find?_cons_of_dir hsub).symm.trans h⟩
    · rw [find?_cons_eq_none ha fun sub hsub => hdir ⟨sub, hsub⟩] at h
      cases h

theorem find?_append (h : find? a disk = some (.dir entries)) :
    find? (a ++ b) disk = find? b entries := by
  induction a generalizing disk with
  | nil =>
    obtain rfl : disk = entries := by simpa [find?] using h
    rfl
  | cons name a ih =>
    obtain ⟨sub, hsub, hrest⟩ := exists_dir_of_find?_cons h
    rw [List.cons_append, find?_cons_of_dir hsub]
    exact ih hrest

theorem find?_append_eq_none (hb : b ≠ []) (h : ∀ sub, find? a disk ≠ some (.dir sub)) :
    find? (a ++ b) disk = none := by
  induction a generalizing disk with
  | nil => exact absurd rfl (h disk)
  | cons name a ih =>
    by_cases hdir : ∃ sub, disk.lookup name = some (.dir sub)
    · obtain ⟨sub, hsub⟩ := hdir
      rw [List.cons_append, find?_cons_of_dir hsub]
      refine ih fun sub' hsub' => h sub' ?_
      rw [find?_cons_of_dir hsub]
      exact hsub'
    · exact find?_cons_eq_none (by simp [hb]) fun sub hsub => hdir ⟨sub, hsub⟩

theorem IsTree.find? (h : IsTree disk) (ha : find? a disk = some (.dir entries)) :
    IsTree entries := by
  induction a generalizing disk with
  | nil =>
    obtain rfl : disk = entries := by simpa [Disk.find?] using ha
    exact h
  | cons name a ih =>
    obtain ⟨sub, hsub, hrest⟩ := exists_dir_of_find?_cons ha
    exact ih (h.sub (mem_of_lookup hsub)) hrest

/-! ### What stands at an address -/

inductive Kind
  | dir
  | file (content : List UInt8)

def kindOf : FileTree → Kind
  | .file content => .file content
  | .dir _ => .dir

def kindAt (disk : Disk) (a : Address) : Option Kind := (find? a disk).map kindOf

theorem kindAt_nil : kindAt disk [] = some .dir := rfl

theorem kindAt_eq_dir_iff :
    kindAt disk a = some .dir ↔ ∃ entries, find? a disk = some (.dir entries) := by
  unfold kindAt
  cases find? a disk with
  | none => simp
  | some node => cases node <;> simp [kindOf]

theorem kindAt_eq_file_iff {content : List UInt8} :
    kindAt disk a = some (.file content) ↔ find? a disk = some (.file content) := by
  unfold kindAt
  cases find? a disk with
  | none => simp
  | some node => cases node <;> simp [kindOf]

theorem read?_eq_some_iff {content : List UInt8} :
    read? a disk = some content ↔ kindAt disk a = some (.file content) := by
  rw [kindAt_eq_file_iff, read?]
  split
  · next found h => simp [h]
  · next h => simp only [reduceCtorEq, false_iff]; exact h content

theorem kindAt_append (h : find? a disk = some (.dir entries)) :
    kindAt disk (a ++ b) = kindAt entries b := by
  rw [kindAt, find?_append h, kindAt]

/-- What stands above something is a directory. -/
theorem kindAt_eq_dir_of_append (hb : b ≠ []) (h : kindAt disk (a ++ b) ≠ none) :
    kindAt disk a = some .dir := by
  refine kindAt_eq_dir_iff.2 (Classical.by_contradiction fun hnone => h ?_)
  rw [kindAt, find?_append_eq_none hb fun sub hsub => hnone ⟨sub, hsub⟩]
  rfl

theorem kindAt_append_eq_none (h : kindAt disk a = none) : kindAt disk (a ++ b) = none := by
  rcases eq_or_ne b [] with rfl | hb
  · simpa using h
  · refine Classical.by_contradiction fun hsome => ?_
    rw [kindAt_eq_dir_of_append hb hsome] at h
    cases h

theorem kindAt_cons_of_dir (h : disk.lookup name = some (.dir entries)) :
    kindAt disk (name :: a) = kindAt entries a := by
  rw [kindAt, find?_cons_of_dir h, kindAt]

theorem kindAt_empty (ha : a ≠ []) : kindAt [] a = none := by
  obtain ⟨name, rest, rfl⟩ := List.exists_cons_of_ne_nil ha
  rcases eq_or_ne rest [] with rfl | hrest
  · rfl
  · rw [kindAt, find?_cons_eq_none hrest fun sub h => by simp at h]
    rfl

/-! ### Setting an address -/

/-- A name at which no directory stands has nothing below it, and still has nothing there when it
is set to a file or an empty directory. -/
theorem kindAt_setEntry (hold : ∀ sub, disk.lookup name ≠ some (.dir sub))
    (hnew : ∀ sub, node = .dir sub → sub = []) :
    kindAt (setEntry name node disk) =
      Function.update (kindAt disk) [name] (some (kindOf node)) := by
  funext a
  cases a with
  | nil =>
    rw [Function.update_of_ne (List.cons_ne_nil name []).symm]
    rfl
  | cons first rest =>
    have hlookup := lookup_setEntry name first node disk
    by_cases hfirst : first = name
    · subst hfirst
      rw [if_pos rfl] at hlookup
      rcases eq_or_ne rest [] with rfl | hrest
      · rw [Function.update_self, kindAt, find?, hlookup]
        rfl
      · have hbefore : kindAt disk (first :: rest) = none := by
          rw [kindAt, find?_cons_eq_none hrest hold]
          rfl
        rw [Function.update_of_ne (by simpa using hrest), hbefore]
        cases node with
        | file content =>
          rw [kindAt, find?_cons_eq_none hrest fun sub h => by simp [hlookup] at h]
          rfl
        | dir sub =>
          rw [kindAt_cons_of_dir hlookup, hnew sub rfl, kindAt_empty hrest]
    · rw [if_neg hfirst] at hlookup
      rw [Function.update_of_ne (by simp [hfirst]), kindAt, find?_cons_congr hlookup, kindAt]

/-- A change of one directory that sets a name there and keeps a tree a tree. -/
structure Sets (change : Disk → Option Disk) (name : Text) (kind : Kind) : Prop where
  shows : ∀ entries entries', change entries = some entries' →
    kindAt entries' = Function.update (kindAt entries) [name] (some kind)
  keepsTree : ∀ entries entries', change entries = some entries' → IsTree entries → IsTree entries'

theorem addDir_eq_some_iff :
    addDir name disk = some disk' ↔
      isFileName name = true ∧ disk.lookup name = none ∧ disk' = setEntry name (.dir []) disk := by
  simp only [addDir, Bool.and_eq_true, Option.isNone_iff_eq_none, Option.ite_none_right_eq_some,
    Option.some_inj, and_assoc, eq_comm (a := disk')]

theorem putFile_eq_some_iff {content : List UInt8} :
    putFile name content disk = some disk' ↔
      isFileName name = true ∧ (∀ sub, disk.lookup name ≠ some (.dir sub)) ∧
        disk' = setEntry name (.file content) disk := by
  unfold putFile
  split
  · next sub h => simp [h]
  · next h =>
    simp only [Option.ite_none_right_eq_some, Option.some_inj, eq_comm (a := disk')]
    exact ⟨fun hp => ⟨hp.1, h, hp.2⟩, fun hp => ⟨hp.1, hp.2.2⟩⟩

theorem sets_addDir (name : Text) : Sets (addDir name) name .dir where
  shows := by
    intro entries entries' h
    obtain ⟨-, hnone, rfl⟩ := addDir_eq_some_iff.1 h
    exact kindAt_setEntry (by simp [hnone]) (by simp)
  keepsTree := by
    intro entries entries' h htree
    obtain ⟨-, -, rfl⟩ := addDir_eq_some_iff.1 h
    exact htree.setEntry fun sub hsub => (FileTree.dir.inj hsub) ▸ isTree_nil

theorem sets_putFile (name : Text) (content : List UInt8) :
    Sets (putFile name content) name (.file content) where
  shows := by
    intro entries entries' h
    obtain ⟨-, hold, rfl⟩ := putFile_eq_some_iff.1 h
    exact kindAt_setEntry hold (by simp)
  keepsTree := by
    intro entries entries' h htree
    obtain ⟨-, -, rfl⟩ := putFile_eq_some_iff.1 h
    exact htree.setEntry (by simp)

variable {change : Disk → Option Disk} {kind : Kind}

theorem exists_of_update_cons (h : update change (name :: a) disk = some disk') :
    ∃ sub sub', disk.lookup name = some (.dir sub) ∧ update change a sub = some sub' ∧
      disk' = setEntry name (.dir sub') disk := by
  rw [update] at h
  split at h
  · next sub hsub =>
    obtain ⟨sub', hsub', rfl⟩ := Option.map_eq_some_iff.1 h
    exact ⟨sub, sub', hsub, hsub', rfl⟩
  · cases h

/-- A change succeeds where it succeeds on the directory at its address. -/
theorem isSome_update (h : find? a disk = some (.dir entries)) :
    (update change a disk).isSome = (change entries).isSome := by
  induction a generalizing disk with
  | nil =>
    obtain rfl : disk = entries := by simpa [find?] using h
    rfl
  | cons name a ih =>
    obtain ⟨sub, hsub, hrest⟩ := exists_dir_of_find?_cons h
    rw [update, hsub, Option.isSome_map]
    exact ih hrest

theorem exists_update_iff (h : find? a disk = some (.dir entries)) :
    (∃ disk', update change a disk = some disk') ↔ ∃ entries', change entries = some entries' := by
  rw [← Option.isSome_iff_exists, ← Option.isSome_iff_exists, isSome_update h]

theorem Sets.kindAt_update (hsets : Sets change name kind) (a : Address) :
    ∀ disk disk', update change a disk = some disk' →
      kindAt disk' = Function.update (kindAt disk) (a ++ [name]) (some kind) := by
  induction a with
  | nil => exact hsets.shows
  | cons first a ih =>
    intro disk disk' h
    obtain ⟨sub, sub', hsub, hsub', rfl⟩ := exists_of_update_cons h
    have hchanged := ih sub sub' hsub'
    rw [List.cons_append]
    funext b
    cases b with
    | nil =>
      rw [Function.update_of_ne (List.cons_ne_nil first (a ++ [name])).symm]
      rfl
    | cons other rest =>
      have hlookup := lookup_setEntry first other (.dir sub') disk
      by_cases hother : other = first
      · subst hother
        rw [if_pos rfl] at hlookup
        rw [kindAt_cons_of_dir hlookup, hchanged]
        by_cases hrest : rest = a ++ [name]
        · rw [hrest, Function.update_self, Function.update_self]
        · rw [Function.update_of_ne hrest, Function.update_of_ne (by simpa using hrest),
            kindAt_cons_of_dir hsub]
      · rw [if_neg hother] at hlookup
        rw [Function.update_of_ne (by simp [hother]), kindAt, find?_cons_congr hlookup, kindAt]

theorem Sets.isTree_update (hsets : Sets change name kind) (htree : IsTree disk)
    (h : update change a disk = some disk') : IsTree disk' := by
  induction a generalizing disk disk' with
  | nil => exact hsets.keepsTree disk disk' h htree
  | cons first a ih =>
    obtain ⟨sub, sub', hsub, hsub', rfl⟩ := exists_of_update_cons h
    refine htree.setEntry fun sub'' heq => ?_
    rw [← FileTree.dir.inj heq]
    exact ih (htree.sub (mem_of_lookup hsub)) hsub'

end JavaSource.Disk
