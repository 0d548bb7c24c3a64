import JavaSource.CompilationUnit
import JavaSource.Proofs.QualifiedName

/-!
# Paths of source files

The file of a class lies below the directories that its package segments name, and is named by
its simple name. A directory of a package has no dot in its name and a file has one, so that no
path leads through a file, and no two classes share one.
-/

namespace JavaSource

/-! ### Joined names -/

namespace Text

theorem split_join {sep : Char} {ws : List Text} (hne : ws ≠ []) (h : ∀ w ∈ ws, sep ∉ w) :
    split sep (join [sep] ws) = ws := by
  induction ws with
  | nil => exact absurd rfl hne
  | cons w ws ih =>
    have hw := split_eq_singleton (h w (List.mem_cons_self ..))
    cases ws with
    | nil => exact hw
    | cons v vs =>
      have hrest := ih (List.cons_ne_nil v vs) fun u hu => h u (List.mem_cons_of_mem _ hu)
      rw [join, List.append_assoc, List.singleton_append, split_append, hw, hrest]
      rfl

end Text

/-- A qualified name is a nonempty list of identifiers with dots between them. -/
theorem isQualifiedName_iff_join {s : Text} :
    IsQualifiedName s ↔
      ∃ segments, segments ≠ [] ∧ (∀ w ∈ segments, IsIdentifier w) ∧
        s = Text.join ['.'] segments := by
  constructor
  · intro h
    exact ⟨Text.split '.' s, Text.split_ne_nil '.' s, h, (Text.join_split '.' s).symm⟩
  · rintro ⟨segments, hne, hsegments, rfl⟩
    have hdot : ∀ w ∈ segments, '.' ∉ w := by
      intro w hw hm
      exact absurd ((hsegments w hw).isIdentifierPart_of_mem hm) (by decide)
    unfold IsQualifiedName
    rw [Text.split_join hne hdot]
    exact hsegments

/-- A name of an entry of a directory that leads to that entry. -/
structure IsEntryName (w : Text) : Prop where
  ne_nil : w ≠ []
  slash_not_mem : '/' ∉ w
  ne_dot : w ≠ ['.']
  ne_dots : w ≠ ['.', '.']

theorem appendPathPart_eq {path part : Text} (hpath : path ≠ []) (hlast : path.getLast? ≠ some '/')
    (hpart : '/' ∉ part) : appendPathPart path part = path ++ '/' :: part := by
  have hhead : part.head? ≠ some '/' := fun h => hpart (List.mem_of_head? h)
  simp [appendPathPart, hhead, hpath, hlast]

/-- A slash stands between a path and what is added to it, once. -/
theorem exists_front_appendPathPart {path : Text} (hpath : path ≠ []) :
    ∃ front, (path = front ∨ path = front ++ ['/']) ∧
      ∀ part, part.head? ≠ some '/' → appendPathPart path part = front ++ '/' :: part := by
  by_cases hlast : path.getLast? = some '/'
  · obtain ⟨front, rfl⟩ := List.getLast?_eq_some_iff.1 hlast
    exact ⟨front, Or.inr rfl, fun part hpart => by simp [appendPathPart, hpart]⟩
  · exact ⟨path, Or.inl rfl, fun part hpart => by simp [appendPathPart, hpart, hpath, hlast]⟩

theorem foldl_appendPathPart {path : Text} {ws : List Text} (hpath : path ≠ [])
    (hlast : path.getLast? ≠ some '/') (h : ∀ w ∈ ws, IsEntryName w) :
    ws.foldl appendPathPart path = Text.join ['/'] (path :: ws) := by
  induction ws generalizing path with
  | nil => rfl
  | cons w ws ih =>
    have hw := h w (List.mem_cons_self ..)
    have hnext : (path ++ '/' :: w).getLast? ≠ some '/' := by
      rw [List.getLast?_append_of_ne_nil _ (List.cons_ne_nil '/' w),
        List.getLast?_cons_of_ne_nil hw.ne_nil]
      exact fun hl => hw.slash_not_mem (List.mem_of_getLast? hl)
    have hrest := ih (by simp) hnext fun v hv => h v (List.mem_cons_of_mem _ hv)
    rw [List.foldl_cons, appendPathPart_eq hpath hlast hw.slash_not_mem, hrest]
    cases ws with
    | nil => simp [Text.join]
    | cons v vs => simp [Text.join]

/-- Names that are added to an empty path are put behind each other with slashes. -/
theorem foldl_appendPathPart_nil {ws : List Text} (h : ∀ w ∈ ws, IsEntryName w) :
    ws.foldl appendPathPart [] = Text.join ['/'] ws := by
  cases ws with
  | nil => rfl
  | cons w ws =>
    have hw := h w (List.mem_cons_self ..)
    have hfirst : appendPathPart [] w = w := by simp [appendPathPart]
    rw [List.foldl_cons, hfirst]
    exact foldl_appendPathPart hw.ne_nil (fun hl => hw.slash_not_mem (List.mem_of_getLast? hl))
      fun v hv => h v (List.mem_cons_of_mem _ hv)

/-! ### Packages -/

/-- The names of the directories of a package, none for the default package. -/
def packageSegments (package : Text) : List Text :=
  if package = [] then [] else Text.split '.' package

theorem packageDir_eq {package : Text} (h : ∀ w ∈ packageSegments package, w ≠ []) :
    packageDir package = (packageSegments package).foldl appendPathPart [] := by
  unfold packageDir
  unfold packageSegments at h ⊢
  split
  · next hp => rw [hp]; rfl
  · next hp =>
    rw [if_neg hp] at h
    rw [List.filter_eq_self.2 fun w hw => by simp [h w hw]]

theorem IsIdentifier.isEntryName {s : Text} (h : IsIdentifier s) : IsEntryName s := by
  have hdot : '.' ∉ s := fun hm => absurd (h.isIdentifierPart_of_mem hm) (by decide)
  exact ⟨h.ne_nil, fun hm => absurd (h.isIdentifierPart_of_mem hm) (by decide),
    fun hs => hdot (by simp [hs]), fun hs => hdot (by simp [hs])⟩

/-! ### Files of classes -/

namespace ClassName

/-- The names that lead to the file of a class. -/
def fileNames (c : ClassName) : List Text :=
  packageSegments c.qualifier ++ [c.simple ++ ".java".toList]

/-- The segments of a class name are those of its package and its simple name. -/
theorem split_ofText {s : Text} (h : IsQualifiedName s) :
    Text.split '.' s = packageSegments (ofText s).qualifier ++ [(ofText s).simple] := by
  unfold ofText splitQualified packageSegments
  cases hl : Text.splitLast? '.' s with
  | none => exact Text.split_eq_singleton (Text.splitLast?_eq_none_iff.1 hl)
  | some p =>
    have hs := Text.eq_of_splitLast? (a := p.1) (b := p.2) hl
    have hne : p.1 ≠ [] := fun hp => h.head?_ne_dot (by rw [hs, hp]; rfl)
    have hlast := Text.split_eq_singleton (Text.not_mem_of_splitLast? (a := p.1) hl)
    rw [Option.getD_some, if_neg hne, ← hlast, ← Text.split_append, ← hs]

theorem isIdentifier_of_mem_packageSegments {s w : Text} (h : IsQualifiedName s)
    (hw : w ∈ packageSegments (ofText s).qualifier) : IsIdentifier w :=
  h w (split_ofText h ▸ List.mem_append_left _ hw)

theorem isEntryName_of_mem_fileNames {s w : Text} (h : IsQualifiedName s)
    (hw : w ∈ (ofText s).fileNames) : IsEntryName w := by
  rcases List.mem_append.1 hw with hw | hw
  · exact (isIdentifier_of_mem_packageSegments h hw).isEntryName
  · obtain rfl := List.mem_singleton.1 hw
    have hsimple : IsIdentifier (ofText s).simple := h _ (simple_mem_split s)
    have hslash := hsimple.isEntryName.slash_not_mem
    have hlong {v : Text} (hv : v.length ≤ 5) : (ofText s).simple ++ ".java".toList ≠ v := by
      intro he
      have hlen := congrArg List.length he
      have hpos := List.length_pos_iff.2 hsimple.ne_nil
      simp at hlen
      omega
    exact ⟨hlong (by simp), by simp [hslash], hlong (by simp), hlong (by simp)⟩

/-- No file lies at the place of another or of a directory that leads to another. -/
theorem eq_of_prefix_fileNames {s t : Text} (hs : IsQualifiedName s) (ht : IsQualifiedName t)
    (h : (ofText s).fileNames <+: (ofText t).fileNames) : s = t := by
  rcases List.prefix_concat_iff.1 h with heq | hdir
  · obtain ⟨hpackage, hfile⟩ := List.append_inj' heq rfl
    have hsimple := List.append_cancel_right (List.singleton_inj.1 hfile)
    rw [← Text.join_split '.' s, ← Text.join_split '.' t, split_ofText hs, split_ofText ht,
      hpackage, hsimple]
  · -- the file would be named like a segment of a package, which holds no dot
    have hfile : (ofText s).simple ++ ".java".toList ∈ packageSegments (ofText t).qualifier :=
      hdir.subset (List.mem_append_right _ (List.mem_singleton_self _))
    have hdot : '.' ∈ (ofText s).simple ++ ".java".toList := List.mem_append_right _ (by decide)
    have hpart := (isIdentifier_of_mem_packageSegments ht hfile).isIdentifierPart_of_mem hdot
    exact absurd hpart (by decide)

end ClassName

namespace CompilationUnit

/-- The path of the unit of an accepted class has the names that lead to its file. -/
theorem split_path {u : CompilationUnit} {s : Text} (hu : u.classDef.name = .ofText s)
    (h : IsQualifiedName s) : Text.split '/' u.path = (ClassName.ofText s).fileNames := by
  have hentry := fun w hw => ClassName.isEntryName_of_mem_fileNames (w := w) h hw
  have hdir : packageDir u.package =
      (packageSegments (ClassName.ofText s).qualifier).foldl appendPathPart [] := by
    rw [package, hu]
    exact packageDir_eq fun w hw => (hentry w (List.mem_append_left _ hw)).ne_nil
  have hpath : u.path = Text.join ['/'] (ClassName.ofText s).fileNames := by
    rw [path, hdir, hu, ← foldl_appendPathPart_nil hentry, ClassName.fileNames, List.foldl_append]
    rfl
  rw [hpath]
  exact Text.split_join (by simp [ClassName.fileNames]) fun w hw => (hentry w hw).slash_not_mem

end CompilationUnit

end JavaSource
