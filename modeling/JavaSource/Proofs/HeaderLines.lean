import JavaSource.CompilationUnit
import JavaSource.Proofs.TextLines

/-!
# The comment at the top of a file

A header is cut at its line feeds, and each piece is put behind two slashes. A line of a source
file ends at a lone carriage return as well, so that what stands behind one is not in the comment.
All lines in front of the package are comments exactly if behind each carriage return of the
header there is nothing, the end of the piece, or two slashes already.
-/

namespace JavaSource

namespace Text

/-! ### Lines of a source file -/

/-- The lines of a source file: a line feed, a carriage return or both end one, and what follows
the last end is a line too. -/
def sourceLines : Text → List Text
  | [] => [[]]
  | '\r' :: '\n' :: s => [] :: sourceLines s
  | c :: s =>
    if c = '\n' ∨ c = '\r' then [] :: sourceLines s else (sourceLines s).modifyHead (c :: ·)

theorem sourceLines_newline (s : Text) : sourceLines ('\n' :: s) = [] :: sourceLines s := by
  rw [sourceLines, if_pos (Or.inl rfl)]
  rintro t h
  exact absurd h (by decide)

theorem sourceLines_return {s : Text} (h : s.head? ≠ some '\n') :
    sourceLines ('\r' :: s) = [] :: sourceLines s := by
  rw [sourceLines, if_pos (Or.inr rfl)]
  rintro t - rfl
  exact h rfl

theorem sourceLines_cons {c : Char} (hn : c ≠ '\n') (hr : c ≠ '\r') (s : Text) :
    sourceLines (c :: s) = (sourceLines s).modifyHead (c :: ·) := by
  rw [sourceLines, if_neg (not_or.2 ⟨hn, hr⟩)]
  rintro t h
  exact absurd h hr

/-- The break behind a line takes a carriage return in front of it along. -/
theorem sourceLines_line {a : Text} (h : '\n' ∉ a) (b : Text) :
    sourceLines (a ++ '\n' :: b) = split '\r' (dropReturn a) ++ sourceLines b := by
  induction a with
  | nil => exact sourceLines_newline b
  | cons c a ih =>
    obtain ⟨hc, ha⟩ := List.ne_and_not_mem_of_not_mem_cons h
    have hrest := ih ha
    by_cases hr : c = '\r'
    · subst hr
      cases a with
      | nil => rfl
      | cons d a =>
        have hd : (d :: a ++ '\n' :: b).head? ≠ some '\n' := by
          simpa using (List.ne_of_not_mem_cons ha).symm
        rw [List.cons_append, sourceLines_return hd, hrest, dropReturn_cons_cons, split,
          if_pos rfl, List.cons_append]
    · have hdrop := dropReturn_cons_of_ne hr a
      obtain ⟨l, ls, hl⟩ := List.exists_cons_of_ne_nil (split_ne_nil '\r' (dropReturn a))
      rw [List.cons_append, sourceLines_cons hc.symm hr, hrest, hdrop, split, if_neg hr, hl]
      rfl

/-! ### What stands behind a separator -/

/-- Each occurrence of a character has something behind it that is as described. -/
def Behind (sep : Char) (p : Text → Prop) (s : Text) : Prop :=
  ∀ a b, s = a ++ sep :: b → p b

section Behind

variable {sep : Char} {p q : Text → Prop}

theorem behind_nil : Behind sep p [] := by
  intro a b h
  simp at h

theorem behind_cons {c : Char} {s : Text} :
    Behind sep p (c :: s) ↔ (c = sep → p s) ∧ Behind sep p s := by
  constructor
  · intro h
    exact ⟨fun hc => h [] s (by rw [hc, List.nil_append]),
      fun a b hs => h (c :: a) b (by rw [hs, List.cons_append])⟩
  · rintro ⟨hfirst, hrest⟩ a b hs
    cases a with
    | nil =>
      obtain ⟨hc, rfl⟩ := List.cons.inj hs
      exact hfirst hc
    | cons d a => exact hrest a b (List.cons.inj hs).2

theorem behind_append {s t : Text} :
    Behind sep p (s ++ t) ↔ Behind sep (fun b => p (b ++ t)) s ∧ Behind sep p t := by
  induction s with
  | nil => simp [behind_nil]
  | cons c s ih => rw [List.cons_append, behind_cons, behind_cons, ih, and_assoc]

theorem behind_congr {s : Text} (h : ∀ a b, s = a ++ sep :: b → (p b ↔ q b)) :
    Behind sep p s ↔ Behind sep q s := by
  unfold Behind
  exact forall_congr' fun a => forall_congr' fun b => forall_congr' fun hs => h a b hs

end Behind

theorem behind_dropReturn {p : Text → Prop} (s : Text) :
    Behind '\r' p (dropReturn s) ↔ Behind '\r' (fun b => b = [] ∨ p (dropReturn b)) s := by
  rcases List.eq_nil_or_concat s with rfl | ⟨front, c, rfl⟩
  · simp [behind_nil]
  · rw [List.concat_eq_append, dropReturn_concat, behind_append]
    by_cases hc : c = '\r'
    · simp [hc, dropReturn_concat, behind_cons, behind_nil]
    · simp [hc, dropReturn_concat, behind_append, behind_cons, behind_nil]

theorem prefix_dropReturn_iff {w : Text} (hw : '\r' ∉ w) (s : Text) :
    w <+: dropReturn s ↔ w <+: s := by
  rcases List.eq_nil_or_concat s with rfl | ⟨front, c, rfl⟩
  · rfl
  · rw [List.concat_eq_append, dropReturn_concat]
    split
    · next hc =>
      have hne : w ≠ front ++ [c] := fun h => hw (by simp [h, hc])
      simp [List.prefix_concat_iff, hne]
    · rfl

/-! ### Pieces with a common start -/

theorem prefix_head_split_iff {w : Text} {sep : Char} (hw : sep ∉ w) (s : Text) :
    w <+: (split sep s).headD [] ↔ w <+: s := by
  induction s generalizing w with
  | nil => rfl
  | cons c s ih =>
    obtain ⟨p, ps, hs⟩ := List.exists_cons_of_ne_nil (split_ne_nil sep s)
    cases w with
    | nil => simp
    | cons d w =>
      obtain ⟨hd, hrest⟩ := List.ne_and_not_mem_of_not_mem_cons hw
      have hih := ih hrest
      rw [hs, List.headD_cons] at hih
      by_cases hc : c = sep
      · simp [split, hc, hd.symm, List.cons_prefix_cons]
      · simp [split, hc, hs, List.cons_prefix_cons, hih]

/-- All pieces but the first start in the same way exactly if so does what stands behind each
separator. -/
theorem forall_mem_tail_split_iff {w : Text} {sep : Char} (hw : sep ∉ w) (s : Text) :
    (∀ p ∈ (split sep s).tail, w <+: p) ↔ Behind sep (w <+: ·) s := by
  induction s with
  | nil => simp [split, behind_nil]
  | cons c s ih =>
    obtain ⟨p, ps, hs⟩ := List.exists_cons_of_ne_nil (split_ne_nil sep s)
    have hp := prefix_head_split_iff hw s
    rw [hs] at hp ih
    simp only [List.headD_cons, List.tail_cons] at hp ih
    by_cases hc : c = sep
    · simp [split, hc, hs, behind_cons, hp, ih]
    · simp [split, hc, hs, behind_cons, ih]

/-! ### Physical lines -/

theorem lines_of_not_mem {s : Text} (h : '\n' ∉ s) : lines s = if s = [] then [] else [s] := by
  rw [lines, split_eq_singleton h, lines.go]
  simp

theorem lines_line {a : Text} (h : '\n' ∉ a) (b : Text) :
    lines (a ++ '\n' :: b) = dropReturn a :: lines b := by
  obtain ⟨l, ls, hb⟩ := List.exists_cons_of_ne_nil (split_ne_nil '\n' b)
  rw [lines, lines, split_append, split_eq_singleton h, hb]
  rfl

theorem newline_not_mem_lines (s : Text) : ∀ l ∈ lines s, '\n' ∉ l := by
  induction s using lineInduction with
  | last s h =>
    rw [lines_of_not_mem h]
    split
    · simp
    · simpa using h
  | line a b h ih =>
    rw [lines_line h]
    exact List.forall_mem_cons.2 ⟨fun hm => h (dropReturn_subset a hm), ih⟩

end Text

namespace CompilationUnit

open Text

/-! ### Lines of a header -/

/-- A piece of a header, made a line comment. -/
def lineComment (l : Text) : Text := if l.isEmpty then ['/', '/'] else ['/', '/', ' '] ++ l

/-- The lines of a source file that are written for a header. -/
def headerLines (header : Text) : List Text :=
  (lines header).flatMap fun l => split '\r' (dropReturn (lineComment l))

theorem sourceLines_headerLayout (indent : Indent) {ls : List Text} (h : ∀ l ∈ ls, '\n' ∉ l)
    (rest : Text) :
    sourceLines (Layout.render indent (ls.map headerLine) ++ rest) =
      (ls.flatMap fun l => split '\r' (dropReturn (lineComment l))) ++ sourceLines rest := by
  induction ls with
  | nil => rfl
  | cons l ls ih =>
    obtain ⟨hl, hrest⟩ := List.forall_mem_cons.1 h
    have hline : '\n' ∉ lineComment l := by
      unfold lineComment
      split <;> simp [hl]
    have hrender : Layout.render indent ((l :: ls).map headerLine) =
        lineComment l ++ '\n' :: Layout.render indent (ls.map headerLine) := by
      rw [List.map_cons, ← List.singleton_append, Layout.render_append]
      simp [Layout.render, Layout.opsAll, Layout.ops, headerLine, WriteOp.render, lineComment]
    rw [hrender, List.append_assoc, List.cons_append, sourceLines_line hline, ih hrest,
      List.flatMap_cons, List.append_assoc]

theorem sourceLines_render (u : CompilationUnit) (header : Text) (indent : Indent) :
    sourceLines ({ u with header := some header }.render indent) =
      headerLines header ++ [] :: sourceLines ({ u with header := none }.render indent) := by
  have hlayout : { u with header := some header }.layout =
      (lines header).map headerLine ++ (.blank :: { u with header := none }.layout) := by
    simp only [layout, headerLayout, List.append_assoc, List.singleton_append, List.nil_append]
    rfl
  have hrender : { u with header := some header }.render indent =
      Layout.render indent ((lines header).map headerLine) ++
        '\n' :: { u with header := none }.render indent := by
    rw [render, hlayout, Layout.render_append]
    rfl
  rw [hrender, sourceLines_headerLayout indent (newline_not_mem_lines header), sourceLines_newline]
  rfl

/-- What may stand behind a carriage return of a header: nothing, an end of a line, or slashes. -/
def StaysCommented (s : Text) : Prop :=
  s = [] ∨ ['\n'] <+: s ∨ ['\r', '\n'] <+: s ∨ ['/', '/'] <+: s

theorem forall_mem_lineComment_iff (l : Text) :
    (∀ x ∈ split '\r' (dropReturn (lineComment l)), ['/', '/'] <+: x) ↔
      Behind '\r' (fun b => b = [] ∨ ['/', '/'] <+: b) l := by
  have hslashes : '\r' ∉ ['/', '/'] := by decide
  have hbehind := behind_dropReturn (p := (['/', '/'] <+: ·)) l
  simp only [prefix_dropReturn_iff hslashes] at hbehind
  rw [← hbehind]
  cases l with
  | nil => simp [lineComment, dropReturn_cons_of_ne, split, behind_nil]
  | cons c l =>
    obtain ⟨p, ps, hs⟩ := List.exists_cons_of_ne_nil (split_ne_nil '\r' (dropReturn (c :: l)))
    have hpieces : split '\r' (dropReturn (lineComment (c :: l))) =
        ('/' :: '/' :: ' ' :: p) :: ps := by
      simp [lineComment, dropReturn_cons_of_ne, split, hs]
    have htail := forall_mem_tail_split_iff hslashes (dropReturn (c :: l))
    rw [hs, List.tail_cons] at htail
    rw [hpieces, List.forall_mem_cons, htail]
    simp

theorem staysCommented_append_iff {s : Text} (h : '\n' ∉ s) (t : Text) :
    StaysCommented (s ++ '\n' :: t) ↔ s = [] ∨ dropReturn s = [] ∨ ['/', '/'] <+: s := by
  match s with
  | [] => simp [StaysCommented]
  | [c] =>
    have hc : c ≠ '\n' := fun hc => h (List.mem_singleton.2 hc.symm)
    have hdrop : dropReturn [c] = [] ↔ c = '\r' := by
      rw [← List.nil_append [c], dropReturn_concat]
      split <;> simp_all
    simp [StaysCommented, hdrop, List.cons_prefix_cons, hc.symm, eq_comm]
  | c :: d :: s =>
    have hc : c ≠ '\n' := fun hc => h (hc ▸ List.mem_cons_self ..)
    have hd : d ≠ '\n' := fun hd => h (by simp [hd])
    simp [StaysCommented, dropReturn_cons_cons, List.cons_prefix_cons, hc.symm, hd.symm]

theorem forall_mem_headerLines_iff (header : Text) :
    (∀ l ∈ headerLines header, ['/', '/'] <+: l) ↔ Behind '\r' StaysCommented header := by
  have hlines : (∀ l ∈ headerLines header, ['/', '/'] <+: l) ↔
      ∀ l ∈ lines header, Behind '\r' (fun b => b = [] ∨ ['/', '/'] <+: b) l := by
    simp only [headerLines, List.forall_mem_flatMap, forall_mem_lineComment_iff]
  rw [hlines]
  clear hlines
  induction header using lineInduction with
  | last s h =>
    have hlast : Behind '\r' (fun b => b = [] ∨ ['/', '/'] <+: b) s ↔
        Behind '\r' StaysCommented s := by
      refine behind_congr fun a b hs => ?_
      have hb : '\n' ∉ b := fun hm => h (by simp [hs, hm])
      have hnewline : ∀ w : Text, '\n' ∈ w → ¬ w <+: b := fun w hw hp => hb (hp.subset hw)
      simp [StaysCommented, hnewline]
    rw [lines_of_not_mem h, ← hlast]
    split
    · next hs => simp [hs, behind_nil]
    · rw [List.forall_mem_singleton]
  | line a b h ih =>
    have hslashes : '\r' ∉ ['/', '/'] := by decide
    have hline : Behind '\r' (fun b => b = [] ∨ ['/', '/'] <+: b) (dropReturn a) ↔
        Behind '\r' (fun y => StaysCommented (y ++ '\n' :: b)) a := by
      rw [behind_dropReturn]
      refine behind_congr fun x y ha => ?_
      have hy : '\n' ∉ y := fun hm => h (by simp [ha, hm])
      rw [staysCommented_append_iff hy, prefix_dropReturn_iff hslashes]
    have hrest : Behind '\r' StaysCommented ('\n' :: b) ↔ Behind '\r' StaysCommented b := by
      simp [behind_cons]
    rw [lines_line h, List.forall_mem_cons, hline, behind_append, hrest]
    exact and_congr_right fun _ => ih

/-- The lines of a file above the empty line behind its header are comments exactly if behind
each carriage return of the header there is nothing, an end of a line, or the start of a comment. -/
theorem header_lines_commented_iff (u : CompilationUnit) (header : Text) (indent : Indent) :
    ∃ above, sourceLines ({ u with header := some header }.render indent) =
        above ++ [] :: sourceLines ({ u with header := none }.render indent) ∧
      ((∀ l ∈ above, ['/', '/'] <+: l) ↔
        ∀ a b, header = a ++ '\r' :: b →
          b = [] ∨ ['\n'] <+: b ∨ ['\r', '\n'] <+: b ∨ ['/', '/'] <+: b) :=
  ⟨headerLines header, sourceLines_render u header indent, forall_mem_headerLines_iff header⟩

example : headerLines "Generated.\r\n\nDo not edit.\r".toList =
    ["// Generated.".toList, "//".toList, "// Do not edit.".toList] := by
  decide +kernel

def returnedHeader : CompilationUnit where
  classDef := { name := .ofText "p.A".toList }
  header := some "Generated.\rclass Stray \x7b\x7d".toList

theorem returnedHeader_not_commented :
    ¬ ∃ above, sourceLines (returnedHeader.render .standard) =
        above ++ [] :: sourceLines ({ returnedHeader with header := none }.render .standard) ∧
      ∀ l ∈ above, ['/', '/'] <+: l := by
  have hlines : sourceLines (returnedHeader.render .standard) =
      ["// Generated.".toList, "class Stray \x7b\x7d".toList] ++
        [] :: sourceLines ({ returnedHeader with header := none }.render .standard) := by
    decide +kernel
  rintro ⟨above, habove, hslashes⟩
  rw [hlines, List.append_cancel_right_eq] at habove
  rw [← habove] at hslashes
  exact absurd hslashes (by decide)

end CompilationUnit

end JavaSource
