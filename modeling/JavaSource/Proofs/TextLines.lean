import JavaSource.Layout.Basic
import JavaSource.Proofs.QualifiedName

/-!
# What is written for a text

A text is a row of lines, each ended by a line break, and what follows the last break. Written as
a layout it reads the same, but that a carriage return goes with the break behind it.
-/

namespace JavaSource

namespace Text

/-- Follows a text line by line: a text without a break, or a line and the text behind it. -/
@[elab_as_elim]
theorem lineInduction {motive : Text → Prop} (last : ∀ s, '\n' ∉ s → motive s)
    (line : ∀ a b, '\n' ∉ a → motive b → motive (a ++ '\n' :: b)) (s : Text) : motive s := by
  -- what has been read of a line stands in front of the text
  have key : ∀ a, '\n' ∉ a → motive (a ++ s) := by
    induction s with
    | nil =>
      intro a ha
      rw [List.append_nil]
      exact last a ha
    | cons c s ih =>
      intro a ha
      by_cases hc : c = '\n'
      · rw [hc]
        exact line a s ha (ih [] List.not_mem_nil)
      · rw [List.append_cons]
        refine ih (a ++ [c]) ?_
        simp [ha, Ne.symm hc]
  exact key [] List.not_mem_nil

/-- Each carriage return directly before a line break left out. -/
def unifyBreaks : Text → Text
  | [] => []
  | '\r' :: '\n' :: s => '\n' :: unifyBreaks s
  | c :: s => c :: unifyBreaks s

@[simp] theorem dropReturn_nil : dropReturn [] = [] := rfl

theorem dropReturn_concat (s : Text) (c : Char) :
    dropReturn (s ++ [c]) = if c = '\r' then s else s ++ [c] := by
  by_cases hc : c = '\r'
  · simp [dropReturn, List.isSuffixOf?, List.isPrefixOf?, hc]
  · simp [dropReturn, List.isSuffixOf?, List.isPrefixOf?, hc, Ne.symm hc]

theorem dropReturn_cons_cons (c d : Char) (s : Text) :
    dropReturn (c :: d :: s) = c :: dropReturn (d :: s) := by
  obtain ⟨front, e, he⟩ := List.eq_nil_or_concat (d :: s) |>.resolve_left (List.cons_ne_nil d s)
  rw [he, List.concat_eq_append, ← List.cons_append, dropReturn_concat, dropReturn_concat]
  split <;> rfl

theorem dropReturn_cons_of_ne {c : Char} (hc : c ≠ '\r') (s : Text) :
    dropReturn (c :: s) = c :: dropReturn s := by
  cases s with
  | nil => exact (dropReturn_concat [] c).trans (if_neg hc)
  | cons d s => exact dropReturn_cons_cons c d s

theorem dropReturn_subset (s : Text) : dropReturn s ⊆ s := by
  rcases List.eq_nil_or_concat s with rfl | ⟨front, e, rfl⟩
  · exact List.Subset.refl _
  · rw [List.concat_eq_append, dropReturn_concat]
    split
    · exact List.subset_append_left _ _
    · exact List.Subset.refl _

theorem unifyBreaks_eq_self {s : Text} (h : '\n' ∉ s) : unifyBreaks s = s := by
  fun_induction unifyBreaks s with
  | case1 => rfl
  | case2 s ih => simp at h
  | case3 c s hc ih => rw [ih fun hs => h (List.mem_cons_of_mem _ hs)]

theorem unifyBreaks_cons_of_ne {d : Char} (hd : d ≠ '\n') (c : Char) (s : Text) :
    unifyBreaks (c :: d :: s) = c :: unifyBreaks (d :: s) := by
  rw [unifyBreaks]
  rintro t - h
  exact hd (List.cons.inj h).1

theorem unifyBreaks_line {a : Text} (h : '\n' ∉ a) (b : Text) :
    unifyBreaks (a ++ '\n' :: b) = dropReturn a ++ '\n' :: unifyBreaks b := by
  induction a with
  | nil => simp [unifyBreaks]
  | cons c a ih =>
    have htail : '\n' ∉ a := fun ha => h (List.mem_cons_of_mem _ ha)
    cases a with
    | nil =>
      -- the last character of the line is dropped or not
      have hlast := dropReturn_concat [] c
      by_cases hc : c = '\r'
      · simp_all [unifyBreaks]
      · simp_all [unifyBreaks]
    | cons d a =>
      have hd : d ≠ '\n' := fun hd => htail (hd ▸ List.mem_cons_self ..)
      have hrest := ih htail
      rw [List.cons_append, List.cons_append, unifyBreaks_cons_of_ne hd, dropReturn_cons_cons,
        ← List.cons_append, hrest]
      rfl

/-- A text may be cut anywhere but inside the end of a line. -/
theorem unifyBreaks_append {s t : Text}
    (h : s.getLast? = some '\r' → t.head? ≠ some '\n') :
    unifyBreaks (s ++ t) = unifyBreaks s ++ unifyBreaks t := by
  fun_induction unifyBreaks s with
  | case1 => rfl
  | case2 s ih =>
    have hrest := ih fun hs => h (by simp [List.getLast?_cons, hs])
    rw [List.cons_append, List.cons_append, unifyBreaks, hrest]
    rfl
  | case3 c s hc ih =>
    have hrest := ih fun hs => h (by simp [List.getLast?_cons, hs])
    rw [List.cons_append, unifyBreaks, hrest]
    · rfl
    · rintro u rfl hu
      cases s with
      | nil => exact h rfl (List.head?_eq_some_iff.2 ⟨u, hu⟩)
      | cons d s => exact hc s rfl (by rw [(List.cons.inj hu).1])

end Text

/-! ### Layouts of texts -/

namespace Layout

open Text

theorem ofText_eq_of_not_mem {s : Text} (h : '\n' ∉ s) :
    ofText s = if s = [] then [] else [.text s] := by
  rw [ofText, split_eq_singleton h, ofText.go]
  simp

theorem ofText_line {a : Text} (h : '\n' ∉ a) (b : Text) :
    ofText (a ++ '\n' :: b) = .line (dropReturn a) :: ofText b := by
  obtain ⟨l, ls, hb⟩ := List.exists_cons_of_ne_nil (split_ne_nil '\n' b)
  rw [ofText, ofText, split_append, split_eq_singleton h, hb]
  rfl

/-- A text is written as it is, but for the carriage returns in front of line breaks. -/
theorem renderAll_ofText (unit s : Text) :
    WriteOp.renderAll (opsAll unit (ofText s)) = unifyBreaks s := by
  induction s using lineInduction with
  | last s h =>
    rw [ofText_eq_of_not_mem h, unifyBreaks_eq_self h]
    split <;> simp_all [opsAll, ops, WriteOp.render]
  | line a b h ih =>
    rw [ofText_line h, unifyBreaks_line h, opsAll, WriteOp.renderAll_append, ih]
    simp [ops, WriteOp.render]

end Layout

end JavaSource
