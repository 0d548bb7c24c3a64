import JavaSource.ClassName
import Mathlib.Data.List.Basic

/-!
# Qualified names and the classes they name

A qualified name is accepted exactly if all its segments are identifiers. Such a name names a
class with a simple name, and no simple name of a class that is read from a text holds a dot.
-/

namespace JavaSource

/-! ### Cuts at a separator -/

namespace Text

theorem split_append (sep : Char) (a b : Text) :
    split sep (a ++ sep :: b) = split sep a ++ split sep b := by
  induction a with
  | nil => simp [split]
  | cons c a ih =>
    simp only [List.cons_append, split, ih]
    split
    · rfl
    · obtain ⟨w, ws, hw⟩ := List.exists_cons_of_ne_nil (split_ne_nil sep a)
      simp [hw]

theorem split_eq_singleton {sep : Char} {s : Text} (h : sep ∉ s) : split sep s = [s] := by
  induction s with
  | nil => rfl
  | cons c s ih =>
    have hc : c ≠ sep := fun hc => h (hc ▸ List.mem_cons_self ..)
    have hs : sep ∉ s := fun hs => h (List.mem_cons_of_mem _ hs)
    simp [split, hc, ih hs]

theorem sep_not_mem_of_mem_split {sep : Char} {s w : Text} (h : w ∈ split sep s) : sep ∉ w := by
  induction s generalizing w with
  | nil =>
    rw [split, List.mem_singleton] at h
    rw [h]
    exact List.not_mem_nil
  | cons c s ih =>
    rw [split] at h
    split at h
    · rcases List.mem_cons.1 h with rfl | h
      · exact List.not_mem_nil
      · exact ih h
    · next hc =>
      obtain ⟨v, vs, hv⟩ := List.exists_cons_of_ne_nil (split_ne_nil sep s)
      rw [hv] at h ih
      rcases List.mem_cons.1 h with rfl | h
      · have hne : sep ≠ c := fun hsep => hc hsep.symm
        have hv := ih (List.mem_cons_self ..)
        simp [hne, hv]
      · exact ih (List.mem_cons_of_mem _ h)

theorem mem_of_mem_join {sep : Text} {ws : List Text} {c : Char} (h : c ∈ join sep ws) :
    c ∈ sep ∨ ∃ w ∈ ws, c ∈ w := by
  induction ws with
  | nil => simp [join] at h
  | cons w ws ih =>
    cases ws with
    | nil => exact Or.inr ⟨w, List.mem_cons_self .., h⟩
    | cons v vs =>
      rw [join, List.append_assoc, List.mem_append, List.mem_append] at h
      rcases h with h | h | h
      · exact Or.inr ⟨w, List.mem_cons_self .., h⟩
      · exact Or.inl h
      · rcases ih h with h | ⟨u, hu, h⟩
        · exact Or.inl h
        · exact Or.inr ⟨u, List.mem_cons_of_mem _ hu, h⟩

theorem splitLast?_eq_none_iff {sep : Char} {s : Text} : splitLast? sep s = none ↔ sep ∉ s := by
  induction s with
  | nil => simp [splitLast?]
  | cons c s ih =>
    rw [splitLast?, List.mem_cons, not_or]
    cases hs : splitLast? sep s with
    | none =>
      have hsep : sep ∉ s := ih.1 hs
      by_cases hc : c = sep
      · simp [hc]
      · simp [hc, hsep, Ne.symm hc]
    | some p =>
      have hsep : ¬sep ∉ s := fun h => by simp [ih.2 h] at hs
      simp [hsep]

theorem not_mem_of_splitLast? {sep : Char} {s a b : Text} (h : splitLast? sep s = some (a, b)) :
    sep ∉ b := by
  induction s generalizing a with
  | nil => simp [splitLast?] at h
  | cons c s ih =>
    rw [splitLast?] at h
    cases hs : splitLast? sep s with
    | none =>
      simp only [hs] at h
      split at h
      · obtain ⟨rfl, rfl⟩ := Prod.mk.inj (Option.some_inj.1 h)
        exact splitLast?_eq_none_iff.1 hs
      · simp at h
    | some p =>
      simp only [hs, Option.some_inj, Prod.mk.injEq] at h
      obtain ⟨rfl, rfl⟩ := h
      exact ih (a := p.1) hs

theorem splitLast?_append {sep : Char} {b : Text} (a : Text) (h : sep ∉ b) :
    splitLast? sep (a ++ sep :: b) = some (a, b) := by
  induction a with
  | nil => simp [splitLast?, splitLast?_eq_none_iff.2 h]
  | cons c a ih => simp [splitLast?, ih]

end Text

/-! ### Accepted names -/

/-- A text all of whose segments between dots are identifiers. -/
def IsQualifiedName (s : Text) : Prop := ∀ segment ∈ Text.split '.' s, IsIdentifier segment

theorem IsIdentifier.ne_nil {s : Text} (h : IsIdentifier s) : s ≠ [] := by
  obtain ⟨c, rest, rfl, -⟩ := h
  exact List.cons_ne_nil c rest

theorem IsIdentifier.not_isReserved {s : Text} (h : IsIdentifier s) : isReserved s = false := by
  obtain ⟨c, rest, -, hr, -⟩ := h
  exact hr

theorem IsIdentifier.isIdentifierPart_of_mem {s : Text} (h : IsIdentifier s) {c : Char}
    (hc : c ∈ s) : isIdentifierPart c = true := by
  obtain ⟨d, rest, rfl, -, hd, hrest⟩ := h
  rcases List.mem_cons.1 hc with rfl | hc
  · exact isIdentifierPart_of_start hd
  · exact hrest c hc

theorem segmentProblem?_eq_none_iff {s : Text} : segmentProblem? s = none ↔ IsIdentifier s := by
  unfold segmentProblem?
  cases s with
  | nil => simp [IsIdentifier]
  | cons c s => simp [identifierProblem?_eq_none_iff]

theorem qualifiedNameProblem?_eq_none_iff {s : Text} :
    qualifiedNameProblem? s = none ↔ IsQualifiedName s := by
  unfold qualifiedNameProblem? IsQualifiedName
  cases s with
  | nil => simp [Text.split, IsIdentifier]
  | cons c s => simp [List.findSome?_eq_none_iff, segmentProblem?_eq_none_iff]

/-- A qualified name holds nothing but identifiers and dots. -/
theorem IsQualifiedName.dot_or_isIdentifierPart {s : Text} (h : IsQualifiedName s) {c : Char}
    (hc : c ∈ s) : c = '.' ∨ isIdentifierPart c = true := by
  rw [← Text.join_split '.' s] at hc
  rcases Text.mem_of_mem_join hc with hc | ⟨segment, hsegment, hc⟩
  · exact Or.inl (List.mem_singleton.1 hc)
  · exact Or.inr ((h segment hsegment).isIdentifierPart_of_mem hc)

theorem IsQualifiedName.slash_not_mem {s : Text} (h : IsQualifiedName s) : '/' ∉ s := by
  intro hm
  have hpart := h.dot_or_isIdentifierPart hm
  exact absurd hpart (by decide)

/-- The first segment of a qualified name is not empty. -/
theorem IsQualifiedName.head?_ne_dot {s : Text} (h : IsQualifiedName s) : s.head? ≠ some '.' := by
  intro hdot
  obtain ⟨rest, rfl⟩ := List.head?_eq_some_iff.1 hdot
  have hempty : [] ∈ Text.split '.' ('.' :: rest) := by simp [Text.split]
  exact (h [] hempty).ne_nil rfl

/-! ### Classes read from texts -/

namespace ClassName

theorem dot_not_mem_simple_ofText (s : Text) : '.' ∉ (ofText s).simple := by
  unfold ofText splitQualified
  cases hs : Text.splitLast? '.' s with
  | none => exact Text.splitLast?_eq_none_iff.1 hs
  | some p => exact Text.not_mem_of_splitLast? (a := p.1) hs

theorem simple_mem_split (s : Text) : (ofText s).simple ∈ Text.split '.' s := by
  unfold ofText splitQualified
  cases hs : Text.splitLast? '.' s with
  | none =>
    rw [Text.split_eq_singleton (Text.splitLast?_eq_none_iff.1 hs)]
    exact List.mem_singleton.2 rfl
  | some p =>
    have hp := Text.eq_of_splitLast? (a := p.1) (b := p.2) hs
    rw [hp, Text.split_append, Text.split_eq_singleton (Text.not_mem_of_splitLast? (a := p.1) hs)]
    exact List.mem_append_right _ (List.mem_singleton.2 rfl)

theorem simple_ofText_ne_nil {s : Text} (h : IsQualifiedName s) : (ofText s).simple ≠ [] :=
  (h _ (simple_mem_split s)).ne_nil

/-- The class of an accepted name is written without slashes. -/
theorem slash_not_mem_ofText {s : Text} (h : IsQualifiedName s) :
    '/' ∉ (ofText s).simple ∧ '/' ∉ (ofText s).qualified := by
  have hs := h.slash_not_mem
  have hparts : '/' ∉ (ofText s).qualifier ∧ '/' ∉ (ofText s).simple := by
    unfold ofText splitQualified
    cases hl : Text.splitLast? '.' s with
    | none => exact ⟨List.not_mem_nil, hs⟩
    | some p =>
      rw [Text.eq_of_splitLast? (a := p.1) (b := p.2) hl] at hs
      simpa using hs
  refine ⟨hparts.2, ?_⟩
  unfold qualified
  split
  · exact hparts.2
  · simp [hparts.1, hparts.2]

/-- Classes with a qualifier and without a dot in their simple names are written in full by
different texts. -/
theorem eq_of_qualified_eq {c d : ClassName} (hc : '.' ∉ c.simple) (hd : '.' ∉ d.simple)
    (hqc : c.qualifier ≠ []) (hqd : d.qualifier ≠ []) (h : c.qualified = d.qualified) : c = d := by
  have hlast : ∀ e : ClassName, '.' ∉ e.simple → e.qualifier ≠ [] →
      Text.splitLast? '.' e.qualified = some (e.qualifier, e.simple) := by
    intro e he hq
    have hempty : e.qualifier.isEmpty = false := by simp [hq]
    simp only [qualified, hempty, Bool.false_eq_true, if_false]
    exact Text.splitLast?_append e.qualifier he
  have hsame := (congrArg (Text.splitLast? '.') h).trans (hlast d hd hqd)
  have hsome := (hlast c hc hqc).symm.trans hsame
  obtain ⟨hq, hs⟩ := Prod.mk.inj (Option.some_inj.1 hsome)
  cases c
  cases d
  simp_all

end ClassName

end JavaSource
