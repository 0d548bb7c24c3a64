import JavaSource.Text.Basic

/-!
# Occurrences of a pattern

Where a pattern stands in a text, as byte offsets. Occurrences are found from left to right and
do not overlap.
-/

namespace JavaSource.Text

/-- The byte offsets of a pattern in a text that starts at `offset`, where the next `skip`
characters belong to an occurrence already found. -/
def occurrencesFrom (pattern : Text) : (offset skip : Nat) → Text → List Nat
  | _, _, [] => []
  | offset, skip + 1, c :: s => occurrencesFrom pattern (offset + c.utf8Size) skip s
  | offset, 0, c :: s =>
    if pattern.isPrefixOf (c :: s) then
      offset :: occurrencesFrom pattern (offset + c.utf8Size) (pattern.length - 1) s
    else occurrencesFrom pattern (offset + c.utf8Size) 0 s

/-- The byte offsets of all occurrences of a pattern that is not empty. -/
def occurrences (pattern s : Text) : List Nat := occurrencesFrom pattern 0 0 s

def firstOccurrence? (pattern s : Text) : Option Nat := (occurrences pattern s).head?

/-- Every offset found cuts the text in two, the second part beginning with the pattern. -/
theorem exists_of_mem_occurrencesFrom {pattern s : Text} {offset skip i : Nat}
    (h : i ∈ occurrencesFrom pattern offset skip s) :
    ∃ before after, s = before ++ pattern ++ after ∧ i = offset + width before := by
  induction s generalizing offset skip with
  | nil => simp [occurrencesFrom] at h
  | cons c s ih =>
    have step {k : Nat} (hk : i ∈ occurrencesFrom pattern (offset + c.utf8Size) k s) :
        ∃ before after, c :: s = before ++ pattern ++ after ∧ i = offset + width before := by
      obtain ⟨before, after, hs, hi⟩ := ih hk
      refine ⟨c :: before, after, by rw [hs]; simp, ?_⟩
      rw [hi, width_cons]
      omega
    cases skip with
    | succ skip => exact step h
    | zero =>
      simp only [occurrencesFrom] at h
      split at h
      · next hp =>
        rcases List.mem_cons.1 h with rfl | h
        · obtain ⟨after, ha⟩ := List.isPrefixOf_iff_prefix.1 hp
          exact ⟨[], after, by simp [ha], by simp⟩
        · exact step h
      · exact step h

theorem exists_of_mem_occurrences {pattern s : Text} {i : Nat} (h : i ∈ occurrences pattern s) :
    ∃ before after, s = before ++ pattern ++ after ∧ i = width before := by
  obtain ⟨before, after, hs, hi⟩ := exists_of_mem_occurrencesFrom h
  exact ⟨before, after, hs, by omega⟩

end JavaSource.Text
