/-!
# Text as a list of characters

Every name, type text, source line and file of this library is a `Text`: a list of Unicode
scalar values. This module holds the cuts that the formats of the library need: the pieces
between separators, a cut at the first or last separator, physical lines, and widths in UTF-8
bytes.
-/

namespace JavaSource

abbrev Text := List Char

namespace Text

/-! ### Pieces and separators -/

/-- The pieces of a text between the occurrences of a separator: always one more than there are
separators. -/
def split (sep : Char) : Text → List Text
  | [] => [[]]
  | c :: s => if c = sep then [] :: split sep s else (split sep s).modifyHead (c :: ·)

theorem split_ne_nil (sep : Char) (s : Text) : split sep s ≠ [] := by
  induction s with
  | nil => simp [split]
  | cons c s ih =>
    simp only [split]
    split
    · simp
    · cases h : split sep s with
      | nil => exact absurd h ih
      | cons w ws => simp

/-- Texts one after the other with a separator between two of them. -/
def join (sep : Text) : List Text → Text
  | [] => []
  | [s] => s
  | s :: t :: rest => s ++ sep ++ join sep (t :: rest)

/-- Joining the pieces with their separator gives the text back. -/
theorem join_split (sep : Char) (s : Text) : join [sep] (split sep s) = s := by
  induction s with
  | nil => rfl
  | cons c s ih =>
    cases h : split sep s with
    | nil => exact absurd h (split_ne_nil sep s)
    | cons w ws =>
      rw [h] at ih
      by_cases hc : c = sep
      · simp [split, hc, h, join, ih]
      · cases ws with
        | nil => simp [split, hc, h, join] at ih ⊢; exact ih
        | cons v vs => simp [split, hc, h, join] at ih ⊢; exact ih

/-- The two parts around the first separator, if there is one. -/
def splitFirst? (sep : Char) : Text → Option (Text × Text)
  | [] => none
  | c :: s =>
    if c = sep then some ([], s) else (splitFirst? sep s).map fun p => (c :: p.1, p.2)

theorem eq_of_splitFirst? {sep : Char} {s a b : Text} (h : splitFirst? sep s = some (a, b)) :
    s = a ++ sep :: b := by
  induction s generalizing a with
  | nil => simp [splitFirst?] at h
  | cons c s ih =>
    simp only [splitFirst?] at h
    split at h
    · next hc => simp_all
    · obtain ⟨p, hp, hq⟩ := Option.map_eq_some_iff.1 h
      simp only [Prod.mk.injEq] at hq
      rw [← hq.1, ih (a := p.1) (by rw [hp, ← hq.2])]
      rfl

/-- The two parts around the last separator, if there is one. -/
def splitLast? (sep : Char) : Text → Option (Text × Text)
  | [] => none
  | c :: s =>
    match splitLast? sep s with
    | some p => some (c :: p.1, p.2)
    | none => if c = sep then some ([], s) else none

theorem eq_of_splitLast? {sep : Char} {s a b : Text} (h : splitLast? sep s = some (a, b)) :
    s = a ++ sep :: b := by
  induction s generalizing a with
  | nil => simp [splitLast?] at h
  | cons c s ih =>
    simp only [splitLast?] at h
    split at h
    · next p hp =>
      simp only [Option.some.injEq, Prod.mk.injEq] at h
      rw [← h.1, ih (a := p.1) (by rw [hp, ← h.2])]
      rfl
    · split at h
      · next hc => simp_all
      · exact absurd h (by simp)

/-! ### Lines -/

def dropReturn (s : Text) : Text :=
  (['\r'].isSuffixOf? s).getD s

/-- A text cut into lines: each line break ends a line and takes a carriage return directly
before it along; a last line without a break counts only if it is not empty. -/
def lines (s : Text) : List Text :=
  go (split '\n' s)
where
  go : List Text → List Text
    | [] => []
    | [last] => if last.isEmpty then [] else [last]
    | l :: m :: rest => dropReturn l :: go (m :: rest)

/-! ### Numbers and widths -/

def ofNat (n : Nat) : Text := Nat.toDigits 10 n

/-- The number of bytes that the UTF-8 form of a text takes. -/
def width : Text → Nat
  | [] => 0
  | c :: s => c.utf8Size + width s

@[simp] theorem width_nil : width [] = 0 := rfl

@[simp] theorem width_cons (c : Char) (s : Text) : width (c :: s) = c.utf8Size + width s := rfl

@[simp] theorem width_append (s t : Text) : width (s ++ t) = width s + width t := by
  induction s with
  | nil => simp
  | cons c s ih =>
    simp only [List.cons_append, width_cons, ih]
    omega

/-! ### Order -/

/-- Whether a text comes strictly before another, character by character in the order of code
points; a text comes before its extensions. -/
def before : Text → Text → Bool
  | _, [] => false
  | [], _ :: _ => true
  | a :: s, b :: t => decide (a.toNat < b.toNat) || (a == b && before s t)

/-- Whether a text comes before another or is the same. -/
def notAfter (s t : Text) : Bool := !before t s

def inQuotes (s : Text) : Text := '\'' :: s ++ ['\'']

end Text

end JavaSource
