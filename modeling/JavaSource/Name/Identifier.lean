import JavaSource.Name.Keyword
import JavaSource.Text.Letter

/-!
# Identifiers

What makes a text a Java identifier, and the first reason why it is none.
-/

namespace JavaSource

inductive NameProblem
  | empty
  | reserved
  | badStart
  | badCharacter
  | emptySegment
deriving DecidableEq

def NameProblem.message : NameProblem → Text
  | .empty => "name cannot be empty".toList
  | .reserved => "name is a Java reserved keyword".toList
  | .badStart => "name must start with a letter, underscore, or dollar sign".toList
  | .badCharacter =>
    "name must contain only letters, digits, underscores, and dollar signs".toList
  | .emptySegment => "qualified name cannot contain empty segments".toList

def isIdentifierStart (c : Char) : Bool := Text.isLetter c || c == '_' || c == '$'

def isIdentifierPart (c : Char) : Bool :=
  Text.isLetter c || Text.isNumeric c || c == '_' || c == '$'

def identifierProblem? (s : Text) : Option NameProblem :=
  match s with
  | [] => some .empty
  | c :: rest =>
    if isReserved s then some .reserved
    else if !isIdentifierStart c then some .badStart
    else if rest.all isIdentifierPart then none
    else some .badCharacter

/-- An identifier: a start character, then any number of part characters, and not reserved. -/
def IsIdentifier (s : Text) : Prop :=
  ∃ c rest, s = c :: rest ∧ isReserved s = false ∧ isIdentifierStart c = true ∧
    ∀ d ∈ rest, isIdentifierPart d = true

theorem identifierProblem?_eq_none_iff {s : Text} :
    identifierProblem? s = none ↔ IsIdentifier s := by
  cases s with
  | nil => simp [identifierProblem?, IsIdentifier]
  | cons c rest =>
    simp only [identifierProblem?, IsIdentifier, List.cons.injEq]
    constructor
    · intro h
      split at h
      · simp at h
      · next hr =>
        split at h
        · simp at h
        · next hs =>
          split at h
          · next hp =>
            exact ⟨c, rest, ⟨rfl, rfl⟩, by simpa using hr, by simpa using hs,
              by simpa using hp⟩
          · simp at h
    · rintro ⟨_, _, ⟨rfl, rfl⟩, hr, hs, hp⟩
      simp [hr, hs, List.all_eq_true.2 hp]

/-- A start character may also stand inside an identifier. -/
theorem isIdentifierPart_of_start {c : Char} (h : isIdentifierStart c = true) :
    isIdentifierPart c = true := by
  simp only [isIdentifierStart, isIdentifierPart, Bool.or_eq_true] at h ⊢
  rcases h with (h | h) | h <;> simp [h]

end JavaSource
