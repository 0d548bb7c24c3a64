import JavaSource.Name.Qualified

/-!
# Class names

A class is named by its qualifier, empty for the default package, and its simple name. How a
class is written in a source file depends on the file's imports; a function from class names to
texts, a naming, stands for that decision wherever names are written.
-/

namespace JavaSource

/-- A class or interface: the qualifier and the simple name. -/
structure ClassName where
  qualifier : Text
  simple : Text
deriving DecidableEq

abbrev Naming := ClassName → Text

namespace ClassName

def ofText (s : Text) : ClassName :=
  let p := splitQualified s
  ⟨p.1, p.2⟩

/-- The name with its qualifier in front, if it has one. -/
def qualified (c : ClassName) : Text :=
  if c.qualifier.isEmpty then c.simple else c.qualifier ++ '.' :: c.simple

/-- Reading a text and writing it in full gives the text back, unless it is a single dot in front
of a name. -/
theorem qualified_ofText {s : Text} (h : s.head? ≠ some '.') : (ofText s).qualified = s := by
  simp only [ofText, splitQualified]
  cases hs : Text.splitLast? '.' s with
  | none => simp [qualified]
  | some p =>
    have hp := Text.eq_of_splitLast? (a := p.1) (b := p.2) (by rw [hs])
    simp only [Option.getD_some, qualified]
    split
    · next he =>
      rw [List.isEmpty_iff.1 he] at hp
      exact absurd (by rw [hp]; rfl) h
    · exact hp.symm

def string : ClassName := ⟨"java.lang".toList, "String".toList⟩

def object : ClassName := ⟨"java.lang".toList, "Object".toList⟩

end ClassName

end JavaSource
