import JavaSource.Text.Search

/-!
# Places in the text of a manifest

Where a name or a value stands in the text of a manifest, found by its usual spellings. A place
is given in bytes; a text that no usual spelling shows has none.
-/

namespace JavaSource

structure Span where
  offset : Nat
  length : Nat
deriving DecidableEq

namespace Span

/-- The spellings of an entry for a name, up to the opening quote, with the closing quote. -/
def nameSpellings : List (Text × Char) :=
  [("name = \"".toList, '"'), ("name = '".toList, '\''), ("name=\"".toList, '"')]

/-- The places of a text behind each occurrence of a lead and before a closing quote. -/
def between (source lead value : Text) (close : Char) : List Span :=
  (Text.occurrences (lead ++ value ++ [close]) source).map fun i =>
    ⟨i + Text.width lead, Text.width value⟩

/-- The places where a name is given to something, from first to last. -/
def ofName (source name : Text) : List Span :=
  (nameSpellings.flatMap fun p => between source p.1 name p.2).mergeSort fun a b =>
    decide (a.offset ≤ b.offset)

/-- The first place where a text stands between double quotes or, if there is none, between single
quotes. -/
def ofValue? (source value : Text) : Option Span :=
  ((between source ['"'] value '"').head?).or (between source ['\''] value '\'').head?

end Span

end JavaSource
