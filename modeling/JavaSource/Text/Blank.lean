import JavaSource.Text.Basic
import JavaSource.Text.CodeRange

/-!
# Blanks

The characters with the Unicode property White_Space, and texts without blanks at their ends.
-/

namespace JavaSource.Text

def blankRanges : List CodeRange :=
  [(0x9, 0xd), (0x20, 0x20), (0x85, 0x85), (0xa0, 0xa0), (0x1680, 0x1680), (0x2000, 0x200a),
  (0x2028, 0x2029), (0x202f, 0x202f), (0x205f, 0x205f), (0x3000, 0x3000)]

/-- A blank: a character with the property White_Space. -/
def isBlank (c : Char) : Bool := inRanges blankRanges c.toNat

def trimEnd (s : Text) : Text := (s.reverse.dropWhile isBlank).reverse

/-- The text without the blanks at its start and at its end. -/
def trim (s : Text) : Text := trimEnd (s.dropWhile isBlank)

def dropBlanks (s : Text) : Text := s.filter fun c => !isBlank c

end JavaSource.Text
