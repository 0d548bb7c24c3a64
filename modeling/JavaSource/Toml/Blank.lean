import JavaSource.Text.Basic

/-!
# Blanks, comments and line ends

What may stand between the parts of a document. Every function here returns what is left of the
text, and none where the text breaks a rule.
-/

namespace JavaSource.Toml

def isSpace (c : Char) : Bool := c == ' ' || c == '\t'

def skipSpaces (s : Text) : Text := s.dropWhile isSpace

/-- A character that may stand in a comment or a literal string: a tab, or any character but the
control characters of ASCII. -/
def isPlain (c : Char) : Bool := c == '\t' || (c.toNat ≥ 32 && c.toNat ≠ 127)

def skipLines : (inComment : Bool) → Text → Option Text
  | _, [] => some []
  | _, '\n' :: s => skipLines false s
  | _, '\r' :: '\n' :: s => skipLines false s
  | true, c :: s => if isPlain c then skipLines true s else none
  | false, c :: s =>
    if isSpace c then skipLines false s
    else if c == '#' then skipLines true s
    else some (c :: s)

def skipComment (s : Text) : Text :=
  match s with
  | '#' :: rest => rest.dropWhile isPlain
  | _ => s

/-- The text behind the end of a line, where only blanks and a comment may stand before it. -/
def endLine (s : Text) : Option Text :=
  match skipComment (skipSpaces s) with
  | [] => some []
  | '\n' :: rest => some rest
  | '\r' :: '\n' :: rest => some rest
  | _ => none

end JavaSource.Toml
