import JavaSource.Toml.Blank

/-!
# Strings

The four kinds of strings: basic strings with escapes, literal strings without, and each of them
over several lines between three quotes. Reading starts behind the opening quotes and gives the
content with what is left of the text.
-/

namespace JavaSource.Toml

def escapedChar? : Char → Option Char
  | 'b' => some '\x08'
  | 't' => some '\t'
  | 'n' => some '\n'
  | 'f' => some '\x0c'
  | 'r' => some '\r'
  | 'e' => some '\x1b'
  | '"' => some '"'
  | '\\' => some '\\'
  | _ => none

/-- The number of hexadecimal digits that follow an escaped letter. -/
def escapeWidth? : Char → Option Nat
  | 'x' => some 2
  | 'u' => some 4
  | 'U' => some 8
  | _ => none

def hexValue? (c : Char) : Option Nat :=
  if c.isDigit then some (c.toNat - 48)
  else if 'a' ≤ c ∧ c ≤ 'f' then some (c.toNat - 87)
  else if 'A' ≤ c ∧ c ≤ 'F' then some (c.toNat - 55)
  else none

def charOfCode? (n : Nat) : Option Char :=
  if n.isValidChar then some (Char.ofNat n) else none

/-- Where a string stands: in plain text, inside an escape by code point, or behind a backslash at
the end of a line, where blanks are skipped. -/
inductive StringState
  | plain
  /-- Digits still to come and the value of those read. -/
  | code (digits value : Nat)
  | skipping (lineEnded : Bool)

/-- A character put in front of a string that has been read. -/
def prepend (c : Char) (r : Option (Text × Text)) : Option (Text × Text) :=
  r.map fun p => (c :: p.1, p.2)

def basicString : StringState → Text → Option (Text × Text)
  | _, [] => none
  | .code digits value, c :: s =>
    match hexValue? c with
    | none => none
    | some d =>
      if digits ≤ 1 then
        match charOfCode? (value * 16 + d) with
        | some e => prepend e (basicString .plain s)
        | none => none
      else basicString (.code (digits - 1) (value * 16 + d)) s
  | _, '"' :: s => some ([], s)
  | _, '\\' :: c :: s =>
    match escapedChar? c, escapeWidth? c with
    | some e, _ => prepend e (basicString .plain s)
    | none, some n => basicString (.code n 0) s
    | none, none => none
  | _, c :: s => if isPlain c && c != '\\' then prepend c (basicString .plain s) else none

def literalString : Text → Option (Text × Text)
  | [] => none
  | '\'' :: s => some ([], s)
  | c :: s => if isPlain c then prepend c (literalString s) else none

/-- Quotes at the end of a string over several lines: up to two of them belong to its content. -/
def closeQuotes? (quote : Char) : Text → Option (Text × Text)
  | a :: b :: c :: s =>
    if a = quote ∧ b = quote ∧ c = quote then
      match s with
      | d :: e :: rest =>
        if d = quote ∧ e = quote then some ([quote, quote], rest)
        else if d = quote then some ([quote], e :: rest)
        else some ([], s)
      | [d] => if d = quote then some ([quote], []) else some ([], s)
      | [] => some ([], [])
    else none
  | _ => none

def basicLines : StringState → Text → Option (Text × Text)
  | _, [] => none
  | .code digits value, c :: s =>
    match hexValue? c with
    | none => none
    | some d =>
      if digits ≤ 1 then
        match charOfCode? (value * 16 + d) with
        | some e => prepend e (basicLines .plain s)
        | none => none
      else basicLines (.code (digits - 1) (value * 16 + d)) s
  | .skipping lineEnded, c :: s =>
    if isSpace c then basicLines (.skipping lineEnded) s
    else if c = '\n' then basicLines (.skipping true) s
    else if c = '\r' ∧ s.head? = some '\n' then basicLines (.skipping lineEnded) s
    else if lineEnded then
      match closeQuotes? '"' (c :: s) with
      | some p => some p
      | none => if c = '\\' then escape s else plain c s
    else none
  | .plain, c :: s =>
    match closeQuotes? '"' (c :: s) with
    | some p => some p
    | none => if c = '\\' then escape s else plain c s
where
  /-- An escape behind its backslash. -/
  escape : Text → Option (Text × Text)
    | [] => none
    | c :: s =>
      match escapedChar? c, escapeWidth? c with
      | some e, _ => prepend e (basicLines .plain s)
      | none, some n => basicLines (.code n 0) s
      | none, none =>
        if isSpace c then basicLines (.skipping false) s
        else if c = '\n' then basicLines (.skipping true) s
        else if c = '\r' ∧ s.head? = some '\n' then basicLines (.skipping false) s
        else none
  /-- A character that stands for itself. -/
  plain (c : Char) (s : Text) : Option (Text × Text) :=
    if isPlain c || c == '\n' || (c == '\r' && s.head? == some '\n') then
      prepend c (basicLines .plain s)
    else none

def literalLines : Text → Option (Text × Text)
  | [] => none
  | c :: s =>
    match closeQuotes? '\'' (c :: s) with
    | some p => some p
    | none =>
      if isPlain c || c == '\n' || (c == '\r' && s.head? == some '\n') then
        prepend c (literalLines s)
      else none

/-- The text behind a line end at its start, which does not belong to a string's content. -/
def dropFirstLineEnd : Text → Text
  | '\n' :: s => s
  | '\r' :: '\n' :: s => s
  | s => s

/-- Reads a string of any kind, from its opening quotes. -/
def string? : Text → Option (Text × Text)
  | '"' :: '"' :: '"' :: s => basicLines .plain (dropFirstLineEnd s)
  | '"' :: s => basicString .plain s
  | '\'' :: '\'' :: '\'' :: s => literalLines (dropFirstLineEnd s)
  | '\'' :: s => literalString s
  | _ => none

end JavaSource.Toml
