import JavaSource.Toml.Blank
import JavaSource.Toml.Value

/-!
# Unquoted scalars

Numbers, booleans, dates and times. An unquoted scalar is cut out of the text up to the next
delimiter and read as a whole. The underscores of a number are looked at first, then dropped. What
is checked of an integer with underscores is only what stands next to them, so that such an integer
may turn out not to be readable.
-/

namespace JavaSource.Toml

/-! ### The text of a scalar -/

/-- A character that cannot belong to an unquoted scalar. -/
def isDelimiter (c : Char) : Bool := ['=', ',', '[', ']', '{', '}', '#', '\r', '\n'].contains c

/-- A character with which no scalar goes on behind blanks. -/
def isScalarEnd (c : Char) : Bool := isDelimiter c || ['.', '"', '\''].contains c

/-- The text of an unquoted scalar and what follows it, where `blanks` stand in front in reverse
order. Blanks belong to the scalar only where more of it stands behind them. -/
def scalarText (blanks : Text) : Text → Text × Text
  | [] => ([], blanks.reverse)
  | c :: s =>
    if isSpace c then scalarText (c :: blanks) s
    else if isDelimiter c || (!blanks.isEmpty && isScalarEnd c) then ([], blanks.reverse ++ c :: s)
    else
      let p := scalarText [] s
      (blanks.reverse ++ c :: p.1, p.2)

/-! ### Digits -/

def digitValue? (base : Nat) (c : Char) : Option Nat :=
  let d :=
    if c.isDigit then some (c.toNat - 48)
    else if 'a' ≤ c ∧ c ≤ 'f' then some (c.toNat - 87)
    else if 'A' ≤ c ∧ c ≤ 'F' then some (c.toNat - 55)
    else none
  d.filter (· < base)

/-- The value of digits in a base, of which there is at least one. -/
def digits? (base : Nat) (s : Text) : Option Nat :=
  if s.isEmpty then none
  else s.foldlM (fun value c => (digitValue? base c).map fun d => value * base + d) 0

def isHexDigit (c : Char) : Bool := (digitValue? 16 c).isSome

/-- Whether every underscore stands between two digits of a kind. A single character in front of
the first underscore is not looked at: it may be a sign. -/
def isGrouped (isDigit : Char → Bool) (s : Text) : Bool :=
  let groups := Text.split '_' s
  groups.all (fun g => !g.isEmpty) && groups.tail.all (fun g => g.head?.any isDigit) &&
    groups.dropLast.all fun g => g.length == 1 || g.getLast?.any isDigit

def dropUnderscores (s : Text) : Text := s.filter fun c => c != '_'

def splitSign (s : Text) : Bool × Text :=
  match s with
  | '-' :: rest => (true, rest)
  | '+' :: rest => (false, rest)
  | _ => (false, s)

def signed (negative : Bool) (n : Nat) : Int := if negative then -Int.ofNat n else Int.ofNat n

/-! ### Integers -/

/-- An integer behind the mark of its base, which no digits need to follow. -/
def basedInteger? (base : Nat) (s : Text) : Option Value :=
  if s.isEmpty then some .unreadable
  else if isGrouped isHexDigit s then
    (digits? base (dropUnderscores s)).map fun n => .integer (signed false n)
  else none

def isFractionMark (c : Char) : Bool := c == '.' || c == 'e' || c == 'E'

/-- An integer in base ten with an optional sign and without a superfluous zero in front. Behind an
underscore the digits may be of base sixteen, and what stands between two of them is not looked
at; then the integer is unreadable. -/
def decimalInteger? (s : Text) : Option Value :=
  let (negative, digits) := splitSign s
  let rest := digits.dropWhile Char.isDigit
  let n := (digits? 10 (dropUnderscores digits)).map fun n => Value.integer (signed negative n)
  if digits.head? = some '0' && digits.length > 1 then none
  else if rest.isEmpty then n
  else if rest.head? = some '_' && !rest.any (fun c => isFractionMark c || c == ' ') &&
      isGrouped isHexDigit s then
    some (n.getD .unreadable)
  else none

/-- An integer: decimal with an optional sign, or with a base given by `0x`, `0o` or `0b`. -/
def integer? (s : Text) : Option Value :=
  match s with
  | '0' :: 'x' :: rest => basedInteger? 16 rest
  | '0' :: 'o' :: rest => basedInteger? 8 rest
  | '0' :: 'b' :: rest => basedInteger? 2 rest
  | _ => decimalInteger? s

/-! ### Fractions -/

/-- The part of a number in front of its point and exponent, which has no superfluous zero. -/
def whole? (s : Text) : Option Nat :=
  let digits := dropUnderscores s
  if s.head? = some '0' && digits.length > 1 then none else digits? 10 digits

def exponent? (s : Text) : Option Int :=
  let p := splitSign s
  (digits? 10 (dropUnderscores p.2)).map (signed p.1)

/-- The parts of a number before and behind its exponent mark. -/
def splitExponent (s : Text) : Text × Option Text :=
  (s.takeWhile fun c => c != 'e' && c != 'E',
    (s.dropWhile fun c => c != 'e' && c != 'E').tail?)

def decimal? (s : Text) : Option Value := do
  if !isGrouped Char.isDigit s then none
  let (negative, s) := splitSign s
  let (front, mark) := splitExponent s
  let fraction := (front.dropWhile fun c => c != '.').tail?.map dropUnderscores
  if fraction.isNone && mark.isNone then none
  let w ← whole? (front.takeWhile fun c => c != '.')
  let f ← match fraction with
    | some f => digits? 10 f
    | none => some 0
  let e ← match mark with
    | some e => exponent? e
    | none => some 0
  let places := (fraction.map List.length).getD 0
  let n := w * Nat.pow 10 places + f
  if n = 0 then return .float (.finite negative 0 0)
  if (Binary64.ofDecimal? n (e - places)).isNone then return .unreadable
  return .float (.finite negative n (e - places))

def float? (s : Text) : Option Value :=
  let p := splitSign s
  if p.2 = "inf".toList then some (.float (.infinite p.1))
  else if p.2 = "nan".toList then some (.float .nan)
  else decimal? s

/-! ### Dates and times -/

def twoDigits? (a b : Char) : Option Nat :=
  if a.isDigit ∧ b.isDigit then some ((a.toNat - 48) * 10 + (b.toNat - 48)) else none

def daysInMonth (year month : Nat) : Nat :=
  if month = 2 then
    if year % 4 = 0 ∧ (year % 100 ≠ 0 ∨ year % 400 = 0) then 29 else 28
  else if month = 4 ∨ month = 6 ∨ month = 9 ∨ month = 11 then 30
  else 31

/-- The text behind a date that exists in the calendar. -/
def skipDate? : Text → Option Text
  | y1 :: y2 :: y3 :: y4 :: '-' :: m1 :: m2 :: '-' :: d1 :: d2 :: rest => do
    let high ← twoDigits? y1 y2
    let low ← twoDigits? y3 y4
    let month ← twoDigits? m1 m2
    let day ← twoDigits? d1 d2
    if 1 ≤ month ∧ month ≤ 12 ∧ 1 ≤ day ∧ day ≤ daysInMonth (high * 100 + low) month then
      some rest
    else none
  | _ => none

/-- The text behind a fraction of a second, if there is one. -/
def skipFraction? (s : Text) : Option Text :=
  match s with
  | '.' :: rest =>
    if (rest.takeWhile Char.isDigit).isEmpty then none else some (rest.dropWhile Char.isDigit)
  | _ => some s

/-- The text behind a time of day; the seconds and their fraction may be left out. -/
def skipTime? : Text → Option Text
  | h1 :: h2 :: ':' :: m1 :: m2 :: rest => do
    let hour ← twoDigits? h1 h2
    let minute ← twoDigits? m1 m2
    if hour ≤ 23 ∧ minute ≤ 59 then
      match rest with
      | ':' :: s1 :: s2 :: rest =>
        let second ← twoDigits? s1 s2
        if second ≤ 60 then skipFraction? rest else none
      | _ => some rest
    else none
  | _ => none

/-- Whether a text is an offset from universal time, or empty. -/
def isOffset : Text → Bool
  | [] => true
  | [c] => c == 'Z' || c == 'z'
  | [sign, h1, h2, ':', m1, m2] =>
    (sign == '+' || sign == '-') && (twoDigits? h1 h2).any (· ≤ 23) &&
      (twoDigits? m1 m2).any (· ≤ 59)
  | _ => false

/-- Whether a text is a date, a time, or both with an optional offset. -/
def isDatetime (s : Text) : Bool :=
  match skipDate? s with
  | some [] => true
  | some (c :: rest) =>
    (c == 'T' || c == 't' || c == ' ') && (skipTime? rest).any isOffset
  | none => (skipTime? s).any List.isEmpty

/-! ### Scalars -/

def scalarValue? (s : Text) : Option Value :=
  if s = "true".toList then some (.boolean true)
  else if s = "false".toList then some (.boolean false)
  else
    match integer? s, float? s with
    | some v, _ => some v
    | none, some v => some v
    | none, none => if isDatetime s then some .datetime else none

def scalar? (s : Text) : Option (Value × Text) :=
  let p := scalarText [] s
  (scalarValue? p.1).map fun v => (v, p.2)

end JavaSource.Toml
