import JavaSource.Text.Basic

/-!
# UTF-8

The bytes of a text, and the text of bytes. Bytes are read piece by piece: a piece is a character,
or the longest run of bytes that starts a character and does not finish it, or a byte that starts
none.
-/

namespace JavaSource.Text

def toUtf8 (s : Text) : List UInt8 := s.flatMap String.utf8EncodeChar

/-- For a byte that leads a character of several bytes: the range of the byte behind it, and the
number of bytes that follow these two. -/
def leadRange? (b : UInt8) : Option (UInt8 × UInt8 × Nat) :=
  if 0xc2 ≤ b ∧ b ≤ 0xdf then some (0x80, 0xbf, 0)
  else if b = 0xe0 then some (0xa0, 0xbf, 1)
  else if b = 0xed then some (0x80, 0x9f, 1)
  else if 0xe1 ≤ b ∧ b ≤ 0xef then some (0x80, 0xbf, 1)
  else if b = 0xf0 then some (0x90, 0xbf, 2)
  else if 0xf1 ≤ b ∧ b ≤ 0xf3 then some (0x80, 0xbf, 2)
  else if b = 0xf4 then some (0x80, 0x8f, 2)
  else none

def isContinuation (b : UInt8) : Bool := 0x80 ≤ b && b ≤ 0xbf

def lowBits (b : UInt8) : Nat := b.toNat % 64

/-- The pieces of bytes: a character, or none where bytes are no character. -/
def pieces : List UInt8 → List (Option Char)
  | [] => []
  | a :: s =>
    if a < 0x80 then some (Char.ofNat a.toNat) :: pieces s
    else
      match leadRange? a, s with
      | some (low, high, more), b :: s =>
        if low ≤ b ∧ b ≤ high then
          match more, s with
          | 0, s => some (Char.ofNat (a.toNat % 32 * 64 + lowBits b)) :: pieces s
          | 1, c :: s =>
            if isContinuation c then
              some (Char.ofNat ((a.toNat % 16 * 64 + lowBits b) * 64 + lowBits c)) :: pieces s
            else none :: pieces (c :: s)
          | _, c :: d :: s =>
            if isContinuation c then
              if isContinuation d then
                some (Char.ofNat (((a.toNat % 8 * 64 + lowBits b) * 64 + lowBits c) * 64 +
                  lowBits d)) :: pieces s
              else none :: pieces (d :: s)
            else none :: pieces (c :: d :: s)
          | _, [c] => if isContinuation c then [none] else none :: pieces [c]
          | _, [] => [none]
        else none :: pieces (b :: s)
      | some _, [] => [none]
      | none, s => none :: pieces s

def ofUtf8? (bytes : List UInt8) : Option Text := (pieces bytes).mapM id

/-- The text of bytes, with a replacement character for every piece that is no character. -/
def ofUtf8Lossy (bytes : List UInt8) : Text := (pieces bytes).map fun c => c.getD '\ufffd'

end JavaSource.Text
