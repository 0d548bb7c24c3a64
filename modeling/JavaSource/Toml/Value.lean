import JavaSource.Decimal.Binary64
import JavaSource.Text.Basic

/-!
# Values of a TOML document

The data of a document: scalars, arrays, and tables whose keys are sorted. Dates and times are
read but carry no data here. A number is only bounded where it is used: a document may hold
integers of any size and fractions that no binary64 number comes near to.
-/

namespace JavaSource.Toml

/-- A floating-point number, as its decimal digits or by name. -/
inductive FloatValue
  | finite (negative : Bool) (digits : Nat) (exponent : Int)
  | infinite (negative : Bool)
  | nan

/-- The text of a floating-point number: the shortest digits that read back as the same binary64
number, in positional notation. -/
def FloatValue.text : FloatValue → Text
  | finite negative digits exponent =>
    let sign : Text := if negative then ['-'] else []
    let number := if digits = 0 then none else (Binary64.ofDecimal? digits exponent).join
    match number with
    | some x =>
      let p := x.shortest
      sign ++ positional p.1 p.2
    | none => sign ++ ['0', '.', '0']
  | infinite negative => if negative then "-inf".toList else "inf".toList
  | nan => "NaN".toList

inductive Value
  | string (s : Text)
  | integer (n : Int)
  | float (x : FloatValue)
  /-- A number in the right form without a value: an integer that gives its base and no digits, or
  whose groups hold more than digits, or a fraction too large for binary64. -/
  | unreadable
  | boolean (b : Bool)
  | datetime
  | array (items : List Value)
  | table (entries : List (Text × Value))

namespace Value

mutual

/-- Whether a condition holds for all scalars of a value. -/
def allScalars (p : Value → Bool) : Value → Bool
  | .array items => allScalarsOfItems p items
  | .table entries => allScalarsOfEntries p entries
  | v => p v

/-- Whether a condition holds for all scalars of an array's items. -/
def allScalarsOfItems (p : Value → Bool) : List Value → Bool
  | [] => true
  | v :: vs => allScalars p v && allScalarsOfItems p vs

/-- Whether a condition holds for all scalars of a table's entries. -/
def allScalarsOfEntries (p : Value → Bool) : List (Text × Value) → Bool
  | [] => true
  | (_, v) :: rest => allScalars p v && allScalarsOfEntries p rest

end

def minInteger : Int := -9223372036854775808

def maxSigned : Int := 9223372036854775807

def maxUnsigned : Int := 18446744073709551615

/-- Whether all numbers of a value can be read, where integers go up to a limit. -/
def isReadable (limit : Int) (v : Value) : Bool :=
  v.allScalars fun
    | .integer n => minInteger ≤ n && n ≤ limit
    | .unreadable => false
    | _ => true

end Value

end JavaSource.Toml
