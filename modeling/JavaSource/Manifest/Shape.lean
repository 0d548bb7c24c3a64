import JavaSource.Declaration.Visibility
import JavaSource.Manifest.Basic
import JavaSource.Text.Quoted
import JavaSource.Toml.Value

/-!
# The shape of data

Reading data of a document into records: which fields a record has, which of them must be there,
and the first reason why a value does not have the shape that is expected. A record may be written
as a table of its fields or as an array of them in their order.
-/

namespace JavaSource

open Toml (Value)

/-- Why a value does not have the shape that is expected. -/
inductive ShapeError
  | unknownField (key : Text) (fields : List Text)
  | missingField (key : Text)
  | wrongType (found : Value) (expected : Text)
  /-- An array of `count` items where a record with more required fields is expected. -/
  | wrongLength (count : Nat) (record : Text) (fields : Nat)
  | unknownVariant (name : Text)
  /-- A visibility that is neither a word nor a table. -/
  | noVariantForm
  /-- A visibility written as a table without a key, or with several. -/
  | variantCount (several : Bool)
  /-- A visibility written as a table with something inside its variant. -/
  | variantContent (found : Value)
  /-- A value that has none of the forms of a kind of data. -/
  | noForm (kind : Text)
  | indentWidth (width : Int)
  | indentWord (word : Text)

namespace ShapeError

def quoteNames (names : List Text) : List Text :=
  names.map fun n => ['\x60'] ++ n ++ ['\x60']

/-- A choice between names: two are joined by a word, more are listed. -/
def oneOf (names : List Text) : Text :=
  match quoteNames names with
  | [a] => "expected ".toList ++ a
  | [a, b] => "expected ".toList ++ a ++ " or ".toList ++ b
  | more => "expected one of ".toList ++ Text.join [',', ' '] more

def ofInt (n : Int) : Text :=
  if n < 0 then '-' :: Text.ofNat n.natAbs else Text.ofNat n.natAbs

def foundText : Value → Text
  | .string s => "string ".toList ++ Text.quoted s
  | .integer n => "integer \x60".toList ++ ofInt n ++ ['\x60']
  | .float x => "floating point \x60".toList ++ x.text ++ ['\x60']
  | .unreadable => "number".toList
  | .boolean b => "boolean \x60".toList ++ (if b then "true" else "false").toList ++ ['\x60']
  | .datetime => "map".toList
  | .array _ => "sequence".toList
  | .table _ => "map".toList

def typeName : Value → Text
  | .string _ => "string".toList
  | .integer _ => "integer".toList
  | .float _ => "float".toList
  | .unreadable => "number".toList
  | .boolean _ => "boolean".toList
  | .datetime => "datetime".toList
  | .array _ => "array".toList
  | .table _ => "table".toList

/-- What a variant without content takes in place of a value. -/
def contentText : Value → Text
  | .array _ => "expected empty array".toList
  | .table _ => "expected empty table".toList
  | v => "expected table, found ".toList ++ typeName v

def message : ShapeError → Text
  | unknownField key fields =>
    "unknown field \x60".toList ++ key ++ "\x60, ".toList ++ oneOf fields
  | missingField key => "missing field \x60".toList ++ key ++ ['\x60']
  | wrongType found expected =>
    "invalid type: ".toList ++ foundText found ++ ", expected ".toList ++ expected
  | wrongLength count record fields =>
    "invalid length ".toList ++ Text.ofNat count ++ ", expected struct ".toList ++ record ++
      " with ".toList ++ Text.ofNat fields ++ " elements".toList
  | unknownVariant name =>
    "unknown variant \x60".toList ++ name ++ "\x60, ".toList ++
      oneOf (Visibility.all.map Visibility.word)
  | noVariantForm => "wanted string or table".toList
  | variantCount several =>
    "wanted exactly 1 element, ".toList ++
      (if several then "more than 1 element" else "found 0 elements").toList
  | variantContent found => contentText found
  | noForm kind => "data did not match any variant of untagged enum ".toList ++ kind
  | indentWidth width =>
    "invalid indent width ".toList ++ ofInt width ++ ", expected 1 to 16 spaces".toList
  | indentWord word =>
    "invalid indent ".toList ++ Text.inQuotes word ++
      ", expected a number of spaces or \"tab\"".toList

end ShapeError

abbrev Reader (α : Type) := Value → Except ShapeError α

namespace Reader

def text : Reader Text
  | .string s => .ok s
  | v => .error (.wrongType v "a string".toList)

def boolean : Reader Bool
  | .boolean b => .ok b
  | v => .error (.wrongType v "a boolean".toList)

def list {α : Type} (item : Reader α) : Reader (List α)
  | .array items => items.mapM item
  | v => .error (.wrongType v "a sequence".toList)

/-- Reads a value that may be left out, where it is there. -/
def some {α : Type} (item : Reader α) : Reader (Option α) := fun v => (item v).map Option.some

/-- Reads a value with one of several forms. Before the forms are tried the whole value is taken
in, so that every number in it must be readable, even under a key that no form uses. -/
def form {α : Type} (kind : String) (ofValue? : Value → Option α) : Reader α := fun v =>
  match if v.isReadable Value.maxUnsigned then ofValue? v else none with
  | Option.some a => .ok a
  | none => .error (.noForm kind.toList)

end Reader

/-! ### Records -/

/-- A field of a record: its key, whether it must be there, and how its value is put into the
record. -/
structure FieldShape (α : Type) where
  key : Text
  required : Bool
  read : Value → α → Except ShapeError α

def FieldShape.needed {α β : Type} (key : String) (reader : Reader β) (set : α → β → α) :
    FieldShape α :=
  ⟨key.toList, true, fun v a => (reader v).map (set a)⟩

def FieldShape.optional {α β : Type} (key : String) (reader : Reader β) (set : α → β → α) :
    FieldShape α :=
  ⟨key.toList, false, fun v a => (reader v).map (set a)⟩

/-- A record: its name, the record without any field, and its fields in order. -/
structure RecordShape (α : Type) where
  name : Text
  empty : α
  fields : List (FieldShape α)

namespace RecordShape

variable {α : Type}

def keys (shape : RecordShape α) : List Text := shape.fields.map FieldShape.key

def field? (shape : RecordShape α) (key : Text) : Option (FieldShape α) :=
  shape.fields.find? fun f => f.key = key

def readEntry (shape : RecordShape α) (a : α) (entry : Text × Value) : Except ShapeError α :=
  match shape.field? entry.1 with
  | some f => f.read entry.2 a
  | none => .error (.unknownField entry.1 shape.keys)

/-- Reads a table: every entry in turn, and then the first field that must be there and is not. -/
def readTable (shape : RecordShape α) (entries : List (Text × Value)) : Except ShapeError α := do
  let a ← entries.foldlM shape.readEntry shape.empty
  match shape.fields.find? fun f => f.required && !(entries.any fun e => e.1 = f.key) with
  | some f => .error (.missingField f.key)
  | none => .ok a

/-- Reads the fields from an array, `index` of which are already read; what the array holds beyond
them is left aside. -/
def readItems (shape : RecordShape α) : (index : Nat) → List (FieldShape α) → List Value → α →
    Except ShapeError α
  | _, [], _, a => .ok a
  | index, f :: fs, v :: vs, a => do shape.readItems (index + 1) fs vs (← f.read v a)
  | index, f :: fs, [], a =>
    if f.required then .error (.wrongLength index shape.name shape.fields.length)
    else shape.readItems (index + 1) fs [] a

/-- The key under which a date or time shows itself where a table is expected. -/
def datetimeKey : Text := "$__toml_private_datetime".toList

def read (shape : RecordShape α) : Reader α
  | .table entries => shape.readTable entries
  | .array items => shape.readItems 0 shape.fields items shape.empty
  | .datetime => .error (.unknownField datetimeKey shape.keys)
  | v => .error (.wrongType v ("struct ".toList ++ shape.name))

end RecordShape

end JavaSource
