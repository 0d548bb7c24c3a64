import JavaSource.JavaType
import JavaSource.Text.Blank

/-!
# Type expressions

A type as a manifest writes it: a name, with brackets for array dimensions behind it, and in the
table form a list of type arguments. A type expression is accepted if its base is a primitive
keyword without arguments or a qualified name with accepted arguments; every accepted expression
stands for one type.
-/

namespace JavaSource

/-- A type as written: a plain name, or a table with a name and type arguments. -/
inductive TypeExpr
  | name (raw : Text)
  | table (raw : Text) (args : List TypeExpr)

inductive TypeProblem
  | void
  | primitiveWithArguments (base : Text)
  | badName (problem : NameProblem)
  | primitiveArgument (base : Text)
deriving DecidableEq

def TypeProblem.message : TypeProblem → Text
  | void => "'void' is not a value type, omit 'returns' instead".toList
  | primitiveWithArguments base =>
    "primitive type ".toList ++ Text.inQuotes base ++ " cannot take type arguments".toList
  | badName problem => problem.message
  | primitiveArgument base =>
    "type argument ".toList ++ Text.inQuotes base ++ " must be a reference type".toList

namespace TypeExpr

def raw : TypeExpr → Text
  | name raw => raw
  | table raw _ => raw

def args : TypeExpr → List TypeExpr
  | name _ => []
  | table _ args => args

/-! ### Base and dimensions -/

/-- Takes pairs of brackets, and blanks around them, from the front of a text that is read
backwards. -/
def dropBrackets : Text → Text × Nat
  | [] => ([], 0)
  | c :: s =>
    if Text.isBlank c then dropBrackets s
    else
      match c, s with
      | ']', '[' :: rest =>
        let p := dropBrackets rest
        (p.1, p.2 + 1)
      | _, _ => (c :: s, 0)

/-- The base of a written name and the number of its array dimensions. -/
def splitBrackets (raw : Text) : Text × Nat :=
  let p := dropBrackets (raw.dropWhile Text.isBlank).reverse
  (p.1.reverse, p.2)

def base (t : TypeExpr) : Text := (splitBrackets t.raw).1

def dimensions (t : TypeExpr) : Nat := (splitBrackets t.raw).2

/-- The name without type arguments, with its brackets directly behind it. -/
def erasedName (t : TypeExpr) : Text :=
  t.base ++ (List.replicate t.dimensions ['[', ']']).flatten

/-! ### Acceptance -/

/-- The first problem of a base, given whether type arguments follow it. -/
def baseProblem? (base : Text) (hasArgs : Bool) : Option TypeProblem :=
  if base = "void".toList then some .void
  else if (Primitive.ofKeyword? base).isSome then
    if hasArgs then some (.primitiveWithArguments base) else none
  else (qualifiedNameProblem? base).map .badName

/-- Whether an expression stands for a primitive type itself and not for an array of it. -/
def isPrimitive (t : TypeExpr) : Bool :=
  (Primitive.ofKeyword? t.base).isSome && t.dimensions == 0

mutual

/-- The first reason why a type expression is not accepted. -/
def problem? : TypeExpr → Option TypeProblem
  | name raw => baseProblem? (splitBrackets raw).1 false
  | table raw args =>
    match baseProblem? (splitBrackets raw).1 (!args.isEmpty) with
    | some p => some p
    | none => argsProblem? args

/-- The first reason why a type argument is not accepted: an argument is a reference type. -/
def argsProblem? : List TypeExpr → Option TypeProblem
  | [] => none
  | t :: ts =>
    if t.isPrimitive then some (.primitiveArgument t.base)
    else
      match t.problem? with
      | some p => some p
      | none => argsProblem? ts

end

/-! ### The type of an accepted expression -/

mutual

def toType : TypeExpr → JavaType
  | name raw =>
    let p := splitBrackets raw
    JavaType.arrays p.2 (JavaType.ofText p.1)
  | table raw args =>
    let p := splitBrackets raw
    JavaType.arrays p.2 <|
      match Primitive.ofKeyword? p.1 with
      | some q => .primitive q
      | none =>
        if args.isEmpty then .named (ClassName.ofText p.1)
        else .generic (ClassName.ofText p.1) (toTypes args)

def toTypes : List TypeExpr → List JavaType
  | [] => []
  | t :: ts => t.toType :: toTypes ts

end

theorem toTypes_eq (ts : List TypeExpr) : toTypes ts = ts.map toType := by
  induction ts with
  | nil => rfl
  | cons t ts ih => simp [toTypes, ih]

end TypeExpr

end JavaSource
