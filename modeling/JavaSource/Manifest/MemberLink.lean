import JavaSource.Manifest.Basic

/-!
# Member links

A member link names a method of a declared class as `class#method` or, where the class has several
methods of that name, as `class#method(type, type)` with the erased types of the arguments. Blanks
around the names and inside the list of types do not count.
-/

namespace JavaSource

/-- A member link cut into its parts; the argument types are absent where no list is written. -/
structure MemberLink where
  className : Text
  method : Text
  args : Option (List Text)
deriving DecidableEq

inductive LinkProblem
  | malformed
  | unknownClass (name : Text)
  | unknownMethod (className method : Text)
  | noMatchingOverload (method : Text) (args : List Text)
  | ambiguous (method : Text) (count : Nat)
deriving DecidableEq

def LinkProblem.message : LinkProblem → Text
  | malformed => "expected '<class>#<method>'".toList
  | unknownClass name =>
    "no class named ".toList ++ Text.inQuotes name ++ " is declared in this manifest".toList
  | unknownMethod className method =>
    "class ".toList ++ Text.inQuotes className ++ " declares no method ".toList ++
      Text.inQuotes method
  | noMatchingOverload method args =>
    Text.inQuotes method ++ " has no overload taking (".toList ++ Text.join [',', ' '] args ++ [')']
  | ambiguous method count =>
    Text.inQuotes method ++ " is overloaded ".toList ++ Text.ofNat count ++
      " times, list the argument types to pick one".toList

namespace MemberLink

/-- The argument types in a list: the pieces between commas without blanks, less empty ones. -/
def splitArgs (s : Text) : List Text :=
  ((Text.split ',' s).map Text.dropBlanks).filter fun a => !a.isEmpty

/-- The method and the argument types behind the number sign. -/
def splitMember (s : Text) : Option (Text × Option (List Text)) :=
  match Text.splitFirst? '(' s with
  | none => some (Text.trim s, none)
  | some (name, rest) =>
    ([')'].isSuffixOf? rest).map fun args => (Text.trim name, some (splitArgs args))

def ofText? (s : Text) : Option MemberLink := do
  let (front, member) ← Text.splitFirst? '#' s
  let (method, args) ← splitMember member
  let className := Text.trim front
  if className.isEmpty || method.isEmpty then none
  return ⟨className, method, args⟩

/-- Whether a link without its class may mean a method. -/
def fits (l : MemberLink) (m : MethodDecl) : Bool :=
  m.name = l.method && (l.args.all fun args => m.erasedArgs = args)

end MemberLink

/-- The method that a link leads to, with its class and the positions of both. -/
structure MemberTarget where
  classIndex : Nat
  classDecl : ClassDecl
  methodIndex : Nat
  method : MethodDecl

namespace Manifest

def findClass? (m : Manifest) (name : Text) : Option (Nat × ClassDecl) :=
  (m.classes.zipIdx.find? fun p => p.1.name = name).map fun p => (p.2, p.1)

/-- The only method of a class that a link may mean, by its position. -/
def pick (i : Nat) (c : ClassDecl) (l : MemberLink) : Except LinkProblem MemberTarget :=
  if c.methods.all fun m => m.name ≠ l.method then .error (.unknownMethod c.name l.method)
  else
    match c.methods.zipIdx.filter fun p => l.fits p.1 with
    | [] => .error (.noMatchingOverload l.method (l.args.getD []))
    | [p] => .ok ⟨i, c, p.2, p.1⟩
    | more => .error (.ambiguous l.method more.length)

def resolve (m : Manifest) (link : Text) : Except LinkProblem MemberTarget :=
  match MemberLink.ofText? link with
  | none => .error .malformed
  | some l =>
    match m.findClass? l.className with
    | none => .error (.unknownClass l.className)
    | some (i, c) => pick i c l

end Manifest

end JavaSource
