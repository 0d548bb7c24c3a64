import JavaSource.JavaType

/-!
# Short names and imports

Inside one source file a simple name stands for one class. The first class that claims a simple
name owns it and is written short; every later class with the same simple name is written in
full and noted as a conflict. Owners outside the implicit packages need an import line.
-/

namespace JavaSource

structure Imports where
  /-- The classes written short, in the order of their claims. -/
  owners : List ClassName
  /-- The classes that found their simple name taken, in the order of their first claims. -/
  conflicts : List ClassName
  /-- The packages whose classes are visible without an import. -/
  implicit : List Text

namespace Imports

def empty : Imports := ⟨[], [], []⟩

/-- No claims; `java.lang` and the file's own package are implicit. -/
def forPackage (package : Text) : Imports :=
  ⟨[], [], "java.lang".toList :: if package.isEmpty then [] else [package]⟩

def owner? (r : Imports) (simple : Text) : Option ClassName :=
  r.owners.find? fun c => c.simple = simple

def isShort (r : Imports) (c : ClassName) : Bool := r.owner? c.simple = some c

/-- Claims the simple name of a class, and says whether the class is written short from now on. -/
def claim (r : Imports) (c : ClassName) : Imports × Bool :=
  match r.owner? c.simple with
  | none => ({ r with owners := r.owners ++ [c] }, true)
  | some owner =>
    if owner = c then (r, true)
    else if c ∈ r.conflicts then (r, false)
    else ({ r with conflicts := r.conflicts ++ [c] }, false)

/-- Claims the simple names of several classes in order. -/
def claimAll (r : Imports) (cs : List ClassName) : Imports :=
  cs.foldl (fun r c => (r.claim c).1) r

def register (r : Imports) (t : JavaType) : Imports := r.claimAll t.classNames

@[simp] theorem claimAll_nil (r : Imports) : r.claimAll [] = r := rfl

@[simp] theorem claimAll_cons (r : Imports) (c : ClassName) (cs : List ClassName) :
    r.claimAll (c :: cs) = (r.claim c).1.claimAll cs := rfl

theorem claimAll_append (r : Imports) (cs ds : List ClassName) :
    r.claimAll (cs ++ ds) = (r.claimAll cs).claimAll ds := by
  simp [claimAll]

/-- Short for the owner of a simple name and for a class of the default package, in full for any
other class. -/
def name (r : Imports) (c : ClassName) : Text :=
  if c.qualifier.isEmpty || r.isShort c then c.simple else c.qualified

/-- Whether a class that is written short needs an import line. -/
def needsImport (r : Imports) (c : ClassName) : Bool :=
  !c.qualifier.isEmpty && !r.implicit.contains c.qualifier

/-- The classes of the import lines, in the order of their claims. -/
def importLines (r : Imports) : List ClassName := r.owners.filter r.needsImport

def size (r : Imports) : Nat := r.owners.length

end Imports

end JavaSource
