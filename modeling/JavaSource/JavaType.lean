import JavaSource.ClassName

/-!
# Types

The types that a declaration can mention: primitive types, classes, arrays and generic classes
with their arguments. A type is written by a naming, which decides for every class in it.
-/

namespace JavaSource

inductive JavaType
  | primitive (p : Primitive)
  | named (c : ClassName)
  | array (element : JavaType)
  | generic (base : ClassName) (args : List JavaType)

namespace JavaType

/-- A keyword of a primitive type is that type, any other text names a class. -/
def ofText (s : Text) : JavaType :=
  match Primitive.ofKeyword? s with
  | some p => primitive p
  | none => named (ClassName.ofText s)

def arrays : Nat → JavaType → JavaType
  | 0, t => t
  | n + 1, t => array (arrays n t)

/-- The type without its arguments, at every array depth. -/
def erasure : JavaType → JavaType
  | primitive p => primitive p
  | named c => named c
  | array t => array t.erasure
  | generic base _ => named base

def isErased : JavaType → Bool
  | primitive _ => true
  | named _ => true
  | array t => t.isErased
  | generic _ _ => false

theorem isErased_iff {t : JavaType} : t.isErased = true ↔ t.erasure = t := by
  induction t using JavaType.rec (motive_2 := fun _ => True) with
  | primitive p => simp [isErased, erasure]
  | named c => simp [isErased, erasure]
  | array t ih => simp [isErased, erasure, ih]
  | generic base args => simp [isErased, erasure]
  | nil => trivial
  | cons => trivial

/-! ### The classes of a type -/

mutual

/-- The classes that a type mentions, in the order in which they are written. -/
def classNames : JavaType → List ClassName
  | primitive _ => []
  | named c => [c]
  | array t => t.classNames
  | generic base args => base :: classNamesOfArgs args

/-- The classes that a list of type arguments mentions. -/
def classNamesOfArgs : List JavaType → List ClassName
  | [] => []
  | t :: ts => t.classNames ++ classNamesOfArgs ts

end

/-! ### The text of a type -/

mutual

/-- The text of a type under a naming; a generic class without arguments has no angle brackets. -/
def text (naming : Naming) : JavaType → Text
  | primitive p => p.keyword
  | named c => naming c
  | array t => t.text naming ++ ['[', ']']
  | generic base args =>
    naming base ++ if args.isEmpty then [] else '<' :: textOfArgs naming args ++ ['>']

/-- The texts of type arguments with commas between them. -/
def textOfArgs (naming : Naming) : List JavaType → Text
  | [] => []
  | [t] => t.text naming
  | t :: u :: rest => t.text naming ++ [',', ' '] ++ textOfArgs naming (u :: rest)

end

/-- The text of a type with every class written in full. -/
def qualified (t : JavaType) : Text := t.text ClassName.qualified

mutual

/-- The text of a type depends on a naming only through the classes that the type mentions. -/
theorem text_congr {f g : Naming} :
    (t : JavaType) → (∀ c ∈ t.classNames, f c = g c) → t.text f = t.text g
  | primitive _, _ => rfl
  | named c, h => by simp only [text]; exact h c (by simp [classNames])
  | array t, h => by
    simp only [text]
    rw [text_congr t fun c hc => h c (by simpa only [classNames] using hc)]
  | generic base args, h => by
    simp only [text]
    rw [h base (by simp [classNames]),
      textOfArgs_congr args fun c hc => h c (by simp [classNames, hc])]

theorem textOfArgs_congr {f g : Naming} :
    (ts : List JavaType) → (∀ c ∈ classNamesOfArgs ts, f c = g c) →
      textOfArgs f ts = textOfArgs g ts
  | [], _ => rfl
  | [t], h => by
    simp only [textOfArgs]
    exact text_congr t fun c hc => h c (by simp [classNamesOfArgs, hc])
  | t :: u :: rest, h => by
    simp only [textOfArgs]
    rw [text_congr t fun c hc => h c (by simp [classNamesOfArgs, hc]),
      textOfArgs_congr (u :: rest) fun c hc => h c (by
        rw [classNamesOfArgs]
        exact List.mem_append_right _ hc)]

end

end JavaType

end JavaSource
