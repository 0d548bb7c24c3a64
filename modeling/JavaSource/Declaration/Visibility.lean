import JavaSource.Text.Basic

/-!
# Visibility

The access levels of classes and members, and modifiers in front of a declaration.
-/

namespace JavaSource

/-- An access level; a package-private declaration has no modifier. -/
inductive Visibility
  | publicAccess
  | protectedAccess
  | packageAccess
  | privateAccess
deriving DecidableEq

namespace Visibility

def modifier? : Visibility → Option Text
  | publicAccess => some "public".toList
  | protectedAccess => some "protected".toList
  | packageAccess => none
  | privateAccess => some "private".toList

def lead (v : Visibility) : Text :=
  match v.modifier? with
  | some m => m ++ [' ']
  | none => []

end Visibility

/-- A modifier with a blank behind it where the declaration has it, or nothing. -/
def modifierIf (present : Bool) (modifier : Text) : Text :=
  if present then modifier ++ [' '] else []

end JavaSource
