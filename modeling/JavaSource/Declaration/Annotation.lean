import JavaSource.ClassName
import JavaSource.Layout.Basic

/-!
# Annotations

The annotations of a declaration stand on lines of their own above it.
-/

namespace JavaSource

def annotationLines (naming : Naming) (annotations : List ClassName) : List Layout :=
  annotations.map fun c => .line ('@' :: naming c)

end JavaSource
