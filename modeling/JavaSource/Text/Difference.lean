import JavaSource.Text.Quoted

/-!
# Differences between texts

Two texts compared line by line: every line in which they differ is shown quoted from both.
-/

namespace JavaSource.Text

def quotedLine (line : Option Text) : Text := quoted (line.getD "<missing>".toList)

def lineDifference (number : Nat) (expected actual : Option Text) : Text :=
  if expected = actual then []
  else
    "line ".toList ++ ofNat number ++ ":\n  expected: ".toList ++ quotedLine expected ++
      "\n  actual:   ".toList ++ quotedLine actual ++ ['\n']

def lineDifferences : (number : Nat) → (expected actual : List Text) → Text
  | _, [], [] => []
  | n, e :: es, [] => lineDifference n (some e) none ++ lineDifferences (n + 1) es []
  | n, [], a :: as => lineDifference n none (some a) ++ lineDifferences (n + 1) [] as
  | n, e :: es, a :: as => lineDifference n (some e) (some a) ++ lineDifferences (n + 1) es as

def difference? (expected actual : Text) : Option Text :=
  if expected = actual then none
  else some ("Content mismatch:\n".toList ++
    lineDifferences 1 (split '\n' expected) (split '\n' actual))

end JavaSource.Text
