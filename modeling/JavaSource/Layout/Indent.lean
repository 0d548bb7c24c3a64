import JavaSource.Text.Basic

/-!
# Indentation

The unit of indentation of a source file: a number of spaces or one tab character. A scope at
depth `n` repeats the unit `n` times.
-/

namespace JavaSource

inductive Indent
  | spaces (width : Nat)
  | tab
deriving DecidableEq

namespace Indent

/-- Four spaces, the unit that is used where no other is chosen. -/
def standard : Indent := spaces 4

def unit : Indent → Text
  | spaces width => List.replicate width ' '
  | tab => ['\t']

def describe : Indent → Text
  | spaces width => Text.ofNat width ++ " spaces".toList
  | tab => "tab".toList

theorem newline_not_mem_unit (indent : Indent) : '\n' ∉ indent.unit := by
  cases indent with
  | spaces width => simp [unit, List.mem_replicate]
  | tab => simp [unit]

end Indent

end JavaSource
