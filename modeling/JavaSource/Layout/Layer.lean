import JavaSource.Text.Basic

/-!
# Writing through layers

Source text is produced by writing operations: a piece of the current line, a finished line, or
an empty separator line. A layer stands between a writer and the writer around it and changes
operations on their way: an indenting layer puts one unit in front of every line, a comment layer
a star, with each comment terminator made harmless. A layer remembers only where the current line
stands.
-/

namespace JavaSource

inductive WriteOp
  /-- A piece of the current line. -/
  | text (s : Text)
  /-- The rest of the current line and its end. -/
  | line (s : Text)
  /-- An empty line between two parts. -/
  | blank
deriving DecidableEq

namespace WriteOp

def render : WriteOp → Text
  | text s => s
  | line s => s ++ ['\n']
  | blank => ['\n']

def renderAll (ops : List WriteOp) : Text := ops.flatMap render

@[simp] theorem renderAll_nil : renderAll [] = [] := rfl

@[simp] theorem renderAll_cons (op : WriteOp) (ops : List WriteOp) :
    renderAll (op :: ops) = op.render ++ renderAll ops := rfl

@[simp] theorem renderAll_append (ops more : List WriteOp) :
    renderAll (ops ++ more) = renderAll ops ++ renderAll more := by
  simp [renderAll]

end WriteOp

/-! ### Comment text -/

/-- A slash inside a comment where it would end the comment. -/
def harmlessSlash : Text := "&#47;".toList

/-- Text for the inside of a comment: every slash directly behind a star is replaced, where
`afterStar` says whether the text itself stands directly behind one. -/
def commentText : (afterStar : Bool) → Text → Text
  | _, [] => []
  | afterStar, c :: s =>
    (if afterStar && c == '/' then harmlessSlash else [c]) ++ commentText (c == '*') s

inductive CommentPosition
  | lineStart
  | inLine (afterStar : Bool)
deriving DecidableEq

namespace CommentPosition

def lead : CommentPosition → List WriteOp
  | lineStart => [.text " * ".toList]
  | inLine _ => []

/-- Whether the last character of the current line is a star. -/
def afterStar : CommentPosition → Bool
  | lineStart => false
  | inLine star => star

end CommentPosition

/-! ### Layers -/

inductive Layer
  | indent (unit : Text) (atLineStart : Bool)
  | comment (position : CommentPosition)
deriving DecidableEq

namespace Layer

/-- The unit of an indenting layer, at the start of a line only. -/
def lead (unit : Text) (atLineStart : Bool) : List WriteOp :=
  if atLineStart then [.text unit] else []

/-- What a layer makes of one operation: its next state and the operations passed on. An empty
piece of text changes nothing, and an empty line of a comment has a star but no blank. -/
def step : Layer → WriteOp → Layer × List WriteOp
  | indent unit start, .text s =>
    if s.isEmpty then (indent unit start, [])
    else (indent unit false, lead unit start ++ [.text s])
  | indent unit start, .line s => (indent unit true, lead unit start ++ [.line s])
  | indent unit start, .blank => (indent unit true, if start then [.blank] else [.line []])
  | comment p, .text s =>
    if s.isEmpty then (comment p, [])
    else (comment (.inLine (s.getLast? == some '*')),
      p.lead ++ [.text (commentText p.afterStar s)])
  | comment p, .line s => (comment .lineStart, commentLine p s)
  | comment p, .blank => (comment .lineStart, commentLine p [])
where
  /-- A finished line of a comment. -/
  commentLine (p : CommentPosition) (s : Text) : List WriteOp :=
    if p = .lineStart ∧ s = [] then [.line " *".toList]
    else p.lead ++ [.line (commentText p.afterStar s)]

def run : Layer → List WriteOp → Layer × List WriteOp
  | l, [] => (l, [])
  | l, op :: ops =>
    let p := l.step op
    let r := run p.1 ops
    (r.1, p.2 ++ r.2)

@[simp] theorem run_nil (l : Layer) : l.run [] = (l, []) := rfl

theorem run_append (l : Layer) (ops more : List WriteOp) :
    l.run (ops ++ more) =
      (((l.run ops).1.run more).1, (l.run ops).2 ++ ((l.run ops).1.run more).2) := by
  induction ops generalizing l with
  | nil => simp
  | cons op ops ih => simp [run, ih]

def opening : List WriteOp := [.line "/**".toList]

/-- What closes a layer when its scope is left: a comment finishes its pending line and ends. -/
def closing : Layer → List WriteOp
  | indent _ _ => []
  | comment .lineStart => [.line " */".toList]
  | comment (.inLine _) => [.line [], .line " */".toList]

end Layer

end JavaSource
