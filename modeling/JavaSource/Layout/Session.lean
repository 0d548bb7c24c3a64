import JavaSource.Layout.Basic

/-!
# Writing sessions

A session is a program of writing actions on a stack of writers: pieces, lines, separator lines,
ready layouts, and scopes that open a layer, run their own actions on it and leave it again. It
is recorded step by step, with the depth of the writer that a step ran on and the text that
arrived at the root.
-/

namespace JavaSource

inductive Action
  | text (s : Text)
  | line (s : Text)
  | blank
  /-- Layouts written as one action. -/
  | code (layouts : List Layout)
  | indented (body : List Action)
  | comment (body : List Action)

inductive StepKind
  | text
  | line
  | blank
  | code
  | indented
  | comment
deriving DecidableEq

/-- A step of a session: what was done, at which depth, and the text that arrived at the root. -/
structure Step where
  kind : StepKind
  depth : Nat
  added : Text

namespace Session

abbrev Stack := List Layer

/-- Writes operations to the innermost writer; the text is what the root receives. -/
def push : Stack → List WriteOp → Stack × Text
  | [], ops => ([], WriteOp.renderAll ops)
  | l :: outer, ops =>
    let r := l.run ops
    let p := push outer r.2
    (r.1 :: p.1, p.2)

/-- The depth of the innermost writer: comments do not count. -/
def depth : Stack → Nat
  | [] => 0
  | .indent _ _ :: outer => depth outer + 1
  | .comment _ :: outer => depth outer

def write (kind : StepKind) (stack : Stack) (ops : List WriteOp) : Stack × List Step :=
  let p := push stack ops
  (p.1, [⟨kind, depth p.1, p.2⟩])

/-- Leaves the innermost scope: the text of its closing and the stack around it. -/
def leave : Stack → Stack × Text
  | [] => ([], [])
  | l :: outer => push outer l.closing

mutual

/-- The steps of one action. A scope shows one step when it is opened, a comment also one when it
is closed. -/
def perform (unit : Text) (stack : Stack) : Action → Stack × List Step
  | .text s => write .text stack [.text s]
  | .line s => write .line stack [.line s]
  | .blank => write .blank stack [.blank]
  | .code layouts => write .code stack (Layout.opsAll unit layouts)
  | .indented body =>
    let inner := Layer.indent unit true :: stack
    let r := performAll unit inner body
    ((leave r.1).1, ⟨.indented, depth inner, []⟩ :: r.2)
  | .comment body =>
    let o := write .comment stack Layer.opening
    let r := performAll unit (Layer.comment .lineStart :: o.1) body
    let p := leave r.1
    (p.1, o.2 ++ r.2 ++ [⟨.comment, depth p.1, p.2⟩])

def performAll (unit : Text) (stack : Stack) : List Action → Stack × List Step
  | [] => (stack, [])
  | a :: rest =>
    let r := perform unit stack a
    let s := performAll unit r.1 rest
    (s.1, r.2 ++ s.2)

end

def steps (indent : Indent) (actions : List Action) : List Step :=
  (performAll indent.unit [] actions).2

def text (steps : List Step) : Text := steps.flatMap Step.added

end Session

end JavaSource
