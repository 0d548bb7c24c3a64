import JavaSource.Layout.Indent
import JavaSource.Layout.Layer

/-!
# Layouts

A layout is what is to be written, as a tree: pieces and lines of text, separator lines, scopes
that stand one unit deeper, and comments. Its text depends only on the unit of indentation, which
every scope puts in front of its lines.
-/

namespace JavaSource

/-- A part of a source file before its indentation is known. -/
inductive Layout
  | text (s : Text)
  | line (s : Text)
  | blank
  /-- A scope one unit deeper. -/
  | indented (body : List Layout)
  /-- A documentation comment around its content. -/
  | comment (body : List Layout)

namespace Layout

mutual

/-- The writing operations of a layout for a unit of indentation. -/
def ops (unit : Text) : Layout → List WriteOp
  | text s => [.text s]
  | line s => [.line s]
  | blank => [.blank]
  | indented body => ((Layer.indent unit true).run (opsAll unit body)).2
  | comment body =>
    let r := (Layer.comment .lineStart).run (opsAll unit body)
    Layer.opening ++ r.2 ++ r.1.closing

def opsAll (unit : Text) : List Layout → List WriteOp
  | [] => []
  | l :: ls => l.ops unit ++ opsAll unit ls

end

theorem opsAll_eq (unit : Text) (ls : List Layout) : opsAll unit ls = ls.flatMap (ops unit) := by
  induction ls with
  | nil => rfl
  | cons l ls ih => simp [opsAll, ih]

theorem opsAll_append (unit : Text) (ls ms : List Layout) :
    opsAll unit (ls ++ ms) = opsAll unit ls ++ opsAll unit ms := by
  simp [opsAll_eq]

def render (indent : Indent) (ls : List Layout) : Text :=
  WriteOp.renderAll (opsAll indent.unit ls)

theorem render_append (indent : Indent) (ls ms : List Layout) :
    render indent (ls ++ ms) = render indent ls ++ render indent ms := by
  simp [render, opsAll_append]

def nest : Nat → List Layout → List Layout
  | 0, ls => ls
  | n + 1, ls => [indented (nest n ls)]

/-- Text as layouts: each line break ends a line, less one carriage return directly before it,
and what follows the last line break is a piece of the next line. -/
def ofText (s : Text) : List Layout := go (Text.split '\n' s)
where
  go : List Text → List Layout
    | [] => []
    | [last] => if last.isEmpty then [] else [text last]
    | l :: m :: rest => line (Text.dropReturn l) :: go (m :: rest)

end Layout

end JavaSource
