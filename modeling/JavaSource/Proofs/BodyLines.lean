import JavaSource.Part
import JavaSource.Proofs.BuiltNames
import JavaSource.Proofs.PlainParts

/-!
# The lines of a method body

The entries of a body are written one after the other, each with the margin of its blocks in front
of its lines. No entry shares a line with another one, and every scope of the code that is built
from a body begins and ends at the start of a line.
-/

namespace JavaSource

open Text WriteOp

/-! ### Printed bodies -/

def LinePart.content (naming : Naming) : LinePart → Text
  | text s => unifyBreaks s
  | type t => t.toType.text naming

def CodeLine.content (naming : Naming) : CodeLine → Text
  | text s => unifyBreaks s
  | parts ps => ps.flatMap (LinePart.content naming)

namespace BodyEntry

mutual

/-- The text of an entry at a depth. -/
def printed (naming : Naming) (unit : Text) (depth : Nat) : BodyEntry → Text
  | text s => linesBehind (Page.margin unit depth) (unifyBreaks (s ++ ['\n']))
  | line l => linesBehind (Page.margin unit depth) (l.content naming ++ ['\n'])
  | block header body =>
    linesBehind (Page.margin unit depth) (unifyBreaks (header ++ [' ', '{', '\n'])) ++
      printedBody naming unit (depth + 1) body ++ Page.margin unit depth ++ ['}', '\n']

def printedBody (naming : Naming) (unit : Text) (depth : Nat) : List BodyEntry → Text
  | [] => []
  | e :: es => e.printed naming unit depth ++ printedBody naming unit depth es

end

end BodyEntry

/-! ### Scopes of code -/

namespace Code

mutual

/-- The scopes of a fragment, each with the code in front of it in the scope around it. -/
def scopesOfFragment (front : Code) : CodeFragment → List (Code × Code)
  | .text _ => []
  | .type _ => []
  | .indented body => (front, body) :: scopes [] body

def scopes (front : Code) : List CodeFragment → List (Code × Code)
  | [] => []
  | fragment :: rest => scopesOfFragment front fragment ++ scopes (front ++ [fragment]) rest

end

theorem scopes_line (front : Code) (s : Text) : scopes front (line s) = [] := rfl

theorem scopes_append (front a b : Code) :
    scopes front (a ++ b) = scopes front a ++ scopes (front ++ a) b := by
  induction a generalizing front with
  | nil => simp [scopes]
  | cons fragment a ih => simp [scopes, ih]

end Code

theorem CodeLine.scopes_toCode (front : Code) (l : CodeLine) :
    Code.scopes front l.toCode = [] := by
  cases l with
  | text s => rfl
  | parts ps =>
    unfold toCode
    induction ps generalizing front with
    | nil => rfl
    | cons p ps ih => cases p <;> exact ih _

/-! ### Entries finish their lines -/

theorem Layout.exists_ofText_line (s : Text) :
    ∃ front l, ofText (s ++ ['\n']) = front ++ [.line l] := by
  induction s using lineInduction with
  | last s h => exact ⟨[], dropReturn s, by rw [ofText_line h]; rfl⟩
  | line a b h ih =>
    obtain ⟨front, l, hb⟩ := ih
    refine ⟨.line (dropReturn a) :: front, l, ?_⟩
    rw [List.append_assoc, List.cons_append, ofText_line h, hb]
    rfl

variable {unit : Text} {naming : Naming}

namespace Code

theorem layout_line (naming : Naming) (s : Text) :
    layout naming (line s) = Layout.ofText (s ++ ['\n']) :=
  List.append_nil _

theorem layout_indented (naming : Naming) (body : Code) :
    layout naming [.indented body] = [.indented (layout naming body)] :=
  List.append_nil _

theorem finished_append_line (unit : Text) (naming : Naming) (code : Code) (s : Text) :
    Finished (Layout.opsAll unit (layout naming (code ++ line s))) := by
  obtain ⟨front, l, hs⟩ := Layout.exists_ofText_line s
  rw [layout_append, layout_line, hs, ← List.append_assoc]
  exact Layout.finished_append_line unit _ l

end Code

namespace BodyEntry

theorem exists_toCode_line (e : BodyEntry) : ∃ front s, e.toCode = front ++ Code.line s := by
  cases e with
  | text s => exact ⟨[], s, rfl⟩
  | line l => exact ⟨l.toCode, [], rfl⟩
  | block header body => exact ⟨_, ['}'], rfl⟩

theorem finished_toCode (unit : Text) (naming : Naming) (e : BodyEntry) :
    Finished (Layout.opsAll unit (Code.layout naming e.toCode)) := by
  obtain ⟨front, s, hcode⟩ := e.exists_toCode_line
  rw [hcode]
  exact Code.finished_append_line unit naming front s

theorem finished_codeOfBody (unit : Text) (naming : Naming) (es : List BodyEntry) :
    Finished (Layout.opsAll unit (Code.layout naming (codeOfBody es))) := by
  induction es with
  | nil => exact WriteOp.finished_nil
  | cons e es ih =>
    rw [codeOfBody, Code.layout_append, Layout.opsAll_append]
    exact (finished_toCode unit naming e).append ih

mutual

/-- The scopes in the code of an entry begin and end at the start of a line. -/
theorem finished_scopes_toCode (unit : Text) (naming : Naming) {front : Code} :
    (e : BodyEntry) → ∀ p ∈ Code.scopes front e.toCode,
      Finished (Layout.opsAll unit (Code.layout naming p.1)) ∧
        Finished (Layout.opsAll unit (Code.layout naming (p.1 ++ [.indented p.2])))
  | text s, p, hp => absurd hp List.not_mem_nil
  | line l, p, hp => by
    rw [toCode, Code.scopes_append, CodeLine.scopes_toCode, Code.scopes_line] at hp
    exact absurd hp List.not_mem_nil
  | block header body, p, hp => by
    have hopen := Code.finished_append_line unit naming front (header ++ [' ', '{'])
    rw [toCode, Code.block, Code.scopes_append, Code.scopes_append, Code.scopes_line,
      Code.scopes_line, List.nil_append, List.append_nil, Code.scopes, Code.scopes,
      List.append_nil, Code.scopesOfFragment, List.mem_cons] at hp
    rcases hp with rfl | hp
    · refine ⟨hopen, ?_⟩
      rw [Code.layout_append, Layout.opsAll_append]
      exact hopen.append (Layout.finished_indented (finished_codeOfBody unit naming body))
    · exact finished_scopes_codeOfBody unit naming body p hp

theorem finished_scopes_codeOfBody (unit : Text) (naming : Naming) {front : Code} :
    (es : List BodyEntry) → ∀ p ∈ Code.scopes front (codeOfBody es),
      Finished (Layout.opsAll unit (Code.layout naming p.1)) ∧
        Finished (Layout.opsAll unit (Code.layout naming (p.1 ++ [.indented p.2])))
  | [], p, hp => absurd hp List.not_mem_nil
  | e :: es, p, hp => by
    rw [codeOfBody, Code.scopes_append, List.mem_append] at hp
    rcases hp with hp | hp
    · exact finished_scopes_toCode unit naming e p hp
    · exact finished_scopes_codeOfBody unit naming es p hp

end

end BodyEntry

/-! ### Entries at a depth -/

variable {indent : Indent}

theorem CodeLine.render_toCode (indent : Indent) (naming : Naming) (l : CodeLine) :
    Layout.render indent (Code.layout naming l.toCode) = l.content naming := by
  have htext : ∀ s, Layout.render indent (Code.layout naming [.text s]) = unifyBreaks s := by
    intro s
    rw [Code.layout, Code.layout, List.append_nil]
    exact Layout.renderAll_ofText indent.unit s
  cases l with
  | text s => exact htext s
  | parts ps =>
    rw [toCode, content]
    induction ps with
    | nil => rfl
    | cons p ps ih =>
      have hp : Layout.render indent (Code.layout naming [p.toFragment]) = p.content naming := by
        cases p with
        | text s => exact htext s
        | type t => exact List.append_nil _
      rw [List.map_cons, ← List.singleton_append, Code.layout_append, Layout.render_append, hp,
        ih, List.flatMap_cons]

theorem Code.render_nest_line (indent : Indent) (naming : Naming) (depth : Nat) (s : Text) :
    Layout.render indent (Layout.nest depth (layout naming (line s))) =
      linesBehind (Page.margin indent.unit depth) (unifyBreaks (s ++ ['\n'])) := by
  have hplain := Layout.plainAll_ofText indent.unit (s ++ ['\n'])
  have hfinished := finished_append_line indent.unit naming [] s
  rw [List.nil_append, layout_line] at hfinished
  rw [layout_line, Layout.render_nest_finished hplain hfinished, Layout.render,
    Layout.renderAll_ofText]

namespace BodyEntry

mutual

theorem render_toCode (depth : Nat) :
    (e : BodyEntry) → (∀ c ∈ Code.classNames e.toCode, '\n' ∉ naming c) →
      Layout.render indent (Layout.nest depth (Code.layout naming e.toCode)) =
        e.printed naming indent.unit depth
  | text s, _ => Code.render_nest_line indent naming depth s
  | line l, h => by
    have hplain := Code.plainAll_layout indent.newline_not_mem_unit (line l).toCode h
    have hfinished := finished_toCode indent.unit naming (line l)
    have hend : Layout.render indent (Code.layout naming (Code.line [])) = ['\n'] := rfl
    rw [Layout.render_nest_finished hplain hfinished, toCode, Code.layout_append,
      Layout.render_append, l.render_toCode, hend, printed]
  | block header body, h => by
    rw [toCode, Code.classNames_block] at h
    -- header, scope and brace each finish their lines, so they are printed one by one
    have hbody := Code.plainAll_layout indent.newline_not_mem_unit (codeOfBody body) h
    have hinner := render_codeOfBody (depth + 1) body h
    have hopen := Layout.plainAll_ofText indent.unit (header ++ [' ', '{'] ++ ['\n'])
    rw [← Code.layout_line naming] at hopen
    have hscope := Layout.plainAll_opsAll_singleton.2
      (Layout.plainAll_ops_indented indent.newline_not_mem_unit hbody)
    have hended := Layout.finished_indented (finished_codeOfBody indent.unit naming body)
    have hclose : ∀ margin : Text, linesBehind margin (unifyBreaks ['}', '\n']) =
        margin ++ ['}', '\n'] := by
      intro margin
      have hlines : endedLines (unifyBreaks ['}', '\n']) = [['}']] := rfl
      simp [linesBehind, hlines]
    rw [toCode, Code.block, List.append_assoc, Code.layout_append, Code.layout_append,
      Code.layout_indented,
      Layout.render_nest_append hopen (Code.finished_append_line indent.unit naming [] _),
      Layout.render_nest_append hscope hended, Code.render_nest_line, Code.render_nest_line,
      ← Layout.nest_succ, hinner, printed]
    simp only [hclose, List.append_assoc, List.cons_append, List.nil_append]

theorem render_codeOfBody (depth : Nat) :
    (es : List BodyEntry) → (∀ c ∈ Code.classNames (codeOfBody es), '\n' ∉ naming c) →
      Layout.render indent (Layout.nest depth (Code.layout naming (codeOfBody es))) =
        printedBody naming indent.unit depth es
  | [], _ => by
    have hplain : PlainAll (Layout.opsAll indent.unit []) := plainAll_nil
    rw [codeOfBody, Code.layout, Layout.render_nest hplain, printedBody]
    rfl
  | e :: es, h => by
    rw [codeOfBody, Code.classNames_append, List.forall_mem_append] at h
    have hplain := Code.plainAll_layout indent.newline_not_mem_unit e.toCode h.1
    rw [codeOfBody, Code.layout_append,
      Layout.render_nest_append hplain (finished_toCode indent.unit naming e),
      render_toCode depth e h.1, render_codeOfBody depth es h.2, printedBody]

end

/-- The body of an accepted member is built. Inside any number of scopes the code has the text of
the entries, one after the other, and each scope in it begins and ends at the start of a line. -/
theorem buildBody_lines {es : List BodyEntry} (h : BodyAccepted es) (r : Imports) :
    ∃ code, buildBody es = .ok code ∧
      (∀ indent depth,
        (Part.code code).text r indent depth = printedBody r.name indent.unit depth es) ∧
      ∀ p ∈ Code.scopes [] code, ∀ indent,
        EndsLine (Layout.render indent (Code.layout r.name p.1)) ∧
          EndsLine (Layout.render indent (Code.layout r.name (p.1 ++ [.indented p.2]))) := by
  have hnames : ∀ c ∈ Code.classNames (codeOfBody es), '\n' ∉ r.name c := by
    intro c hc
    rw [classNames_codeOfBody] at hc
    exact (r.unbroken_name (TypeExpr.proper_toType_list h c hc)).newline_not_mem
  refine ⟨codeOfBody es, buildBody_eq es h, fun indent depth => ?_, fun p hp indent => ?_⟩
  · exact render_codeOfBody depth es hnames
  · obtain ⟨hfront, hscope⟩ := finished_scopes_codeOfBody indent.unit r.name es p hp
    exact ⟨hfront.endsLine_renderAll, hscope.endsLine_renderAll⟩

/-- A text of two lines, a line that ends with a carriage return, an empty line and an empty
block. -/
def retryBody : List BodyEntry :=
  [.text "a();\r\nb();".toList,
    .line (.parts [.type (.name "java.util.List".toList), .text " xs;\r".toList]),
    .block "try".toList [.text [], .block "if (x)".toList []]]

theorem retryBody_lines :
    BodyAccepted retryBody ∧ ∃ code, buildBody retryBody = .ok code ∧
      (Part.code code).text .empty .tab 1 =
        ("\ta();\n\tb();\n\tjava.util.List xs;\r\n" ++
          "\ttry \x7b\n\t\t\n\t\tif (x) \x7b\n\t\t\x7d\n\t\x7d\n").toList := by
  have haccepted : BodyAccepted retryBody := by
    unfold BodyAccepted
    decide +kernel
  obtain ⟨code, hcode, htext, -⟩ := buildBody_lines haccepted .empty
  refine ⟨haccepted, code, hcode, ?_⟩
  rw [htext]
  decide +kernel

end BodyEntry

end JavaSource
