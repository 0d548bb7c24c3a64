import JavaSource.Proofs.PlainParts

/-!
# Parts inside scopes

A part whose names have no line breaks has, inside any number of scopes, the text that it has
outside of them, with a margin in front of every line. Its own scopes may begin and end in the
middle of a line. Only the separator lines between the members of a class stay empty.
-/

namespace JavaSource

open Text WriteOp Session

/-! ### Separated layouts -/

namespace Layout

/-- Layouts with a separator line between two of them. -/
def separated : List (List Layout) → List Layout
  | [] => []
  | [ls] => ls
  | ls :: ms :: rest => ls ++ .blank :: separated (ms :: rest)

theorem opsAll_indented_separated {unit : Text} {gs : List (List Layout)}
    (h : ∀ g ∈ gs, Finished (opsAll unit g)) :
    opsAll unit [.indented (separated gs)] =
      opsAll unit (separated (gs.map fun g => [.indented g])) := by
  induction gs with
  | nil => rfl
  | cons g gs ih =>
    cases gs with
    | nil => rfl
    | cons k gs =>
      -- the layer is at the start of a line again, where it passes a separator line on
      have hstart := (Layer.run_indent_finished (h g (List.mem_cons_self ..)) unit).1
      have hrest := ih fun g hg => h g (List.mem_cons_of_mem _ hg)
      simp only [opsAll, ops, List.append_nil] at hrest
      simp only [separated, List.map_cons, List.cons_append, List.nil_append, opsAll, ops,
        opsAll_append, Layer.run_append, hstart, Layer.run, Layer.step, if_true, List.append_nil,
        hrest]

theorem push_separated (unit : Text) (depth : Nat) {gs : List (List Layout)}
    (h : ∀ g ∈ gs, PlainAll (opsAll unit g)) (hfinished : ∀ g ∈ gs, Finished (opsAll unit g)) :
    push (codeStack unit depth true) (opsAll unit (separated gs)) =
      (codeStack unit depth true,
        Text.join ['\n']
          (gs.map fun g => shift (Page.margin unit depth) (renderAll (opsAll unit g)))) := by
  induction gs with
  | nil => exact push_nil _
  | cons g gs ih =>
    have hg := push_codeStack_finished unit depth (h g (List.mem_cons_self ..))
      (hfinished g (List.mem_cons_self ..))
    cases gs with
    | nil => exact hg
    | cons k gs =>
      have hrest := ih (fun g hg => h g (List.mem_cons_of_mem _ hg))
        fun g hg => hfinished g (List.mem_cons_of_mem _ hg)
      rw [separated, opsAll_append, opsAll, ops, push_append, hg, push_append,
        push_codeStack_blank, hrest]
      simp only [List.map_cons, Text.join, List.append_assoc]

end Layout

/-! ### Classes -/

namespace ClassDef

open Layout

/-- What stands in front of the members of a class. -/
def opening (naming : Naming) (c : ClassDef) : List Layout :=
  Doc.layout naming c.doc ++ annotationLines naming c.annotations ++
    [.text (c.head naming), .line [' ', '{']]

/-- The members between separator lines: all fields together, and each method. -/
def groups (naming : Naming) (c : ClassDef) : List (List Layout) :=
  (if c.fields.isEmpty then [] else [c.fields.flatMap (Field.layout naming)]) ++
    c.methods.map (Method.layout naming)

def openingText (r : Imports) (indent : Indent) (c : ClassDef) : Text :=
  render indent (c.opening r.name)

/-- The text of each group of members in its class. -/
def memberTexts (r : Imports) (indent : Indent) (c : ClassDef) : List Text :=
  (c.groups r.name).map fun g => render indent [.indented g]

theorem separated_cons_methods (naming : Naming) (g : List Layout) (ms : List Method) :
    separated (g :: ms.map (Method.layout naming)) = g ++ methodsLayout naming false ms := by
  induction ms generalizing g with
  | nil => exact (List.append_nil g).symm
  | cons m ms ih =>
    rw [List.map_cons, separated, ih, methodsLayout]
    rfl

theorem members_eq_separated (naming : Naming) (c : ClassDef) :
    c.members naming = separated (c.groups naming) := by
  unfold members groups
  cases hf : c.fields with
  | nil =>
    cases c.methods with
    | nil => rfl
    | cons m ms => exact (separated_cons_methods naming (m.layout naming) ms).symm
  | cons f fs => exact (separated_cons_methods naming _ c.methods).symm

theorem finished_opening (unit : Text) (naming : Naming) (c : ClassDef) :
    Finished (opsAll unit (c.opening naming)) := by
  rw [opening, List.append_cons]
  exact finished_append_line unit _ _

theorem finished_of_mem_groups {unit : Text} {naming : Naming} {c : ClassDef} {g : List Layout}
    (hg : g ∈ c.groups naming) : Finished (opsAll unit g) := by
  rcases List.mem_append.1 hg with hg | hg
  · split at hg
    · exact absurd hg List.not_mem_nil
    · rw [List.mem_singleton.1 hg]
      exact c.finished_fields unit naming
  · obtain ⟨m, -, rfl⟩ := List.mem_map.1 hg
    exact m.finished_layout unit naming

theorem plainAll_opening {unit : Text} {naming : Naming} {c : ClassDef}
    (h : ∀ n ∈ c.classNames, '\n' ∉ naming n) (hnames : ∀ n ∈ c.identifiers, '\n' ∉ n) :
    PlainAll (opsAll unit (c.opening naming)) := by
  simp only [classNames, List.forall_mem_append] at h
  obtain ⟨⟨⟨⟨hhead, hannotations⟩, hdoc⟩, -⟩, -⟩ := h
  simp only [identifiers, List.forall_mem_append, List.forall_mem_cons] at hnames
  obtain ⟨⟨⟨hname, hmembers⟩, -⟩, -⟩ := hnames
  have hline := c.break_not_mem_head isBreak_newline hname hhead
  rw [opening, plainAll_opsAll_append, plainAll_opsAll_append, plainAll_opsAll_cons,
    plainAll_opsAll_singleton]
  exact ⟨⟨Doc.plainAll_layout (Doc.linksUnbroken hdoc hmembers), plainAll_annotationLines hannotations⟩,
    plainAll_ops_text hline, plainAll_ops_line (by decide)⟩

theorem plainAll_of_mem_groups {unit : Text} (hunit : '\n' ∉ unit) {naming : Naming}
    {c : ClassDef} (h : ∀ n ∈ c.classNames, '\n' ∉ naming n)
    (hnames : ∀ n ∈ c.identifiers, '\n' ∉ n) {g : List Layout} (hg : g ∈ c.groups naming) :
    PlainAll (opsAll unit g) := by
  simp only [classNames, List.forall_mem_append, List.forall_mem_flatMap] at h
  obtain ⟨⟨-, hfields⟩, hmethods⟩ := h
  simp only [identifiers, List.forall_mem_append, List.forall_mem_flatMap] at hnames
  obtain ⟨⟨-, hfieldNames⟩, hmethodNames⟩ := hnames
  rcases List.mem_append.1 hg with hg | hg
  · split at hg
    · exact absurd hg List.not_mem_nil
    · rw [List.mem_singleton.1 hg]
      exact plainAll_opsAll_flatMap fun f hf =>
        f.plainAll_layout hunit (hfields f hf) (hfieldNames f hf)
  · obtain ⟨m, hm, rfl⟩ := List.mem_map.1 hg
    exact m.plainAll_layout hunit (hmethods m hm) (hmethodNames m hm)

theorem render_nest_layout {indent : Indent} {naming : Naming} {c : ClassDef}
    (hopening : PlainAll (opsAll indent.unit (c.opening naming)))
    (hgroups : ∀ g ∈ c.groups naming, PlainAll (opsAll indent.unit g)) (depth : Nat) :
    let margin := Page.margin indent.unit depth
    render indent (nest depth (c.layout naming)) =
      shift margin (render indent (c.opening naming)) ++
        Text.join ['\n']
          ((c.groups naming).map fun g => shift margin (render indent [.indented g])) ++
        shift margin ['}', '\n'] := by
  have hfinished : ∀ g ∈ c.groups naming, Finished (opsAll indent.unit g) :=
    fun g hg => finished_of_mem_groups hg
  -- every group has a scope for itself
  let scopes := (c.groups naming).map fun g => [indented g]
  have hplain : ∀ g ∈ scopes, PlainAll (opsAll indent.unit g) :=
    List.forall_mem_map.2 fun g hg => plainAll_opsAll_singleton.2
      (plainAll_ops_indented indent.newline_not_mem_unit (hgroups g hg))
  have hended : ∀ g ∈ scopes, Finished (opsAll indent.unit g) :=
    List.forall_mem_map.2 fun g hg => finished_indented (hfinished g hg)
  have hbody := push_separated indent.unit depth hplain hended
  have hlayout : c.layout naming =
      c.opening naming ++ ([.indented (separated (c.groups naming))] ++ [.line ['}']]) := by
    rw [layout, opening, members_eq_separated, List.append_assoc _ [_, _]]
    rfl
  have hstart := push_codeStack_finished indent.unit depth hopening
    (finished_opening indent.unit naming c)
  have hbrace : PlainAll (opsAll indent.unit [.line ['}']]) :=
    plainAll_opsAll_singleton.2 (plainAll_ops_line (by decide))
  have hend := push_codeStack_finished indent.unit depth hbrace
    (finished_append_line indent.unit [] _)
  rw [Layout.render, renderAll_nest, hlayout, opsAll_append, opsAll_append,
    opsAll_indented_separated hfinished, push_append, hstart, push_append, hbody, hend]
  simp only [scopes, List.map_map, List.append_assoc]
  rfl

end ClassDef

/-! ### Parts -/

namespace Part

theorem plainAll_layout {unit : Text} (hunit : '\n' ∉ unit) {r : Imports} {p : Part}
    (h : p.NamesUnbroken) (hclass : ∀ c, p ≠ classDef c) :
    PlainAll (Layout.opsAll unit (p.layout r.name)) := by
  have hnames : ∀ c ∈ p.classNames, '\n' ∉ r.name c := fun c hc =>
    Imports.not_mem_name (h.classes c hc) r
  cases p with
  | code c => exact Code.plainAll_layout hunit c hnames
  | doc d => exact Doc.plainAll_layout (Doc.linksUnbroken hnames h.identifiers)
  | field f => exact f.plainAll_layout hunit hnames h.identifiers
  | method m => exact m.plainAll_layout hunit hnames h.identifiers
  | classDef c => exact absurd rfl (hclass c)

/-- Inside scopes, a part has the text that it has outside of them, with a margin in front of
every line; between the members of a class stand separator lines, which stay empty. -/
theorem text_nested (r : Imports) (indent : Indent) (depth : Nat) {p : Part}
    (h : p.NamesUnbroken) :
    let margin := Page.margin indent.unit depth
    match p with
    | classDef c =>
      let opening := c.openingText r indent
      let members := c.memberTexts r indent
      (EndsLine opening ∧ ∀ t ∈ members, EndsLine t) ∧
        p.text r indent 0 = opening ++ Text.join ['\n'] members ++ ['}', '\n'] ∧
        p.text r indent depth =
          shift margin opening ++ Text.join ['\n'] (members.map (shift margin)) ++
            shift margin ['}', '\n']
    | p => p.text r indent depth = shift margin (p.text r indent 0) := by
  have hunit := indent.newline_not_mem_unit
  have hplain : (∀ c, p ≠ classDef c) → ∀ depth,
      p.text r indent depth = shift (Page.margin indent.unit depth) (p.text r indent 0) :=
    fun hclass depth => Layout.render_nest (plainAll_layout hunit h hclass) depth
  cases p with
  | classDef c =>
    have hnames : ∀ n ∈ c.classNames, '\n' ∉ r.name n := fun n hn =>
      Imports.not_mem_name (h.classes n hn) r
    have htext := c.render_nest_layout (ClassDef.plainAll_opening hnames h.identifiers)
      fun g hg => ClassDef.plainAll_of_mem_groups hunit hnames h.identifiers hg
    have hroot := htext 0
    simp only [margin_zero, shift_nil_margin] at hroot
    refine ⟨⟨?_, ?_⟩, ?_, ?_⟩
    · exact (c.finished_opening indent.unit r.name).endsLine_renderAll
    · refine List.forall_mem_map.2 fun g hg => ?_
      have hfinished : Finished (Layout.opsAll indent.unit g) :=
        ClassDef.finished_of_mem_groups hg
      exact (Layout.finished_indented hfinished).endsLine_renderAll
    · exact hroot
    · rw [ClassDef.memberTexts, List.map_map]
      exact htext depth
  | code c => exact hplain (fun _ => nofun) depth
  | doc d => exact hplain (fun _ => nofun) depth
  | field f => exact hplain (fun _ => nofun) depth
  | method m => exact hplain (fun _ => nofun) depth

/-- Code with a scope that starts in the middle of a line, without a final line break. -/
def argumentsPart : Part :=
  .code [.text "call(".toList, .indented [.text "a,\r\nb".toList], .text ")".toList]

/-- A class with a comment, a field and two methods. -/
def rowPart : Part :=
  .classDef {
    name := ⟨"db".toList, "Row".toList⟩
    doc := [.text "One row".toList]
    fields := [{ name := "id".toList, type := .named .string }]
    methods := [
      { name := "id".toList, isAbstract := true },
      { name := "run".toList, body := Code.line "go();".toList }] }

theorem argumentsPart_rowPart_nested :
    (argumentsPart.NamesUnbroken ∧
      argumentsPart.text .empty .tab 1 = "\tcall(\ta,\n\t\tb)".toList) ∧
      rowPart.NamesUnbroken ∧
        rowPart.text .empty .tab 1 =
          ("\t/**\n\t * One row\n\t */\n\tpublic class Row \x7b\n" ++
            "\t\tprivate java.lang.String id;\n" ++
            "\n\t\tpublic abstract void id();\n" ++
            "\n\t\tpublic void run() \x7b\n\t\t\tgo();\n\t\t\x7d\n\t\x7d\n").toList := by
  have harguments : argumentsPart.NamesUnbroken := ⟨by decide, by decide⟩
  have hrow : rowPart.NamesUnbroken := ⟨by decide, by decide⟩
  refine ⟨⟨harguments, ?_⟩, hrow, ?_⟩
  · rw [show argumentsPart.text .empty .tab 1 = _ from text_nested .empty .tab 1 harguments]
    decide +kernel
  · rw [show rowPart.text .empty .tab 1 = _ from (text_nested .empty .tab 1 hrow).2.2]
    decide +kernel

end Part

end JavaSource
