import JavaSource.CompilationUnit
import JavaSource.Proofs.QualifiedName
import JavaSource.Proofs.WriterStack

/-!
# The lines of a source file

A file is written piece by piece, and a line of it may come from several pieces. Where operations
leave no line unfinished, the lines of a longer text are those of its parts; so each method of a
class has one line of the file for itself, with its signature, and these lines come in the order
of the methods.
-/

namespace JavaSource

/-! ### Lines of a text -/

namespace Text

/-- The lines of a text that are ended by a line break. -/
def endedLines (s : Text) : List Text := (split '\n' s).dropLast

/-- What follows the text starts a line of its own. -/
def EndsLine (s : Text) : Prop := s = [] ∨ ∃ front, s = front ++ ['\n']

theorem endedLines_append {a : Text} (h : EndsLine a) (b : Text) :
    endedLines (a ++ b) = endedLines a ++ endedLines b := by
  rcases h with rfl | ⟨front, rfl⟩
  · rfl
  · have hfront : endedLines (front ++ ['\n']) = split '\n' front := by
      rw [endedLines, split_append]
      exact List.dropLast_concat
    have hwhole : endedLines (front ++ '\n' :: b) = split '\n' front ++ endedLines b := by
      rw [endedLines, split_append, List.dropLast_append_of_ne_nil (split_ne_nil '\n' b)]
      rfl
    rw [List.append_assoc, List.singleton_append, hwhole, hfront]

theorem endedLines_line {s : Text} (h : '\n' ∉ s) : endedLines (s ++ ['\n']) = [s] := by
  rw [endedLines, split_append, split_eq_singleton h]
  rfl

theorem endedLines_flatMap_line {α : Type} {f : α → Text} {l : List α}
    (h : ∀ a ∈ l, '\n' ∉ f a) : endedLines (l.flatMap fun a => f a ++ ['\n']) = l.map f := by
  induction l with
  | nil => rfl
  | cons a l ih =>
    have hhead := endedLines_line (h a (List.mem_cons_self ..))
    have htail := ih fun b hb => h b (List.mem_cons_of_mem _ hb)
    rw [List.flatMap_cons, endedLines_append (Or.inr ⟨f a, rfl⟩), hhead, htail]
    rfl

end Text

/-! ### Operations that finish their lines -/

namespace WriteOp

/-- No line is left unfinished. -/
def Finished (ops : List WriteOp) : Prop := ∀ s, ops.getLast? ≠ some (.text s)

theorem finished_nil : Finished [] := by
  intro s h
  simp at h

theorem finished_append_line (ops : List WriteOp) (s : Text) : Finished (ops ++ [.line s]) := by
  intro t h
  simp at h

theorem Finished.append {ops more : List WriteOp} (h : Finished ops) (hmore : Finished more) :
    Finished (ops ++ more) := by
  intro s hs
  rw [List.getLast?_append] at hs
  cases hl : more.getLast? with
  | none =>
    rw [hl, Option.none_or] at hs
    exact h s hs
  | some op =>
    rw [hl, Option.some_or] at hs
    exact hmore s (hl.trans hs)

theorem finished_flatMap {α : Type} {f : α → List WriteOp} {l : List α}
    (h : ∀ a ∈ l, Finished (f a)) : Finished (l.flatMap f) := by
  induction l with
  | nil => exact finished_nil
  | cons a l ih =>
    have hhead := h a (List.mem_cons_self ..)
    have htail := ih fun b hb => h b (List.mem_cons_of_mem _ hb)
    rw [List.flatMap_cons]
    exact hhead.append htail

theorem Finished.endsLine_renderAll {ops : List WriteOp} (h : Finished ops) :
    Text.EndsLine (renderAll ops) := by
  rcases List.eq_nil_or_concat ops with rfl | ⟨front, op, rfl⟩
  · exact Or.inl rfl
  · right
    rw [List.concat_eq_append] at h ⊢
    cases op with
    | text s => exact absurd List.getLast?_concat (h s)
    | line s => exact ⟨renderAll front ++ s, by simp [render]⟩
    | blank => exact ⟨renderAll front, by simp [render]⟩

end WriteOp

namespace Layer

/-- An indenting layer that is handed finished lines is back at the start of a line. -/
theorem run_indent_finished {ops : List WriteOp} (h : WriteOp.Finished ops) (unit : Text) :
    ((indent unit true).run ops).1 = indent unit true ∧
      WriteOp.Finished ((indent unit true).run ops).2 := by
  rcases List.eq_nil_or_concat ops with rfl | ⟨front, op, rfl⟩
  · exact ⟨rfl, WriteOp.finished_nil⟩
  · rw [List.concat_eq_append] at h ⊢
    obtain ⟨start, hstart⟩ := run_indent unit true front
    rw [run_append, hstart, run_singleton]
    cases op with
    | text s => exact absurd List.getLast?_concat (h s)
    | line s =>
      refine ⟨rfl, ?_⟩
      simp only [step, ← List.append_assoc]
      exact WriteOp.finished_append_line _ s
    | blank =>
      refine ⟨rfl, fun s hs => ?_⟩
      cases start <;> simp [step] at hs

theorem finished_closing {l : Layer} (h : l.units = 0) (ops : List WriteOp) :
    WriteOp.Finished (ops ++ l.closing) := by
  cases l with
  | indent unit start => exact absurd h Nat.one_ne_zero
  | comment p =>
    cases p with
    | lineStart => exact WriteOp.finished_append_line ops _
    | inLine star =>
      have hclosing := WriteOp.finished_append_line (ops ++ [.line []]) " */".toList
      rwa [List.append_assoc] at hclosing

end Layer

/-! ### Layouts -/

namespace Layout

open WriteOp

theorem finished_append_line (unit : Text) (ls : List Layout) (s : Text) :
    Finished (opsAll unit (ls ++ [.line s])) := by
  rw [opsAll_append]
  exact WriteOp.finished_append_line _ s

theorem finished_opsAll {unit : Text} {ls : List Layout} (h : ∀ l ∈ ls, Finished (l.ops unit)) :
    Finished (opsAll unit ls) := by
  rw [opsAll_eq]
  exact finished_flatMap h

theorem finished_comment (unit : Text) (body : List Layout) :
    Finished ((comment body).ops unit) := by
  refine Layer.finished_closing ?_ _
  rw [Layer.units_run]
  rfl

/-- The lines of layouts that stand one unit deeper. -/
def deeperLines (unit : Text) (ls : List Layout) : List Text :=
  Text.endedLines (renderAll ((Layer.indent unit true).run (opsAll unit ls)).2)

theorem deeperLines_append {unit : Text} {ls : List Layout} (h : Finished (opsAll unit ls))
    (ms : List Layout) :
    deeperLines unit (ls ++ ms) = deeperLines unit ls ++ deeperLines unit ms := by
  obtain ⟨hstart, hfinished⟩ := Layer.run_indent_finished h unit
  unfold deeperLines
  rw [opsAll_append, Layer.run_append, hstart, renderAll_append,
    Text.endedLines_append hfinished.endsLine_renderAll]

theorem deeperLines_text_line {unit s rest : Text} (hs : s ≠ []) (h : '\n' ∉ unit ++ s ++ rest) :
    deeperLines unit [.text s, .line rest] = [unit ++ s ++ rest] := by
  have hrun : renderAll ((Layer.indent unit true).run (opsAll unit [.text s, .line rest])).2 =
      unit ++ s ++ rest ++ ['\n'] := by
    simp [opsAll, ops, Layer.run, Layer.step, Layer.lead, hs, WriteOp.render]
  rw [deeperLines, hrun, Text.endedLines_line h]

end Layout

open Layout WriteOp

/-! ### Members -/

theorem Doc.finished_layout (unit : Text) (naming : Naming) (doc : Doc) :
    Finished (opsAll unit (Doc.layout naming doc)) := by
  unfold Doc.layout
  split
  · exact finished_nil
  · refine finished_opsAll fun l hl => ?_
    rw [List.mem_singleton.1 hl]
    exact finished_comment unit _

theorem finished_annotationLines (unit : Text) (naming : Naming) (annotations : List ClassName) :
    Finished (opsAll unit (annotationLines naming annotations)) := by
  refine finished_opsAll fun l hl => ?_
  obtain ⟨c, -, rfl⟩ := List.mem_map.1 hl
  exact WriteOp.finished_append_line [] _

theorem Field.finished_layout (unit : Text) (naming : Naming) (f : Field) :
    Finished (opsAll unit (f.layout naming)) := by
  unfold Field.layout
  cases f.init with
  | none => exact finished_append_line unit _ _
  | some code =>
    dsimp only
    rw [← List.append_assoc]
    exact finished_append_line unit _ _

namespace Method

/-- What ends the line of a signature: a semicolon, or the brace of the body. -/
def headEnd (m : Method) : Text := if m.isAbstract then [';'] else [' ', '{']

/-- The line of a method that stands one unit deep. -/
def headLine (unit : Text) (naming : Naming) (m : Method) : Text :=
  unit ++ m.signature naming ++ m.headEnd

/-- What stands above the line of the signature. -/
def above (naming : Naming) (m : Method) : List Layout :=
  Doc.layout naming m.doc ++ annotationLines naming m.annotations

/-- What stands below the line of the signature. -/
def below (naming : Naming) (m : Method) : List Layout :=
  if m.isAbstract then [] else [.indented (Code.layout naming m.body), .line ['}']]

theorem layout_eq (naming : Naming) (m : Method) :
    m.layout naming =
      m.above naming ++ ([.text (m.signature naming), .line m.headEnd] ++ m.below naming) := by
  unfold layout above below headEnd
  cases m.isAbstract <;> rfl

theorem signature_ne_nil (naming : Naming) (m : Method) : m.signature naming ≠ [] := by
  simp [signature]

theorem finished_above (unit : Text) (naming : Naming) (m : Method) :
    Finished (opsAll unit (m.above naming)) := by
  rw [above, opsAll_append]
  exact (Doc.finished_layout unit naming m.doc).append
    (finished_annotationLines unit naming m.annotations)

theorem finished_layout (unit : Text) (naming : Naming) (m : Method) :
    Finished (opsAll unit (m.layout naming)) := by
  have hbelow : ∃ ls s, [.text (m.signature naming), .line m.headEnd] ++ m.below naming =
      ls ++ [Layout.line s] := by
    unfold below
    split
    · exact ⟨[_], _, rfl⟩
    · exact ⟨[_, _, _], _, rfl⟩
  obtain ⟨ls, s, hs⟩ := hbelow
  rw [layout_eq, hs, ← List.append_assoc]
  exact finished_append_line unit _ s

theorem headLine_mem_deeperLines {unit : Text} {naming : Naming} {m : Method}
    (hunit : '\n' ∉ unit) (h : '\n' ∉ m.signature naming) :
    m.headLine unit naming ∈ deeperLines unit (m.layout naming) := by
  have hend : '\n' ∉ m.headEnd := by
    unfold headEnd
    split <;> decide
  have hline : deeperLines unit [.text (m.signature naming), .line m.headEnd] =
      [m.headLine unit naming] :=
    deeperLines_text_line (m.signature_ne_nil naming) (by simp [hunit, h, hend])
  have hfinished : Finished (opsAll unit [.text (m.signature naming), .line m.headEnd]) :=
    finished_append_line unit [_] _
  rw [layout_eq, deeperLines_append (m.finished_above unit naming), deeperLines_append hfinished,
    hline]
  exact List.mem_append_right _ (List.mem_cons_self ..)

end Method

/-! ### Classes and files -/

namespace ClassDef

/-- The empty line in front of a method. -/
theorem finished_gap (unit : Text) (opensBody : Bool) :
    Finished (opsAll unit (if opensBody then [] else [.blank])) := by
  intro s hs
  cases opensBody <;> simp [opsAll, ops] at hs

theorem finished_methodsLayout (unit : Text) (naming : Naming) (opensBody : Bool)
    (ms : List Method) : Finished (opsAll unit (methodsLayout naming opensBody ms)) := by
  induction ms generalizing opensBody with
  | nil => exact finished_nil
  | cons m ms ih =>
    rw [methodsLayout, opsAll_append, opsAll_append]
    exact ((finished_gap unit opensBody).append (m.finished_layout unit naming)).append (ih false)

theorem headLines_sublist_methodsLayout {unit : Text} {naming : Naming} (hunit : '\n' ∉ unit)
    (opensBody : Bool) {ms : List Method} (h : ∀ m ∈ ms, '\n' ∉ m.signature naming) :
    (ms.map (Method.headLine unit naming)).Sublist
      (deeperLines unit (methodsLayout naming opensBody ms)) := by
  induction ms generalizing opensBody with
  | nil => exact List.nil_sublist _
  | cons m ms ih =>
    have hhead := Method.headLine_mem_deeperLines hunit (h m (List.mem_cons_self ..))
    have htail := ih false fun k hk => h k (List.mem_cons_of_mem _ hk)
    rw [methodsLayout, List.append_assoc, deeperLines_append (finished_gap unit opensBody),
      deeperLines_append (m.finished_layout unit naming), List.map_cons, ← List.singleton_append]
    -- the method adds its own line in front of those of the methods after it
    have hline : [m.headLine unit naming].Sublist (deeperLines unit (m.layout naming)) :=
      List.singleton_sublist.2 hhead
    exact (hline.append htail).trans (List.sublist_append_right _ _)

theorem finished_fields (unit : Text) (naming : Naming) (c : ClassDef) :
    Finished (opsAll unit (c.fields.flatMap (Field.layout naming))) := by
  have hops : opsAll unit (c.fields.flatMap (Field.layout naming)) =
      c.fields.flatMap fun f => opsAll unit (f.layout naming) := by
    simp only [opsAll_eq, List.flatMap_assoc]
  rw [hops]
  exact finished_flatMap fun f _ => f.finished_layout unit naming

theorem finished_members (unit : Text) (naming : Naming) (c : ClassDef) :
    Finished (opsAll unit (c.members naming)) := by
  rw [members, opsAll_append]
  exact (c.finished_fields unit naming).append (finished_methodsLayout unit naming _ _)

theorem headLines_sublist_members {unit : Text} {naming : Naming} {c : ClassDef}
    (hunit : '\n' ∉ unit) (h : ∀ m ∈ c.methods, '\n' ∉ m.signature naming) :
    (c.methods.map (Method.headLine unit naming)).Sublist
      (deeperLines unit (c.members naming)) := by
  rw [members, deeperLines_append (c.finished_fields unit naming)]
  exact (headLines_sublist_methodsLayout hunit _ h).trans (List.sublist_append_right _ _)

end ClassDef

/-- A file has one line for each method of its class, in the order of the methods. -/
theorem CompilationUnit.headLines_sublist {u : CompilationUnit} (indent : Indent)
    (h : ∀ m ∈ u.classDef.methods, '\n' ∉ m.signature u.imports.name) :
    (u.classDef.methods.map (Method.headLine indent.unit u.imports.name)).Sublist
      (Text.endedLines (u.render indent)) := by
  let d := u.classDef
  let front := u.headerLayout ++ u.packageLayout ++ u.importsLayout ++
    (Doc.layout u.imports.name d.doc ++ annotationLines u.imports.name d.annotations ++
      [.text (d.head u.imports.name)])
  have hfront := finished_append_line indent.unit front [' ', '{']
  have hmembers := (Layer.run_indent_finished
    (d.finished_members indent.unit u.imports.name) indent.unit).2
  -- the file is cut behind the opening brace of the class and in front of the closing one
  have hlayout : u.layout = front ++ [.line [' ', '{']] ++
      [.indented (d.members u.imports.name), .line ['}']] := by
    simp [CompilationUnit.layout, ClassDef.layout, front, d]
  have hlines : Text.endedLines (u.render indent) =
      Text.endedLines (renderAll (opsAll indent.unit (front ++ [.line [' ', '{']]))) ++
        (deeperLines indent.unit (d.members u.imports.name) ++
          Text.endedLines (renderAll (opsAll indent.unit [.line ['}']]))) := by
    rw [CompilationUnit.render, Layout.render, hlayout, opsAll_append, renderAll_append,
      Text.endedLines_append hfront.endsLine_renderAll, opsAll, ops, renderAll_append,
      Text.endedLines_append hmembers.endsLine_renderAll]
    rfl
  have hsub := ClassDef.headLines_sublist_members indent.newline_not_mem_unit h
  rw [hlines]
  exact (hsub.trans (List.sublist_append_left _ _)).trans (List.sublist_append_right _ _)

end JavaSource
