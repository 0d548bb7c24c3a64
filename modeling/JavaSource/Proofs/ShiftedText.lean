import JavaSource.Proofs.DepthPrinter
import JavaSource.Proofs.FileLines
import JavaSource.Proofs.TextLines

/-!
# Layouts that stand deeper

Operations are plain if no piece and no line that they write has a line break of its own and if
they ask for no separator line. Inside any number of scopes, plain operations give the text that
they give outside of them, with a margin in front of every line: it does not matter where the
scopes of the layout itself begin and end.
-/

namespace JavaSource

open Session

/-! ### Margins -/

namespace Text

/-- A margin in front of every line, where `start` says whether the text itself starts one. -/
def shiftFrom (margin : Text) : (start : Bool) → Text → Text
  | _, [] => []
  | start, c :: s => leadIf start margin ++ c :: shiftFrom margin (c == '\n') s

def shift (margin s : Text) : Text := shiftFrom margin true s

/-- Whether a line starts behind a text. -/
def startAfter : (start : Bool) → Text → Bool
  | start, [] => start
  | _, c :: s => startAfter (c == '\n') s

theorem startAfter_append (start : Bool) (s t : Text) :
    startAfter start (s ++ t) = startAfter (startAfter start s) t := by
  induction s generalizing start with
  | nil => rfl
  | cons c s ih => exact ih _

theorem startAfter_concat (start : Bool) (s : Text) (c : Char) :
    startAfter start (s ++ [c]) = (c == '\n') := by
  rw [startAfter_append]
  rfl

theorem startAfter_of_not_mem {s : Text} (h : '\n' ∉ s) (hs : s ≠ []) (start : Bool) :
    startAfter start s = false := by
  obtain ⟨front, c, rfl⟩ := List.eq_nil_or_concat s |>.resolve_left hs
  rw [List.concat_eq_append] at h ⊢
  rw [startAfter_concat, beq_eq_false_iff_ne]
  rintro rfl
  exact h (by simp)

theorem EndsLine.startAfter {s : Text} (h : EndsLine s) : startAfter true s = true := by
  rcases h with rfl | ⟨front, rfl⟩
  · rfl
  · rw [startAfter_concat, beq_self_eq_true]

theorem shiftFrom_append (margin : Text) (start : Bool) (s t : Text) :
    shiftFrom margin start (s ++ t) =
      shiftFrom margin start s ++ shiftFrom margin (startAfter start s) t := by
  induction s generalizing start with
  | nil => rfl
  | cons c s ih => simp [shiftFrom, startAfter, ih]

theorem shift_append {s : Text} (h : EndsLine s) (margin t : Text) :
    shift margin (s ++ t) = shift margin s ++ shift margin t := by
  rw [shift, shiftFrom_append, h.startAfter]
  rfl

theorem shiftFrom_nil_margin (start : Bool) (s : Text) : shiftFrom [] start s = s := by
  have hlead : ∀ start, leadIf start ([] : Text) = [] := by decide
  induction s generalizing start with
  | nil => rfl
  | cons c s ih => rw [shiftFrom, hlead, ih, List.nil_append]

theorem shift_nil_margin (s : Text) : shift [] s = s := shiftFrom_nil_margin true s

theorem shiftFrom_false {s : Text} (h : '\n' ∉ s) (margin : Text) :
    shiftFrom margin false s = s := by
  induction s with
  | nil => rfl
  | cons c s ih =>
    have hc : (c == '\n') = false :=
      beq_eq_false_iff_ne.2 fun hc => h (hc ▸ List.mem_cons_self ..)
    have hs := ih fun hs => h (List.mem_cons_of_mem _ hs)
    rw [shiftFrom, hc, hs]
    rfl

theorem shiftFrom_of_not_mem {s : Text} (h : '\n' ∉ s) (hs : s ≠ []) (margin : Text)
    (start : Bool) : shiftFrom margin start s = leadIf start margin ++ s := by
  obtain ⟨c, rest, rfl⟩ := List.exists_cons_of_ne_nil hs
  have hc : (c == '\n') = false :=
    beq_eq_false_iff_ne.2 fun hc => h (hc ▸ List.mem_cons_self ..)
  rw [shiftFrom, hc, shiftFrom_false fun hrest => h (List.mem_cons_of_mem _ hrest)]

theorem shiftFrom_line {s : Text} (h : '\n' ∉ s) (margin : Text) (start : Bool) :
    shiftFrom margin start (s ++ ['\n']) = leadIf start margin ++ s ++ ['\n'] := by
  rcases eq_or_ne s [] with rfl | hs
  · simp [shiftFrom]
  · rw [shiftFrom_append, shiftFrom_of_not_mem h hs, startAfter_of_not_mem h hs]
    rfl

/-- The ended lines of a text, each behind a margin. -/
def linesBehind (margin s : Text) : Text := (endedLines s).flatMap fun l => margin ++ l ++ ['\n']

theorem shift_eq_linesBehind {s : Text} (h : EndsLine s) (margin : Text) :
    shift margin s = linesBehind margin s := by
  induction s using lineInduction with
  | last s hs =>
    rcases h with rfl | ⟨front, rfl⟩
    · rfl
    · simp at hs
  | line a b ha ih =>
    have hb : EndsLine b := by
      rcases List.eq_nil_or_concat b with rfl | ⟨front, c, rfl⟩
      · exact Or.inl rfl
      · obtain ⟨other, hother⟩ := h.resolve_left (by simp)
        rw [List.concat_eq_append, ← List.cons_append, ← List.append_assoc] at hother
        exact Or.inr ⟨front, by rw [List.concat_eq_append, (List.append_inj' hother rfl).2]⟩
    have hline : EndsLine (a ++ ['\n']) := Or.inr ⟨a, rfl⟩
    rw [List.append_cons, shift_append hline, ih hb, linesBehind, linesBehind,
      endedLines_append hline, List.flatMap_append, endedLines_line ha, shift, shiftFrom_line ha]
    simp [leadIf]

end Text

open Text

/-! ### Plain operations -/

namespace WriteOp

/-- A piece or a line without a line break of its own. -/
def Plain : WriteOp → Prop
  | text s => '\n' ∉ s
  | line s => '\n' ∉ s
  | blank => False

def PlainAll (ops : List WriteOp) : Prop := ∀ op ∈ ops, op.Plain

theorem plainAll_nil : PlainAll [] := List.forall_mem_nil _

@[simp] theorem plainAll_cons {op : WriteOp} {ops : List WriteOp} :
    PlainAll (op :: ops) ↔ op.Plain ∧ PlainAll ops :=
  List.forall_mem_cons

@[simp] theorem plainAll_append {ops more : List WriteOp} :
    PlainAll (ops ++ more) ↔ PlainAll ops ∧ PlainAll more :=
  List.forall_mem_append

end WriteOp

open WriteOp

namespace Session

/-- Plain operations reach the root with a margin in front of every line. -/
theorem push_codeStack_plainAll (unit : Text) (depth : Nat) (start : Bool) {ops : List WriteOp}
    (h : PlainAll ops) :
    push (codeStack unit depth start) ops =
      (codeStack unit depth (startAfter start (renderAll ops)),
        shiftFrom (Page.margin unit depth) start (renderAll ops)) := by
  have hop : ∀ op : WriteOp, op.Plain → ∀ start,
      push (codeStack unit depth start) [op] =
        (codeStack unit depth (startAfter start op.render),
          shiftFrom (Page.margin unit depth) start op.render) := by
    intro op hplain start
    cases op with
    | text s =>
      rcases eq_or_ne s [] with rfl | hs
      · rw [push_text_nil_cons, push_nil]
        rfl
      · rw [push_codeStack_text _ _ _ hs, render, startAfter_of_not_mem hplain hs,
          shiftFrom_of_not_mem hplain hs]
    | line s =>
      rw [push_codeStack_line, render, startAfter_concat, shiftFrom_line hplain]
      rfl
    | blank => exact hplain.elim
  induction ops generalizing start with
  | nil => rw [push_nil]; rfl
  | cons op ops ih =>
    obtain ⟨hplain, hrest⟩ := plainAll_cons.1 h
    rw [← List.singleton_append, push_append, hop op hplain start, ih _ hrest, renderAll_append,
      startAfter_append, shiftFrom_append]
    simp

theorem push_codeStack_finished (unit : Text) (depth : Nat) {ops : List WriteOp}
    (h : PlainAll ops) (hfinished : Finished ops) :
    push (codeStack unit depth true) ops =
      (codeStack unit depth true, shift (Page.margin unit depth) (renderAll ops)) := by
  rw [push_codeStack_plainAll unit depth true h, hfinished.endsLine_renderAll.startAfter]
  rfl

end Session

/-! ### Layers keep operations plain -/

theorem newline_not_mem_commentText (star : Bool) {s : Text} (h : '\n' ∉ s) :
    '\n' ∉ commentText star s := by
  induction s generalizing star with
  | nil => exact List.not_mem_nil
  | cons c s ih =>
    have hslash : '\n' ∉ harmlessSlash := by decide
    have hc : '\n' ∉ [c] := fun hc => h (List.mem_cons.2 (Or.inl (List.mem_singleton.1 hc)))
    have hs := ih (c == '*') fun hs => h (List.mem_cons_of_mem _ hs)
    rw [commentText, List.mem_append, not_or]
    refine ⟨?_, hs⟩
    split
    · exact hslash
    · exact hc

namespace Layer

def Plain : Layer → Prop
  | indent unit _ => '\n' ∉ unit
  | comment _ => True

theorem plainAll_lead {unit : Text} (h : '\n' ∉ unit) (start : Bool) :
    PlainAll (lead unit start) := by
  cases start with
  | false => exact plainAll_nil
  | true => exact List.forall_mem_singleton.2 h

theorem plainAll_position_lead (p : CommentPosition) : PlainAll p.lead := by
  have hlead : '\n' ∉ " * ".toList := by decide
  cases p with
  | lineStart => exact List.forall_mem_singleton.2 hlead
  | inLine star => exact plainAll_nil

theorem plainAll_commentLine (p : CommentPosition) {s : Text} (h : '\n' ∉ s) :
    PlainAll (step.commentLine p s) := by
  have hstar : '\n' ∉ " *".toList := by decide
  unfold step.commentLine
  split
  · exact List.forall_mem_singleton.2 hstar
  · rw [plainAll_append]
    exact ⟨plainAll_position_lead p,
      List.forall_mem_singleton.2 (newline_not_mem_commentText _ h)⟩

theorem Plain.step {l : Layer} (hl : l.Plain) {op : WriteOp} (hop : op.Plain) :
    (l.step op).1.Plain ∧ PlainAll (l.step op).2 := by
  cases op with
  | text s =>
    cases l with
    | indent unit start =>
      rw [Layer.step]
      split
      · exact ⟨hl, plainAll_nil⟩
      · exact ⟨hl, plainAll_append.2 ⟨plainAll_lead hl start, List.forall_mem_singleton.2 hop⟩⟩
    | comment p =>
      have htext := newline_not_mem_commentText p.afterStar hop
      rw [Layer.step]
      split
      · exact ⟨trivial, plainAll_nil⟩
      · exact ⟨trivial,
          plainAll_append.2 ⟨plainAll_position_lead p, List.forall_mem_singleton.2 htext⟩⟩
  | line s =>
    cases l with
    | indent unit start =>
      exact ⟨hl, plainAll_append.2 ⟨plainAll_lead hl start, List.forall_mem_singleton.2 hop⟩⟩
    | comment p => exact ⟨trivial, plainAll_commentLine p hop⟩
  | blank => exact hop.elim

theorem Plain.run {l : Layer} (hl : l.Plain) {ops : List WriteOp} (h : PlainAll ops) :
    PlainAll (l.run ops).2 := by
  induction ops generalizing l with
  | nil => exact plainAll_nil
  | cons op ops ih =>
    obtain ⟨hop, hrest⟩ := plainAll_cons.1 h
    obtain ⟨hnext, hpassed⟩ := hl.step hop
    exact plainAll_append.2 ⟨hpassed, ih hnext hrest⟩

theorem plainAll_closing (l : Layer) : PlainAll l.closing := by
  have hend : '\n' ∉ " */".toList := by decide
  cases l with
  | indent unit start => exact plainAll_nil
  | comment p =>
    cases p with
    | lineStart => exact List.forall_mem_singleton.2 hend
    | inLine star => exact plainAll_cons.2 ⟨List.not_mem_nil, List.forall_mem_singleton.2 hend⟩

end Layer

/-! ### Plain layouts -/

namespace Layout

variable {unit : Text} {l : Layout} {ls ms : List Layout}

theorem finished_indented (h : Finished (opsAll unit ls)) :
    Finished (opsAll unit [.indented ls]) := by
  rw [opsAll, opsAll, List.append_nil, ops]
  exact (Layer.run_indent_finished h unit).2

theorem plainAll_opsAll_cons :
    PlainAll (opsAll unit (l :: ls)) ↔ PlainAll (l.ops unit) ∧ PlainAll (opsAll unit ls) := by
  rw [opsAll, plainAll_append]

theorem plainAll_opsAll_singleton : PlainAll (opsAll unit [l]) ↔ PlainAll (l.ops unit) := by
  rw [opsAll, opsAll, List.append_nil]

theorem plainAll_opsAll_append :
    PlainAll (opsAll unit (ls ++ ms)) ↔ PlainAll (opsAll unit ls) ∧ PlainAll (opsAll unit ms) := by
  rw [opsAll_append, plainAll_append]

theorem plainAll_ops_text {s : Text} (h : '\n' ∉ s) : PlainAll ((text s).ops unit) :=
  List.forall_mem_singleton.2 h

theorem plainAll_ops_line {s : Text} (h : '\n' ∉ s) : PlainAll ((line s).ops unit) :=
  List.forall_mem_singleton.2 h

theorem plainAll_ofText (unit s : Text) : PlainAll (opsAll unit (ofText s)) := by
  induction s using lineInduction with
  | last s h =>
    rw [ofText_eq_of_not_mem h]
    split
    · exact plainAll_nil
    · exact List.forall_mem_singleton.2 h
  | line a b h ih =>
    rw [ofText_line h, plainAll_opsAll_cons]
    exact ⟨plainAll_ops_line fun ha => h (dropReturn_subset a ha), ih⟩

theorem plainAll_ops_indented (hunit : '\n' ∉ unit) (h : PlainAll (opsAll unit ls)) :
    PlainAll ((indented ls).ops unit) := by
  rw [ops]
  exact Layer.Plain.run (l := .indent unit true) hunit h

theorem plainAll_ops_comment (h : PlainAll (opsAll unit ls)) :
    PlainAll ((comment ls).ops unit) := by
  have hopening : '\n' ∉ "/**".toList := by decide
  have hbody : PlainAll ((Layer.comment .lineStart).run (opsAll unit ls)).2 :=
    Layer.Plain.run (l := .comment .lineStart) trivial h
  rw [ops, plainAll_append, plainAll_append]
  exact ⟨⟨List.forall_mem_singleton.2 hopening, hbody⟩, Layer.plainAll_closing _⟩

theorem nest_succ (n : Nat) (ls : List Layout) : nest (n + 1) ls = nest n [.indented ls] := by
  induction n with
  | zero => rfl
  | succ n ih => rw [nest, ih, nest]

theorem renderAll_nest (unit : Text) (depth : Nat) (ls : List Layout) :
    renderAll (opsAll unit (nest depth ls)) =
      (push (codeStack unit depth true) (opsAll unit ls)).2 := by
  induction depth generalizing ls with
  | zero => rfl
  | succ depth ih =>
    have hstack : codeStack unit (depth + 1) true = .indent unit true :: codeStack unit depth true :=
      List.replicate_succ
    rw [nest_succ, ih, hstack, push, opsAll, opsAll, List.append_nil, ops]

/-- Inside scopes, plain layouts have their own text with a margin in front of every line. -/
theorem render_nest {indent : Indent} (h : PlainAll (opsAll indent.unit ls)) (depth : Nat) :
    render indent (nest depth ls) =
      Text.shift (Page.margin indent.unit depth) (render indent ls) := by
  rw [render, renderAll_nest, push_codeStack_plainAll _ _ _ h]
  rfl

theorem render_nest_finished {indent : Indent} (h : PlainAll (opsAll indent.unit ls))
    (hfinished : Finished (opsAll indent.unit ls)) (depth : Nat) :
    render indent (nest depth ls) =
      linesBehind (Page.margin indent.unit depth) (render indent ls) := by
  rw [render_nest h]
  exact shift_eq_linesBehind hfinished.endsLine_renderAll _

theorem render_nest_append {indent : Indent} (h : PlainAll (opsAll indent.unit ls))
    (hfinished : Finished (opsAll indent.unit ls)) (depth : Nat) (ms : List Layout) :
    render indent (nest depth (ls ++ ms)) =
      render indent (nest depth ls) ++ render indent (nest depth ms) := by
  simp only [render, renderAll_nest, opsAll_append, push_append,
    push_codeStack_finished _ _ h hfinished]

end Layout

end JavaSource
