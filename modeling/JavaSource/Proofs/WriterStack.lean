import JavaSource.Layout.Session
import JavaSource.Proofs.Pieces

/-!
# Operations on a stack of writers

What a stack of writers passes on to the root depends neither on how a run of operations is cut
into calls nor on how a line is cut into pieces. A scope of plain operations is therefore one
push of all of them, and a comment one push of its opening, its lines and its end.
-/

namespace JavaSource

/-- The action that performs one operation. -/
def Action.ofOp : WriteOp → Action
  | .text s => .text s
  | .line s => .line s
  | .blank => .blank

def StepKind.ofOp : WriteOp → StepKind
  | .text _ => .text
  | .line _ => .line
  | .blank => .blank

namespace Layer

/-- A comment around operations, from its opening to its end. -/
def commentOps (ops : List WriteOp) : List WriteOp :=
  let r := (Layer.comment .lineStart).run ops
  opening ++ r.2 ++ r.1.closing

@[simp] theorem run_singleton (l : Layer) (op : WriteOp) : l.run [op] = l.step op := by
  simp [run]

@[simp] theorem run_text_nil_cons (l : Layer) (ops : List WriteOp) :
    l.run (.text [] :: ops) = l.run ops := by
  cases l <;> rfl

/-- Two pieces of a line are passed on as two pieces of what their whole is passed on as. -/
theorem run_text_text (l : Layer) {s t : Text} (hs : s ≠ []) (ht : t ≠ []) :
    ∃ m ops a b, l.run [.text s, .text t] = (m, ops ++ [.text a, .text b]) ∧
      l.run [.text (s ++ t)] = (m, ops ++ [.text (a ++ b)]) := by
  have hst : s ++ t ≠ [] := by simp [hs]
  cases l with
  | indent unit start =>
    refine ⟨.indent unit false, lead unit start, s, t, ?_, ?_⟩
    · simp [run, step, lead, hs, ht]
    · simp [step, hst]
  | comment p =>
    have hstar := Piece.endsInStar_of_ne_nil p.afterStar hs
    have hlast : (s ++ t).getLast? = t.getLast? := List.getLast?_append_of_ne_nil _ ht
    refine ⟨.comment (.inLine (t.getLast? == some '*')), p.lead, commentText p.afterStar s,
      commentText (s.getLast? == some '*') t, ?_, ?_⟩
    · simp [run, step, CommentPosition.lead, CommentPosition.afterStar, hs, ht]
    · simp [step, hst, hlast, Piece.commentText_append, hstar]

theorem run_text_line (l : Layer) {s : Text} (t : Text) (hs : s ≠ []) :
    ∃ m ops a b, l.run [.text s, .line t] = (m, ops ++ [.text a, .line b]) ∧
      l.run [.line (s ++ t)] = (m, ops ++ [.line (a ++ b)]) := by
  cases l with
  | indent unit start =>
    refine ⟨.indent unit true, lead unit start, s, t, ?_, ?_⟩
    · simp [run, step, lead, hs]
    · simp [step]
  | comment p =>
    have hstar := Piece.endsInStar_of_ne_nil p.afterStar hs
    refine ⟨.comment .lineStart, p.lead, commentText p.afterStar s,
      commentText (s.getLast? == some '*') t, ?_, ?_⟩
    · simp [run, step, step.commentLine, CommentPosition.lead, CommentPosition.afterStar, hs]
    · simp [step, step.commentLine, hs, Piece.commentText_append, hstar]

/-- An indenting layer puts at most its unit in front of an operation. -/
theorem step_indent (unit : Text) (start : Bool) (op : WriteOp) :
    ∃ next margin, ((indent unit start).step op).1 = indent unit next ∧
      (margin = [] ∨ margin = unit) ∧
      WriteOp.renderAll ((indent unit start).step op).2 = margin ++ op.render := by
  cases op with
  | text s =>
    rcases eq_or_ne s [] with rfl | hs
    · exact ⟨start, [], rfl, Or.inl rfl, rfl⟩
    · cases start with
      | true =>
        exact ⟨false, unit, by simp [step, hs], Or.inr rfl,
          by simp [step, hs, lead, WriteOp.render]⟩
      | false =>
        exact ⟨false, [], by simp [step, hs], Or.inl rfl,
          by simp [step, hs, lead, WriteOp.render]⟩
  | line s =>
    cases start with
    | true => exact ⟨true, unit, rfl, Or.inr rfl, by simp [step, lead, WriteOp.render]⟩
    | false => exact ⟨true, [], rfl, Or.inl rfl, by simp [step, lead, WriteOp.render]⟩
  | blank => exact ⟨true, [], rfl, Or.inl rfl, by cases start <;> rfl⟩

theorem run_indent (unit : Text) (start : Bool) (ops : List WriteOp) :
    ∃ next, ((indent unit start).run ops).1 = indent unit next := by
  induction ops generalizing start with
  | nil => exact ⟨start, rfl⟩
  | cons op ops ih =>
    obtain ⟨next, -, hnext, -, -⟩ := step_indent unit start op
    rw [run, hnext]
    exact ih next

/-- The units of indentation that a layer adds to the lines behind it. -/
def units : Layer → Nat
  | indent _ _ => 1
  | comment _ => 0

@[simp] theorem units_run (l : Layer) (ops : List WriteOp) : (l.run ops).1.units = l.units := by
  induction ops generalizing l with
  | nil => rfl
  | cons op ops ih =>
    have hstep : (l.step op).1.units = l.units := by
      cases l <;> cases op <;> simp only [step] <;> (try split) <;> rfl
    rw [run, ih, hstep]

end Layer

namespace Session

@[simp] theorem text_nil : text [] = [] := rfl

@[simp] theorem text_cons (s : Step) (steps : List Step) :
    text (s :: steps) = s.added ++ text steps := rfl

@[simp] theorem text_append (steps more : List Step) :
    text (steps ++ more) = text steps ++ text more := by
  simp [text]

/-! ### Pushing -/

@[simp] theorem push_nil (stack : Stack) : push stack [] = (stack, []) := by
  induction stack with
  | nil => rfl
  | cons l outer ih => simp [push, ih]

theorem push_append (stack : Stack) (ops more : List WriteOp) :
    push stack (ops ++ more) =
      ((push (push stack ops).1 more).1,
        (push stack ops).2 ++ (push (push stack ops).1 more).2) := by
  induction stack generalizing ops more with
  | nil => simp [push]
  | cons l outer ih => simp [push, Layer.run_append, ih]

@[simp] theorem push_text_nil_cons (stack : Stack) (ops : List WriteOp) :
    push stack (.text [] :: ops) = push stack ops := by
  cases stack with
  | nil => rfl
  | cons l outer => simp [push]

theorem push_text_text (stack : Stack) (ops : List WriteOp) (s t : Text) :
    push stack (ops ++ [.text s, .text t]) = push stack (ops ++ [.text (s ++ t)]) := by
  -- the operations in front are general, since every layer adds what leads the line
  induction stack generalizing ops s t with
  | nil => simp [push, WriteOp.render]
  | cons l outer ih =>
    rcases eq_or_ne s [] with rfl | hs
    · rw [push_append, push_text_nil_cons, ← push_append, List.nil_append]
    rcases eq_or_ne t [] with rfl | ht
    · rw [List.append_cons, push_append, push_text_nil_cons, push_nil, List.append_nil,
        List.append_nil]
    obtain ⟨m, lead, a, b, hpieces, hwhole⟩ := (l.run ops).1.run_text_text hs ht
    simp only [push, Layer.run_append, hpieces, hwhole, ← List.append_assoc, ih]

theorem push_text_line (stack : Stack) (ops : List WriteOp) (s t : Text) :
    push stack (ops ++ [.text s, .line t]) = push stack (ops ++ [.line (s ++ t)]) := by
  induction stack generalizing ops s t with
  | nil => simp [push, WriteOp.render]
  | cons l outer ih =>
    rcases eq_or_ne s [] with rfl | hs
    · rw [push_append, push_text_nil_cons, ← push_append, List.nil_append]
    obtain ⟨m, lead, a, b, hpieces, hwhole⟩ := (l.run ops).1.run_text_line t hs
    simp only [push, Layer.run_append, hpieces, hwhole, ← List.append_assoc, ih]

/-! ### Depth -/

theorem depth_congr {stack other : Stack}
    (h : stack.map Layer.units = other.map Layer.units) : depth stack = depth other := by
  have hcons : ∀ (l : Layer) (outer : Stack), depth (l :: outer) = depth outer + l.units := by
    intro l outer
    cases l <;> rfl
  induction stack generalizing other with
  | nil => rw [List.map_eq_nil_iff.1 h.symm]
  | cons l outer ih =>
    obtain ⟨k, rest, rfl, hk, hrest⟩ := List.map_eq_cons_iff.1 h.symm
    rw [hcons, hcons, hk, ih hrest.symm]

@[simp] theorem map_units_push (stack : Stack) (ops : List WriteOp) :
    (push stack ops).1.map Layer.units = stack.map Layer.units := by
  induction stack generalizing ops with
  | nil => rfl
  | cons l outer ih => simp only [push, List.map_cons, Layer.units_run, ih]

@[simp] theorem depth_push (stack : Stack) (ops : List WriteOp) :
    depth (push stack ops).1 = depth stack :=
  depth_congr (map_units_push stack ops)

/-! ### Scopes of plain operations -/

theorem perform_ofOp (unit : Text) (stack : Stack) (op : WriteOp) :
    perform unit stack (Action.ofOp op) = write (StepKind.ofOp op) stack [op] := by
  cases op <;> rfl

/-- Operations one after the other leave the stack as one push of all of them, and their text is
its text. -/
theorem performAll_ofOp (unit : Text) (stack : Stack) (ops : List WriteOp) :
    (performAll unit stack (ops.map Action.ofOp)).1 = (push stack ops).1 ∧
      text (performAll unit stack (ops.map Action.ofOp)).2 = (push stack ops).2 := by
  induction ops generalizing stack with
  | nil => simp [performAll]
  | cons op ops ih =>
    obtain ⟨hstack, htext⟩ := ih (push stack [op]).1
    rw [← List.singleton_append (l := ops), push_append]
    simp only [List.singleton_append, List.map_cons, performAll, perform_ofOp, write, text_cons,
      hstack, htext, and_self]

/-- A comment leaves the stack as one push of its operations, and its text is its text. -/
theorem perform_comment (unit : Text) (stack : Stack) (ops : List WriteOp) :
    (perform unit stack (.comment (ops.map Action.ofOp))).1 =
        (push stack (Layer.commentOps ops)).1 ∧
      text (perform unit stack (.comment (ops.map Action.ofOp))).2 =
        (push stack (Layer.commentOps ops)).2 := by
  obtain ⟨hstack, htext⟩ := performAll_ofOp unit
    (Layer.comment .lineStart :: (push stack Layer.opening).1) ops
  simp only [perform, write, hstack, text_append, text_cons, text_nil, htext]
  simp [push, leave, Layer.commentOps, push_append]

/-- What the steps were and at which depth, without the text that they wrote. -/
def trace (steps : List Step) : List (StepKind × Nat) := steps.map fun s => (s.kind, s.depth)

@[simp] theorem trace_append (steps more : List Step) :
    trace (steps ++ more) = trace steps ++ trace more := by
  simp [trace]

theorem trace_performAll_ofOp (unit : Text) (stack : Stack) (ops : List WriteOp) :
    trace (performAll unit stack (ops.map Action.ofOp)).2 =
      ops.map fun op => (StepKind.ofOp op, depth stack) := by
  induction ops generalizing stack with
  | nil => rfl
  | cons op ops ih =>
    have hrest := ih (push stack [op]).1
    rw [depth_push] at hrest
    simp [performAll, perform_ofOp, write, trace, ← hrest]

theorem trace_perform_comment (unit : Text) (stack : Stack) (ops : List WriteOp) :
    trace (perform unit stack (.comment (ops.map Action.ofOp))).2 =
      (StepKind.comment, depth stack) :: (ops.map fun op => (StepKind.ofOp op, depth stack)) ++
        [(StepKind.comment, depth stack)] := by
  have hbody := trace_performAll_ofOp unit
    (Layer.comment .lineStart :: (push stack Layer.opening).1) ops
  have hstack := (performAll_ofOp unit
    (Layer.comment .lineStart :: (push stack Layer.opening).1) ops).1
  simp only [perform, write, trace_append, hbody, hstack]
  simp [trace, push, leave, depth]

end Session

end JavaSource
