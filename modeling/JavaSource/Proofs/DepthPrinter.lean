import JavaSource.Proofs.WriterStack

/-!
# A printer with a depth only

For programs whose scopes begin and end at the start of a line, a stack of writers does what a
printer does that knows nothing but a depth and the line that is being written. The printer
writes a line when it is finished; the stack writes its pieces as they come, and what it has
written of a line is at any time what the printer would have to put there.
-/

namespace JavaSource

/-- A program of writing operations and scopes; a comment holds operations only. -/
inductive Script
  | op (o : WriteOp)
  | indented (body : List Script)
  | comment (ops : List WriteOp)

namespace Script

mutual

def action : Script → Action
  | op o => .ofOp o
  | indented body => .indented (actions body)
  | comment ops => .comment (ops.map .ofOp)

def actions : List Script → List Action
  | [] => []
  | s :: rest => s.action :: actions rest

end

/-- Whether a line starts behind the program, where `start` says whether one starts before it. -/
def startAfter (start : Bool) : Script → Bool
  | op (.text s) => start && s.isEmpty
  | _ => true

mutual

/-- Every indented scope begins and ends at the start of a line. A comment always ends at one,
and where it begins in a line it takes that line as its own. -/
def aligned (start : Bool) : Script → Bool
  | op _ => true
  | indented body => start && alignedAll true body && body.foldl startAfter true
  | comment _ => true

def alignedAll (start : Bool) : List Script → Bool
  | [] => true
  | s :: rest => s.aligned start && alignedAll (s.startAfter start) rest

end

mutual

/-- The steps of a program at a depth. -/
def trace (depth : Nat) : Script → List (StepKind × Nat)
  | op o => [(.ofOp o, depth)]
  | indented body => (.indented, depth + 1) :: traceAll (depth + 1) body
  | comment ops =>
    (.comment, depth) :: ops.map (fun o => (.ofOp o, depth)) ++ [(.comment, depth)]

def traceAll (depth : Nat) : List Script → List (StepKind × Nat)
  | [] => []
  | s :: rest => s.trace depth ++ traceAll depth rest

end

end Script

/-! ### The printer -/

/-- The finished lines of a text and the line that is being written, without its margin. -/
structure Page where
  done : Text
  pending : Text

namespace Page

def empty : Page := ⟨[], []⟩

def margin (unit : Text) (depth : Nat) : Text := (List.replicate depth unit).flatten

def replaceEnds : Text → Text
  | [] => []
  | '*' :: '/' :: s => "*&#47;".toList ++ replaceEnds s
  | c :: s => c :: replaceEnds s

def code (margin : Text) (page : Page) : WriteOp → Page
  | .text s => ⟨page.done, page.pending ++ s⟩
  | .line s => ⟨page.done ++ margin ++ page.pending ++ s ++ ['\n'], []⟩
  | .blank =>
    if page.pending = [] then ⟨page.done ++ ['\n'], []⟩
    else ⟨page.done ++ margin ++ page.pending ++ ['\n'], []⟩

def docLine (s : Text) : Text :=
  if s = [] then " *".toList else " * ".toList ++ replaceEnds s

def doc (margin : Text) (page : Page) : WriteOp → Page
  | .text s => ⟨page.done, page.pending ++ s⟩
  | .line s => ⟨page.done ++ margin ++ docLine (page.pending ++ s) ++ ['\n'], []⟩
  | .blank => ⟨page.done ++ margin ++ docLine page.pending ++ ['\n'], []⟩

/-- The end of a comment finishes its pending line. -/
def comment (margin : Text) (page : Page) (ops : List WriteOp) : Page :=
  let body := ops.foldl (doc margin) (page.code margin (.line "/**".toList))
  let finished := if body.pending = [] then body else body.doc margin .blank
  finished.code margin (.line " */".toList)

mutual

def script (unit : Text) (depth : Nat) (page : Page) : Script → Page
  | .op o => page.code (margin unit depth) o
  | .indented body => page.scripts unit (depth + 1) body
  | .comment ops => page.comment (margin unit depth) ops

def scripts (unit : Text) (depth : Nat) (page : Page) : List Script → Page
  | [] => page
  | s :: rest => (page.script unit depth s).scripts unit depth rest

end

/-- What a page shows before its pending line is finished. -/
def shown (margin : Text) (page : Page) : Text :=
  page.done ++ (if page.pending = [] then [] else margin ++ page.pending)

def shownDoc (margin : Text) (page : Page) : Text :=
  page.done ++ (if page.pending = [] then [] else margin ++ docLine page.pending)

end Page

open Page

theorem margin_zero (unit : Text) : margin unit 0 = [] := rfl

theorem margin_succ (unit : Text) (depth : Nat) :
    margin unit (depth + 1) = margin unit depth ++ unit := by
  simp [margin, List.replicate_succ']

theorem commentText_eq_replaceEnds (s : Text) : commentText false s = replaceEnds s := by
  fun_induction replaceEnds s with
  | case1 => rfl
  | case2 s ih => simp [commentText, harmlessSlash, ih]
  | case3 c s hend ih =>
    have hrest : commentText (c == '*') s = commentText false s := by
      cases s with
      | nil => rfl
      | cons d s =>
        have hd : ((c == '*') && d == '/') = false := by
          simp only [Bool.and_eq_false_iff, beq_eq_false_iff_ne]
          by_contra hboth
          push Not at hboth
          exact hend s hboth.1 (by rw [hboth.2])
        simp [commentText, hd]
    simp [commentText, hrest, ih]

/-! ### Stacks of one depth -/

namespace Session

/-- The stack at a depth where the line stands at its start on every level or on none. -/
def codeStack (unit : Text) (depth : Nat) (start : Bool) : Stack :=
  List.replicate depth (Layer.indent unit start)

/-- What stands in front of the first piece of a line, and of no other one. -/
def leadIf (start : Bool) (lead : Text) : Text := if start then lead else []

theorem leadIf_append (start : Bool) (a b : Text) :
    leadIf start (a ++ b) = leadIf start a ++ leadIf start b := by
  cases start <;> rfl

theorem push_lead_text (stack : Stack) (lead : Text) (start : Bool) (s : Text) :
    push stack (Layer.lead lead start ++ [.text s]) =
      push stack [.text (leadIf start lead ++ s)] := by
  cases start with
  | false => rfl
  | true => exact push_text_text stack [] lead s

theorem push_lead_line (stack : Stack) (lead : Text) (start : Bool) (s : Text) :
    push stack (Layer.lead lead start ++ [.line s]) =
      push stack [.line (leadIf start lead ++ s)] := by
  cases start with
  | false => rfl
  | true => exact push_text_line stack [] lead s

theorem push_codeStack_text (unit : Text) (depth : Nat) (start : Bool) {s : Text} (hs : s ≠ []) :
    push (codeStack unit depth start) [.text s] =
      (codeStack unit depth false, leadIf start (margin unit depth) ++ s) := by
  induction depth generalizing s with
  | zero => cases start <;> simp [codeStack, leadIf, push, margin, WriteOp.render]
  | succ depth ih =>
    have hrest := ih (s := leadIf start unit ++ s) (by simp [hs])
    have hempty : s.isEmpty = false := List.isEmpty_eq_false_iff.2 hs
    rw [codeStack, List.replicate_succ, push, Layer.run_singleton, Layer.step, hempty, if_neg
      Bool.false_ne_true, push_lead_text, ← codeStack, hrest, margin_succ, leadIf_append]
    simp [codeStack, List.replicate_succ]

theorem push_codeStack_line (unit : Text) (depth : Nat) (start : Bool) (s : Text) :
    push (codeStack unit depth start) [.line s] =
      (codeStack unit depth true, leadIf start (margin unit depth) ++ s ++ ['\n']) := by
  induction depth generalizing s with
  | zero => cases start <;> simp [codeStack, leadIf, push, margin, WriteOp.render]
  | succ depth ih =>
    have hrest := ih (leadIf start unit ++ s)
    rw [codeStack, List.replicate_succ, push, Layer.run_singleton, Layer.step, push_lead_line,
      ← codeStack, hrest, margin_succ, leadIf_append]
    simp [codeStack, List.replicate_succ]

theorem push_codeStack_blank (unit : Text) (depth : Nat) (start : Bool) :
    push (codeStack unit depth start) [.blank] = (codeStack unit depth true, ['\n']) := by
  induction depth with
  | zero => rfl
  | succ depth ih =>
    rw [codeStack, List.replicate_succ, push, Layer.run_singleton, Layer.step, ← codeStack]
    cases start with
    | false =>
      rw [if_neg Bool.false_ne_true, push_codeStack_line unit depth false []]
      rfl
    | true =>
      rw [if_pos rfl, ih]
      rfl

/-! ### Stacks and pages -/

section Pages

variable {unit received : Text} {depth : Nat} {page : Page} {stack : Stack}

theorem shown_append_leadIf (unit : Text) (depth : Nat) (page : Page) (s : Text) :
    page.shown (margin unit depth) ++ (leadIf page.pending.isEmpty (margin unit depth) ++ s) =
      page.done ++ margin unit depth ++ page.pending ++ s := by
  rcases eq_or_ne page.pending [] with h | h
  · simp [shown, leadIf, h]
  · simp [shown, leadIf, h]

/-- The stack and the text at the root are those of a page at a depth. -/
structure Represents (unit : Text) (depth : Nat) (page : Page) (stack : Stack) (received : Text) :
    Prop where
  stack_eq : stack = codeStack unit depth page.pending.isEmpty
  received_eq : received = page.shown (margin unit depth)

theorem Represents.push_op (h : Represents unit depth page stack received) (o : WriteOp) :
    Represents unit depth (page.code (margin unit depth) o) (push stack [o]).1
      (received ++ (push stack [o]).2) := by
  obtain ⟨rfl, rfl⟩ := h
  cases o with
  | text s =>
    rcases eq_or_ne s [] with rfl | hs
    · rw [push_text_nil_cons, push_nil]
      exact ⟨by simp [code], by simp [code, shown]⟩
    · have hempty : (page.pending ++ s).isEmpty = false :=
        List.isEmpty_eq_false_iff.2 (by simp [hs])
      rw [push_codeStack_text _ _ _ hs, shown_append_leadIf]
      exact ⟨by rw [code, hempty], by simp [code, shown, hs]⟩
  | line s =>
    rw [push_codeStack_line, List.append_assoc (leadIf ..), shown_append_leadIf]
    exact ⟨by simp [code], by simp [code, shown]⟩
  | blank =>
    rw [push_codeStack_blank]
    rcases eq_or_ne page.pending [] with h | h
    · exact ⟨by simp [code, h], by simp [code, shown, h]⟩
    · exact ⟨by simp [code, h], by simp [code, shown, h]⟩

/-- The position of a comment whose line is pending. -/
def docPosition (pending : Text) : CommentPosition :=
  if pending = [] then .lineStart else .inLine (Piece.endsInStar false pending)

/-- The stack is that of a page with a comment opened on it. -/
structure RepresentsDoc (unit : Text) (depth : Nat) (page : Page) (stack : Stack)
    (received : Text) : Prop where
  stack_eq : stack =
    Layer.comment (docPosition page.pending) :: codeStack unit depth page.pending.isEmpty
  received_eq : received = page.shownDoc (margin unit depth)

theorem docPosition_lead (pending : Text) :
    (docPosition pending).lead = Layer.lead " * ".toList pending.isEmpty := by
  cases pending <;> rfl

theorem shownDoc_append_leadIf (unit : Text) (depth : Nat) (page : Page) (s : Text) :
    page.shownDoc (margin unit depth) ++ (leadIf page.pending.isEmpty (margin unit depth) ++
        (leadIf page.pending.isEmpty " * ".toList ++
          commentText (docPosition page.pending).afterStar s)) =
      page.done ++ margin unit depth ++ " * ".toList ++ replaceEnds (page.pending ++ s) := by
  rw [← commentText_eq_replaceEnds, Piece.commentText_append]
  rcases eq_or_ne page.pending [] with h | h
  · simp [shownDoc, leadIf, docPosition, CommentPosition.afterStar, commentText,
      Piece.endsInStar, h]
  · simp [shownDoc, leadIf, docPosition, CommentPosition.afterStar, docLine,
      ← commentText_eq_replaceEnds, h]

theorem push_commentLine (unit : Text) (depth : Nat) (page : Page) (s : Text) :
    (push (codeStack unit depth page.pending.isEmpty)
          (Layer.step.commentLine (docPosition page.pending) s)).1 = codeStack unit depth true ∧
      page.shownDoc (margin unit depth) ++ (push (codeStack unit depth page.pending.isEmpty)
          (Layer.step.commentLine (docPosition page.pending) s)).2 =
        page.done ++ margin unit depth ++ docLine (page.pending ++ s) ++ ['\n'] := by
  by_cases h : page.pending ++ s = []
  · obtain ⟨hpending, rfl⟩ := List.append_eq_nil_iff.1 h
    simp [Layer.step.commentLine, docPosition, hpending, push_codeStack_line, leadIf, shownDoc,
      docLine]
  · have hstep : Layer.step.commentLine (docPosition page.pending) s =
        (docPosition page.pending).lead ++
          [.line (commentText (docPosition page.pending).afterStar s)] := by
      refine if_neg ?_
      rintro ⟨hstart, hs⟩
      apply h
      rcases eq_or_ne page.pending [] with hp | hp
      · rw [hp, hs, List.append_nil]
      · simp [docPosition, hp] at hstart
    rw [hstep, docPosition_lead, push_lead_line, push_codeStack_line]
    refine ⟨rfl, ?_⟩
    have hshown := shownDoc_append_leadIf unit depth page s
    rw [docLine, if_neg h, ← List.append_assoc _ " * ".toList, ← hshown]
    simp only [List.append_assoc]

theorem RepresentsDoc.push_op (h : RepresentsDoc unit depth page stack received) (o : WriteOp) :
    RepresentsDoc unit depth (page.doc (margin unit depth) o) (push stack [o]).1
      (received ++ (push stack [o]).2) := by
  obtain ⟨rfl, rfl⟩ := h
  cases o with
  | text s =>
    rcases eq_or_ne s [] with rfl | hs
    · rw [push_text_nil_cons, push_nil]
      exact ⟨by simp [doc], by simp [doc, shownDoc]⟩
    · have hempty : (page.pending ++ s).isEmpty = false :=
        List.isEmpty_eq_false_iff.2 (by simp [hs])
      have hposition : docPosition (page.pending ++ s) = .inLine (s.getLast? == some '*') := by
        rw [docPosition, if_neg (by simp [hs]), Piece.endsInStar_append,
          Piece.endsInStar_of_ne_nil _ hs]
      have hne : leadIf page.pending.isEmpty " * ".toList ++
          commentText (docPosition page.pending).afterStar s ≠ [] := by
        simp [Piece.commentText_eq_nil_iff, hs]
      rw [push, Layer.run_singleton, Layer.step, if_neg (by simp [hs]), docPosition_lead,
        push_lead_text, push_codeStack_text _ _ _ hne, shownDoc_append_leadIf]
      exact ⟨by rw [doc, hempty, hposition], by simp [doc, shownDoc, docLine, hs]⟩
  | line s =>
    obtain ⟨hstack, htext⟩ := push_commentLine unit depth page s
    rw [push, Layer.run_singleton, Layer.step, hstack, htext]
    exact ⟨rfl, by simp [doc, shownDoc]⟩
  | blank =>
    obtain ⟨hstack, htext⟩ := push_commentLine unit depth page []
    rw [push, Layer.run_singleton, Layer.step, hstack, htext]
    exact ⟨rfl, by simp [doc, shownDoc]⟩

theorem RepresentsDoc.push_ops (h : RepresentsDoc unit depth page stack received)
    (ops : List WriteOp) :
    RepresentsDoc unit depth (ops.foldl (doc (margin unit depth)) page) (push stack ops).1
      (received ++ (push stack ops).2) := by
  induction ops generalizing page stack received with
  | nil => simpa using h
  | cons o ops ih =>
    have hrest := ih (h.push_op o)
    rw [List.append_assoc] at hrest
    rw [← List.singleton_append (l := ops), push_append]
    exact hrest

/-- Leaving a comment finishes its pending line and ends it. -/
theorem RepresentsDoc.leave (h : RepresentsDoc unit depth page stack received) :
    Represents unit depth
      ((if page.pending = [] then page else page.doc (margin unit depth) .blank).code
        (margin unit depth) (.line " */".toList))
      (leave stack).1 (received ++ (leave stack).2) := by
  obtain ⟨rfl, rfl⟩ := h
  rcases eq_or_ne page.pending [] with hp | hp
  · have hpage : Represents unit depth page (codeStack unit depth page.pending.isEmpty)
        (page.shownDoc (margin unit depth)) := ⟨rfl, by simp [shown, shownDoc, hp]⟩
    simpa [hp, Session.leave, docPosition, Layer.closing] using
      hpage.push_op (.line " */".toList)
  · have hline : push (codeStack unit depth false) [.line []] =
        (codeStack unit depth true, ['\n']) := by
      simp [push_codeStack_line, leadIf]
    have hpage : Represents unit depth (page.doc (margin unit depth) .blank)
        (codeStack unit depth true) (page.shownDoc (margin unit depth) ++ ['\n']) :=
      ⟨rfl, by simp [shown, shownDoc, doc, hp]⟩
    have hend := hpage.push_op (.line " */".toList)
    have hempty : page.pending.isEmpty = false := List.isEmpty_eq_false_iff.2 hp
    have hclosing := push_append (codeStack unit depth false) [.line []] [.line " */".toList]
    rw [hline] at hclosing
    rw [List.append_assoc] at hend
    rw [Session.leave, docPosition, if_neg hp, if_neg hp, Layer.closing, hempty]
    exact hclosing ▸ hend

theorem Represents.push_comment (h : Represents unit depth page stack received)
    (ops : List WriteOp) :
    Represents unit depth (page.comment (margin unit depth) ops)
      (push stack (Layer.commentOps ops)).1
      (received ++ (push stack (Layer.commentOps ops)).2) := by
  obtain ⟨hstack, htext⟩ := h.push_op (.line "/**".toList)
  have hopened : RepresentsDoc unit depth (page.code (margin unit depth) (.line "/**".toList))
      (Layer.comment .lineStart :: (push stack Layer.opening).1)
      (received ++ (push stack Layer.opening).2) :=
    ⟨congrArg (_ :: ·) hstack, htext⟩
  have hended := (hopened.push_ops ops).leave
  simp only [push, Session.leave, List.append_assoc] at hended
  simp only [Layer.commentOps, Layer.opening, push_append, List.append_assoc]
  exact hended

end Pages

/-! ### Programs -/

mutual

/-- A program takes the stack from page to page, and says itself where it ends. -/
theorem Represents.perform {unit : Text} {depth : Nat} {page : Page} {stack : Stack}
    {received : Text} (h : Represents unit depth page stack received) :
    (s : Script) → s.aligned page.pending.isEmpty = true →
      Represents unit depth (page.script unit depth s) (perform unit stack s.action).1
          (received ++ text (perform unit stack s.action).2) ∧
        (page.script unit depth s).pending.isEmpty = s.startAfter page.pending.isEmpty
  | .op o, _ => by
    have hop := h.push_op o
    refine ⟨?_, ?_⟩
    · simpa [Script.action, perform_ofOp, write, script] using hop
    · cases o with
      | text s => cases hp : page.pending <;> simp [script, code, Script.startAfter, hp]
      | line s => rfl
      | blank => simp only [script, code]; split <;> rfl
  | .indented body, hal => by
    simp only [Script.aligned, Bool.and_eq_true] at hal
    obtain ⟨⟨hstart, hbody⟩, hend⟩ := hal
    obtain ⟨hstack, hreceived⟩ := h
    rw [hstart] at hstack
    have hinner : Represents unit (depth + 1) page (Layer.indent unit true :: stack) received :=
      ⟨by rw [hstack, hstart]; rfl, by
        rw [hreceived, shown, shown, List.isEmpty_iff.1 hstart, if_pos rfl, if_pos rfl]⟩
    obtain ⟨⟨hinside, htext⟩, hleft⟩ := Represents.performAll hinner body (hstart ▸ hbody)
    rw [hstart, hend] at hleft
    refine ⟨⟨?_, ?_⟩, hleft⟩
    · simp [Script.action, Session.perform, hinside, hleft, Session.leave, codeStack,
        List.replicate_succ, Layer.closing, script]
    · simpa [Script.action, Session.perform, script, shown, List.isEmpty_iff.1 hleft] using htext
  | .comment ops, _ => by
    obtain ⟨hstack, htext⟩ := perform_comment unit stack ops
    refine ⟨?_, rfl⟩
    simp only [Script.action, hstack, htext]
    exact h.push_comment ops

theorem Represents.performAll {unit : Text} {depth : Nat} {page : Page} {stack : Stack}
    {received : Text} (h : Represents unit depth page stack received) :
    (ss : List Script) → Script.alignedAll page.pending.isEmpty ss = true →
      Represents unit depth (page.scripts unit depth ss)
          (performAll unit stack (Script.actions ss)).1
          (received ++ text (performAll unit stack (Script.actions ss)).2) ∧
        (page.scripts unit depth ss).pending.isEmpty =
          ss.foldl Script.startAfter page.pending.isEmpty
  | [], _ => by
    exact ⟨by simpa [Session.performAll, Script.actions, scripts] using h, rfl⟩
  | s :: rest, hal => by
    simp only [Script.alignedAll, Bool.and_eq_true] at hal
    obtain ⟨hs, hstart⟩ := Represents.perform h s hal.1
    obtain ⟨hrest, hend⟩ := Represents.performAll hs rest (hstart ▸ hal.2)
    refine ⟨?_, ?_⟩
    · simpa [Session.performAll, Script.actions, scripts] using hrest
    · rw [scripts, hend, hstart]
      rfl

end

mutual

/-- Every step of a program is recorded at the depth of the scopes around it, and the program
leaves the levels of the stack as they were. -/
theorem trace_perform (unit : Text) (stack : Stack) :
    (s : Script) → trace (perform unit stack s.action).2 = s.trace (depth stack) ∧
      (perform unit stack s.action).1.map Layer.units = stack.map Layer.units
  | .op o => by
    rw [Script.action, perform_ofOp]
    exact ⟨by simp [write, trace, Script.trace], map_units_push stack [o]⟩
  | .indented body => by
    obtain ⟨htrace, hunits⟩ := trace_performAll unit (Layer.indent unit true :: stack) body
    obtain ⟨l, outer, hstack, -, houter⟩ := List.map_eq_cons_iff.1 hunits
    refine ⟨congrArg ((StepKind.indented, depth stack + 1) :: ·) htrace, ?_⟩
    simp only [Script.action, perform, hstack, leave, map_units_push, houter]
  | .comment ops => by
    refine ⟨trace_perform_comment unit stack ops, ?_⟩
    rw [Script.action, (perform_comment unit stack ops).1, map_units_push]

theorem trace_performAll (unit : Text) (stack : Stack) :
    (ss : List Script) →
      trace (performAll unit stack (Script.actions ss)).2 = Script.traceAll (depth stack) ss ∧
        (performAll unit stack (Script.actions ss)).1.map Layer.units = stack.map Layer.units
  | [] => ⟨rfl, rfl⟩
  | s :: rest => by
    obtain ⟨htrace, hunits⟩ := trace_perform unit stack s
    obtain ⟨hrest, hend⟩ := trace_performAll unit (perform unit stack s.action).1 rest
    have hdepth : depth (perform unit stack s.action).1 = depth stack := depth_congr hunits
    refine ⟨?_, ?_⟩
    · simp only [Script.actions, performAll, trace_append, Script.traceAll, htrace, hrest, hdepth]
    · simp only [Script.actions, performAll, hend, hunits]

end

/-- A stack of writers refines the printer: the text of a program is the page that the printer
makes of it, and each of its steps runs at the depth of the scopes around it. -/
theorem steps_refine_page (indent : Indent) (ss : List Script)
    (h : Script.alignedAll true ss = true) :
    text (steps indent (Script.actions ss)) =
        (Page.empty.scripts indent.unit 0 ss).done ++
          (Page.empty.scripts indent.unit 0 ss).pending ∧
      trace (steps indent (Script.actions ss)) = Script.traceAll 0 ss := by
  have hstart : Represents indent.unit 0 Page.empty [] [] := ⟨rfl, rfl⟩
  obtain ⟨⟨-, htext⟩, -⟩ := hstart.performAll ss h
  refine ⟨?_, (trace_performAll indent.unit [] ss).1⟩
  rw [List.nil_append, shown, margin_zero, List.nil_append] at htext
  rw [steps, htext]
  split
  · next hp => rw [hp]
  · rfl

/-- A class with a commented field, whose comment is cut where it would end. -/
def fieldScript : List Script :=
  [.op (.text "class A ".toList), .op (.line "\x7b".toList),
    .indented
      [.comment [.text "ends *".toList, .text "/ here".toList, .blank, .line [], .text "*".toList],
        .op (.text "int ".toList), .op (.text []), .op (.line "x;".toList), .op .blank,
        .indented [.op (.line [])]],
    .op (.text "\x7d".toList)]

theorem fieldScript_steps :
    Script.alignedAll true fieldScript = true ∧
      text (steps .tab (Script.actions fieldScript)) =
        ("class A \x7b\n\t/**\n\t * ends *&#47; here\n\t *\n\t * *\n\t */\n\tint x;\n\n" ++
          "\t\t\n\x7d").toList ∧
      (trace (steps .tab (Script.actions fieldScript))).map Prod.snd =
        [0, 0, 1, 1, 1, 1, 1, 1, 1, 1, 1, 1, 1, 1, 2, 2, 0] := by
  obtain ⟨htext, htrace⟩ := steps_refine_page .tab fieldScript rfl
  refine ⟨rfl, ?_, ?_⟩
  · rw [htext]
    decide +kernel
  · rw [htrace]
    rfl

end Session

end JavaSource
