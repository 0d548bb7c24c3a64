import JavaSource.Part
import JavaSource.Proofs.ShiftedText

/-!
# Text in pieces

Code may hold a text as one fragment or as several that follow each other. Writers pass on the same
text for both, whatever scopes they stand in and wherever their lines stand, unless a cut separates
a carriage return from the line break behind it: the return goes with the break in one fragment and
stays in the text of two.
-/

namespace JavaSource

open Text

/-! ### Operations that replace others -/

namespace Session

/-- Operations that leave every stack of writers as others do. The root receives the same text from
both if `p` holds, and a longer one if not. -/
structure SameIf (p : Prop) (ops more : List WriteOp) : Prop where
  stack (s : Stack) : (push s more).1 = (push s ops).1
  same (hp : p) (s : Stack) : (push s more).2 = (push s ops).2
  longer (hp : ¬p) (s : Stack) : (push s ops).2.length < (push s more).2.length

namespace SameIf

variable {p q : Prop} {ops more others : List WriteOp}

theorem refl (hp : p) (ops : List WriteOp) : SameIf p ops ops :=
  ⟨fun _ => rfl, fun _ _ => rfl, fun h => absurd hp h⟩

theorem of_push_eq (hp : p) (h : ∀ s, push s more = push s ops) : SameIf p ops more :=
  ⟨fun s => by rw [h], fun _ s => by rw [h], fun hn => absurd hp hn⟩

theorem of_push_eq_right (h : SameIf p ops more) (heq : ∀ s, push s others = push s more) :
    SameIf p ops others :=
  ⟨fun s => by rw [heq, h.stack], fun hp s => by rw [heq, h.same hp],
    fun hp s => by rw [heq]; exact h.longer hp s⟩

theorem text_eq_iff (h : SameIf p ops more) (s : Stack) :
    (push s more).2 = (push s ops).2 ↔ p := by
  refine ⟨fun heq => ?_, fun hp => h.same hp s⟩
  by_contra hp
  have hlt := h.longer hp s
  rw [heq] at hlt
  exact Nat.lt_irrefl _ hlt

theorem length_le (h : SameIf p ops more) (s : Stack) :
    (push s ops).2.length ≤ (push s more).2.length := by
  by_cases hp : p
  · exact Nat.le_of_eq (congrArg List.length (h.same hp s).symm)
  · exact Nat.le_of_lt (h.longer hp s)

theorem congr (h : SameIf p ops more) (hpq : p ↔ q) : SameIf q ops more :=
  ⟨h.stack, fun hq => h.same (hpq.2 hq), fun hq => h.longer fun hp => hq (hpq.1 hp)⟩

/-- One replacement behind another keeps the text only if both do: neither takes away what the other
one adds. -/
theorem trans (h : SameIf p ops more) (h' : SameIf q more others) : SameIf (p ∧ q) ops others where
  stack s := (h'.stack s).trans (h.stack s)
  same hpq s := (h'.same hpq.2 s).trans (h.same hpq.1 s)
  longer hpq s := by
    by_cases hp : p
    · exact Nat.lt_of_le_of_lt (h.length_le s) (h'.longer (fun hq => hpq ⟨hp, hq⟩) s)
    · exact Nat.lt_of_lt_of_le (h.longer hp s) (h'.length_le s)

theorem frame (h : SameIf p ops more) (front rest : List WriteOp) :
    SameIf p (front ++ ops ++ rest) (front ++ more ++ rest) := by
  have hpush : ∀ (s : Stack) (between : List WriteOp), push s (front ++ between ++ rest) =
      let inner := push (push s front).1 between
      ((push inner.1 rest).1, (push s front).2 ++ inner.2 ++ (push inner.1 rest).2) := by
    intro s between
    simp only [push_append]
  refine ⟨fun s => ?_, fun hp s => ?_, fun hp s => ?_⟩
  · simp only [hpush, h.stack]
  · simp only [hpush, h.stack, h.same hp]
  · have hlt := h.longer hp (push s front).1
    simp only [hpush, h.stack, List.length_append]
    omega

/-- What replaces operations in a scope replaces what the scope passes on. -/
theorem indent (h : SameIf p ops more) (unit : Text) :
    SameIf p ((Layer.indent unit true).run ops).2 ((Layer.indent unit true).run more).2 :=
  ⟨fun s => (List.cons.inj (h.stack (Layer.indent unit true :: s))).2,
    fun hp s => h.same hp (Layer.indent unit true :: s),
    fun hp s => h.longer hp (Layer.indent unit true :: s)⟩

end SameIf

end Session

/-! ### A longer line -/

/-- A line with more text at its end is passed on as a line with more text at its end. -/
theorem Layer.run_line_append (l : Layer) (s : Text) {e : Text} (he : e ≠ []) :
    ∃ m front a b more, b ≠ [] ∧ l.run [.line s] = (m, front ++ [.line a]) ∧
      l.run [.line (s ++ e)] = (m, more) ∧
      ∀ stack ops, Session.push stack (ops ++ more) =
        Session.push stack (ops ++ (front ++ [.line (a ++ b)])) := by
  cases l with
  | indent unit start =>
    exact ⟨.indent unit true, lead unit start, s, e, _, he, by simp [step], by simp [step],
      fun _ _ => rfl⟩
  | comment p =>
    have hmore : commentText (Piece.endsInStar p.afterStar s) e ≠ [] :=
      fun h => he (Piece.commentText_eq_nil_iff.1 h)
    by_cases hempty : p = .lineStart ∧ s = []
    · -- the empty line of a comment has no blank behind its star
      obtain ⟨rfl, rfl⟩ := hempty
      refine ⟨.comment .lineStart, [], " *".toList, ' ' :: commentText false e,
        [.text " * ".toList, .line (commentText false e)], List.cons_ne_nil _ _, rfl, ?_, ?_⟩
      · simp [step, step.commentLine, he, CommentPosition.lead, CommentPosition.afterStar]
      · intro stack ops
        rw [Session.push_text_line]
        rfl
    · refine ⟨.comment .lineStart, p.lead, commentText p.afterStar s, _, _, hmore, ?_, ?_,
        fun _ _ => rfl⟩
      · simp [step, step.commentLine, hempty]
      · simp [step, step.commentLine, he, Piece.commentText_append]

namespace Session

/-- Every stack of writers passes on a longer line as a longer text. -/
theorem push_line_append_lt (stack : Stack) (ops : List WriteOp) (s : Text) {e : Text}
    (he : e ≠ []) :
    (push stack (ops ++ [.line (s ++ e)])).1 = (push stack (ops ++ [.line s])).1 ∧
      (push stack (ops ++ [.line s])).2.length <
        (push stack (ops ++ [.line (s ++ e)])).2.length := by
  -- the operations in front are general, since every layer adds what leads the line
  induction stack generalizing ops s e with
  | nil =>
    have hlength := List.length_pos_iff.2 he
    simp only [push, WriteOp.renderAll_append, WriteOp.renderAll_cons, WriteOp.renderAll_nil,
      WriteOp.render, List.length_append, true_and]
    omega
  | cons l outer ih =>
    obtain ⟨m, front, a, b, more, hb, hshort, hlong, hmore⟩ :=
      (l.run ops).1.run_line_append s he
    have hrest := ih ((l.run ops).2 ++ front) a hb
    simp only [push, Layer.run_append, hshort, hlong, hmore, ← List.append_assoc] at hrest ⊢
    exact ⟨by rw [hrest.1], hrest.2⟩

theorem sameIf_line_append (s : Text) {e : Text} (he : e ≠ []) :
    SameIf False [.line s] [.line (s ++ e)] :=
  ⟨fun stack => (push_line_append_lt stack [] s he).1, False.elim,
    fun _ stack => (push_line_append_lt stack [] s he).2⟩

end Session

/-! ### Texts cut in two -/

namespace Text

/-- A cut between two texts separates a carriage return from the line break behind it. -/
def SplitsBreak (s t : Text) : Prop := s.getLast? = some '\r' ∧ t.head? = some '\n'

instance (s t : Text) : Decidable (SplitsBreak s t) := inferInstanceAs (Decidable (_ ∧ _))

/-- The pieces of a text are cut nowhere between a carriage return and its line break. -/
def KeepsBreaks : List Text → Prop
  | [] => True
  | s :: rest => ¬SplitsBreak s rest.flatten ∧ KeepsBreaks rest

theorem splitsBreak_line_iff (a b t : Text) :
    SplitsBreak (a ++ '\n' :: b) t ↔ SplitsBreak b t := by
  unfold SplitsBreak
  cases b with
  | nil => simp
  | cons c b => simp [List.getLast?_cons, List.getLast?_append]

theorem not_splitsBreak_of_not_mem {s t : Text} (h : '\n' ∉ t) : ¬SplitsBreak s t :=
  fun hs => h (List.mem_of_head? hs.2)

/-- The return at the end of a text is that of its last piece. -/
theorem dropReturn_append (s : Text) {t : Text} (ht : t ≠ []) :
    dropReturn (s ++ t) = s ++ dropReturn t := by
  obtain ⟨front, c, rfl⟩ := List.eq_nil_or_concat t |>.resolve_left ht
  rw [List.concat_eq_append, ← List.append_assoc, dropReturn_concat, dropReturn_concat]
  split
  · rfl
  · rw [List.append_assoc]

end Text

namespace Layout

open Session

variable {unit s t : Text}

/-- The last piece of a text and the line that it becomes part of. -/
theorem push_ofText_line (h : '\n' ∉ s) (unit t : Text) (stack : Stack) :
    push stack (opsAll unit (ofText s) ++ [.line t]) = push stack [.line (s ++ t)] := by
  rw [ofText_eq_of_not_mem h]
  split
  · next hs => rw [hs]; rfl
  · exact push_text_line stack [] s t

theorem push_ofText_ofText (hs : '\n' ∉ s) (ht : '\n' ∉ t) (stack : Stack) :
    push stack (opsAll unit (ofText s ++ ofText t)) =
      push stack (opsAll unit (ofText (s ++ t))) := by
  have hst : '\n' ∉ s ++ t := by simp [hs, ht]
  rw [ofText_eq_of_not_mem hs, ofText_eq_of_not_mem ht, ofText_eq_of_not_mem hst]
  by_cases hsn : s = []
  · simp [hsn]
  by_cases htn : t = []
  · simp [htn]
  simp only [hsn, htn, if_false, List.append_eq_nil_iff, and_self]
  exact push_text_text stack [] s t

/-- A line whose front is written as a piece of its own: a return at the end of the front is kept
where nothing of the line follows it. -/
theorem sameIf_ofText_line (hs : '\n' ∉ s) {a : Text} (ha : '\n' ∉ a) (unit b : Text) :
    SameIf (¬SplitsBreak s (a ++ '\n' :: b)) [.line (dropReturn (s ++ a))]
      (opsAll unit (ofText s) ++ [.line (dropReturn a)]) := by
  suffices h : SameIf (¬SplitsBreak s (a ++ '\n' :: b)) [.line (dropReturn (s ++ a))]
      [.line (s ++ dropReturn a)] from h.of_push_eq_right (push_ofText_line hs unit (dropReturn a))
  rcases eq_or_ne a [] with rfl | hne
  · rcases List.eq_nil_or_concat s with rfl | ⟨front, c, rfl⟩
    · exact SameIf.refl (by simp [SplitsBreak]) _
    · rw [List.concat_eq_append, List.append_nil, dropReturn_concat, dropReturn_nil,
        List.append_nil]
      by_cases hc : c = '\r'
      · rw [if_pos hc]
        exact (sameIf_line_append front (List.cons_ne_nil c [])).congr (by simp [SplitsBreak, hc])
      · rw [if_neg hc]
        exact SameIf.refl (by simp [SplitsBreak, hc]) _
  · have hhead : (a ++ '\n' :: b).head? ≠ some '\n' := by
      rw [List.head?_append_of_ne_nil _ hne]
      exact fun h => ha (List.mem_of_head? h)
    rw [dropReturn_append s hne]
    exact SameIf.refl (fun h => hhead h.2) _

theorem sameIf_ofText_append (unit s t : Text) :
    SameIf (¬SplitsBreak s t) (opsAll unit (ofText (s ++ t)))
      (opsAll unit (ofText s ++ ofText t)) := by
  induction s using lineInduction with
  | line a b h ih =>
    have hframe := (ih.frame [.line (dropReturn a)] []).congr
      (not_congr (splitsBreak_line_iff a b t)).symm
    rw [List.append_nil, List.append_nil] at hframe
    rw [List.append_assoc, List.cons_append, ofText_line h, ofText_line h]
    exact hframe
  | last s hs =>
    by_cases ht : '\n' ∈ t
    · obtain ⟨a, b, rfl, ha⟩ := List.eq_append_cons_of_mem ht
      have hsa : '\n' ∉ s ++ a := by simp [hs, ha]
      have hframe := (sameIf_ofText_line hs ha unit b).frame [] (opsAll unit (ofText b))
      rw [List.nil_append, List.nil_append, List.append_assoc] at hframe
      rw [← List.append_assoc, ofText_line hsa, ofText_line ha, opsAll_append]
      exact hframe
    · exact SameIf.of_push_eq (not_splitsBreak_of_not_mem ht) (push_ofText_ofText hs ht)

/-- A text in pieces is written as the whole exactly if no cut separates a carriage return from its
line break. -/
theorem sameIf_ofText_flatten (unit : Text) (pieces : List Text) :
    SameIf (KeepsBreaks pieces) (opsAll unit (ofText pieces.flatten))
      (opsAll unit (pieces.flatMap ofText)) := by
  induction pieces with
  | nil => exact SameIf.refl trivial _
  | cons s rest ih =>
    have hrest := ih.frame (opsAll unit (ofText s)) []
    rw [List.append_nil, List.append_nil, ← opsAll_append, ← opsAll_append] at hrest
    exact (sameIf_ofText_append unit s rest.flatten).trans hrest

end Layout

/-! ### Code with a text cut in two -/

namespace Code

open Session

/-- Code and the same code with one of its texts, in any of its scopes, cut into two fragments. -/
inductive Cut (s t : Text) : Code → Code → Prop
  | here (front rest : Code) :
    Cut s t (front ++ .text (s ++ t) :: rest) (front ++ .text s :: .text t :: rest)
  | inside (front rest : Code) {body body' : Code} (h : Cut s t body body') :
    Cut s t (front ++ .indented body :: rest) (front ++ .indented body' :: rest)

variable {s t : Text} {code code' : Code}

theorem Cut.sameIf_layout (h : Cut s t code code') (unit : Text) (naming : Naming) :
    SameIf (¬SplitsBreak s t) (Layout.opsAll unit (layout naming code))
      (Layout.opsAll unit (layout naming code')) := by
  induction h with
  | here front rest =>
    have hframe := (Layout.sameIf_ofText_append unit s t).frame
      (Layout.opsAll unit (layout naming front)) (Layout.opsAll unit (layout naming rest))
    simp only [layout_append, layout, layoutOfFragment, Layout.opsAll_append, List.append_assoc]
      at hframe ⊢
    exact hframe
  | inside front rest h ih =>
    have hframe := (ih.indent unit).frame
      (Layout.opsAll unit (layout naming front)) (Layout.opsAll unit (layout naming rest))
    simp only [layout_append, layout, layoutOfFragment, Layout.opsAll_append, Layout.opsAll,
      Layout.ops, List.append_assoc, List.append_nil] at hframe ⊢
    exact hframe

/-- A text in code may be cut into two fragments anywhere but between a carriage return and the line
break behind it: the code has the same text inside any number of scopes, and every stack of writers
is left as it was before. With the return cut off from its break the text is another one. -/
theorem text_cut_iff (h : Cut s t code code') (r : Imports) (indent : Indent) :
    (∀ stack, (push stack (Layout.opsAll indent.unit (layout r.name code'))).1 =
        (push stack (Layout.opsAll indent.unit (layout r.name code))).1) ∧
      ∀ depth, (Part.code code').text r indent depth = (Part.code code).text r indent depth ↔
        ¬(s.getLast? = some '\r' ∧ t.head? = some '\n') := by
  have hsame := h.sameIf_layout indent.unit r.name
  refine ⟨hsame.stack, fun depth => ?_⟩
  have hiff := hsame.text_eq_iff (codeStack indent.unit depth true)
  rw [← Layout.renderAll_nest, ← Layout.renderAll_nest] at hiff
  exact hiff

/-- A loop with a line that begins with a type and ends in a carriage return. -/
def listLoop : Code :=
  [.text "for (;;) \x7b\n".toList,
    .indented
      [.type (.named (.ofText "java.util.List".toList)),
        .text " xs;\r\nload(xs);\n".toList],
    .text "\x7d\n".toList]

/-- The same with the text behind the type cut in front of the carriage return. -/
def cutListLoop : Code :=
  [.text "for (;;) \x7b\n".toList,
    .indented
      [.type (.named (.ofText "java.util.List".toList)), .text " xs;".toList,
        .text "\r\nload(xs);\n".toList],
    .text "\x7d\n".toList]

theorem cutListLoop_text :
    Cut " xs;".toList "\r\nload(xs);\n".toList listLoop cutListLoop ∧
      ∀ depth, (Part.code cutListLoop).text .empty .tab depth =
        (Part.code listLoop).text .empty .tab depth := by
  have h : Cut " xs;".toList "\r\nload(xs);\n".toList listLoop cutListLoop :=
    .inside [.text "for (;;) \x7b\n".toList] [.text "\x7d\n".toList]
      (.here [.type (.named (.ofText "java.util.List".toList))] [])
  have htext := (text_cut_iff h .empty .tab).2
  exact ⟨h, fun depth => (htext depth).2 (by decide)⟩

end Code

end JavaSource
