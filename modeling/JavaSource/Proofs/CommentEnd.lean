import JavaSource.Proofs.WriterStack

/-!
# The end of a comment

A comment ends with the first star that has a slash directly behind it. Whatever is written to a
comment and however it is cut into calls, its text is harmless up to the end that the comment
writes itself, and indentation around it keeps it so.
-/

namespace JavaSource

open Piece (endsInStar endsInStar_cons endsInStar_append endsInStar_concat)

/-! ### Harmless text -/

/-- No slash stands directly behind a star, where `star` says whether the text itself stands
behind one. -/
def Harmless : (star : Bool) → Text → Prop
  | _, [] => True
  | star, c :: s => ¬ (star = true ∧ c = '/') ∧ Harmless (c == '*') s

namespace Harmless

theorem append_iff {star : Bool} {s t : Text} :
    Harmless star (s ++ t) ↔ Harmless star s ∧ Harmless (endsInStar star s) t := by
  induction s generalizing star with
  | nil => simp [Harmless, endsInStar]
  | cons c s ih => rw [List.cons_append, Harmless, Harmless, endsInStar_cons, ih, and_assoc]

theorem mono {star star' : Bool} {s : Text} (h : Harmless star s) (hle : star' ≤ star) :
    Harmless star' s := by
  cases s with
  | nil => trivial
  | cons c s =>
    refine ⟨fun hc => h.1 ⟨?_, hc.2⟩, h.2⟩
    exact Bool.eq_true_of_true_le (hc.1 ▸ hle)

theorem endsInStar_mono {star star' : Bool} (s : Text) (hle : star' ≤ star) :
    endsInStar star' s ≤ endsInStar star s := by
  cases s with
  | nil => exact hle
  | cons c s =>
    have hsame : endsInStar star' (c :: s) = endsInStar star (c :: s) := by
      rw [endsInStar_cons, endsInStar_cons]
    exact hsame ▸ Bool.le_refl _

theorem not_infix {star : Bool} {s : Text} (h : Harmless star s) : ¬ ['*', '/'] <:+: s := by
  rintro ⟨a, b, rfl⟩
  have hend := (append_iff.1 (append_iff.1 h).1).2
  simp [Harmless] at hend

/-- An end that follows harmless text is the first one, and it is the only one if just a line
break follows. -/
theorem append_end_eq_iff {front a b : Text} (h : Harmless false front) :
    front ++ ['*', '/', '\n'] = a ++ '*' :: '/' :: b ↔ a = front ∧ b = ['\n'] := by
  constructor
  · intro heq
    rcases List.append_eq_append_iff.1 heq with ⟨mid, ha, hb⟩ | ⟨mid, hfront, hb⟩
    · -- the end that was found lies behind the text, in three characters
      match mid, ha, hb with
      | [], ha, hb => simp_all
      | [_], _, hb => simp at hb
      | [_, _], _, hb => simp at hb
      | _ :: _ :: _ :: mid, _, hb => simp at hb
    · -- it begins in the text, and so all of it but perhaps its slash is there
      match mid, hfront, hb with
      | [], hfront, hb => simp_all
      | [_], _, hb => simp at hb
      | c :: d :: mid, hfront, hb =>
        simp only [List.cons_append, List.cons.injEq] at hb
        obtain ⟨rfl, rfl, -⟩ := hb
        exact absurd ⟨a, mid, by simp [hfront]⟩ h.not_infix
  · rintro ⟨rfl, rfl⟩
    rfl

end Harmless

theorem endsInStar_commentText (star : Bool) (s : Text) :
    endsInStar star (commentText star s) = endsInStar star s := by
  induction s generalizing star with
  | nil => rfl
  | cons c s ih =>
    rw [commentText, endsInStar_cons, endsInStar_append, ← ih]
    split
    · next hc =>
      have hslash : c = '/' := by simp at hc; exact hc.2
      subst hslash
      rfl
    · rfl

theorem harmless_commentText (star : Bool) (s : Text) : Harmless star (commentText star s) := by
  induction s generalizing star with
  | nil => trivial
  | cons c s ih =>
    rw [commentText, Harmless.append_iff]
    split
    · next hc =>
      have hslash : c = '/' := by simp at hc; exact hc.2
      subst hslash
      exact ⟨by simp [harmlessSlash, Harmless], ih _⟩
    · next hc => exact ⟨⟨by simpa using hc, trivial⟩, ih _⟩

/-- The text is harmless behind a star or not, as `star` says, and itself ends in one or not. -/
def HarmlessTo (star : Bool) (s : Text) (star' : Bool) : Prop :=
  Harmless star s ∧ endsInStar star s = star'

theorem HarmlessTo.append {a b c : Bool} {s t : Text} (hs : HarmlessTo a s b)
    (ht : HarmlessTo b t c) : HarmlessTo a (s ++ t) c := by
  obtain ⟨hharmless, rfl⟩ := hs
  exact ⟨Harmless.append_iff.2 ⟨hharmless, ht.1⟩, (endsInStar_append a s t).trans ht.2⟩

theorem harmlessTo_newline (star : Bool) : HarmlessTo star ['\n'] false :=
  ⟨by simp [Harmless], rfl⟩

theorem harmlessTo_commentText (star : Bool) (s : Text) :
    HarmlessTo star (commentText star s) (endsInStar star s) :=
  ⟨harmless_commentText star s, endsInStar_commentText star s⟩

/-! ### Indentation -/

theorem Harmless.of_slash_not_mem {star : Bool} {s : Text} (h : '/' ∉ s) : Harmless star s := by
  have hs := harmless_commentText star s
  rwa [Piece.commentText_eq_self star h] at hs

theorem endsInStar_le_of_star_not_mem {star : Bool} {s : Text} (h : '*' ∉ s) :
    endsInStar star s ≤ star := by
  unfold endsInStar
  cases hl : s.getLast? with
  | none => exact Bool.le_refl _
  | some c =>
    have hc : c ≠ '*' := fun hc => h (hc ▸ List.mem_of_getLast? hl)
    have hfalse : (c == '*') = false := beq_eq_false_iff_ne.2 hc
    simp only [hfalse, Bool.false_le]

theorem Indent.eq_of_mem_unit {indent : Indent} {c : Char} (h : c ∈ indent.unit) :
    c = ' ' ∨ c = '\t' := by
  cases indent with
  | spaces width => exact Or.inl (List.eq_of_mem_replicate h)
  | tab => exact Or.inr (List.mem_singleton.1 h)

/-- No unit of indentation has a star or a slash. -/
theorem Indent.harmless_unit (indent : Indent) (star : Bool) :
    Harmless star indent.unit ∧ endsInStar star indent.unit ≤ star := by
  have hslash : '/' ∉ indent.unit := fun h => by
    rcases Indent.eq_of_mem_unit h with h | h <;> exact absurd h (by decide)
  have hstar : '*' ∉ indent.unit := fun h => by
    rcases Indent.eq_of_mem_unit h with h | h <;> exact absurd h (by decide)
  exact ⟨Harmless.of_slash_not_mem hslash, endsInStar_le_of_star_not_mem hstar⟩

/-! ### Layers -/

namespace Layer

theorem harmlessTo_lead (p : CommentPosition) :
    HarmlessTo p.afterStar (WriteOp.renderAll p.lead) p.afterStar := by
  cases p with
  | lineStart => exact ⟨by simp [CommentPosition.lead, WriteOp.render, Harmless], rfl⟩
  | inLine star => exact ⟨trivial, rfl⟩

theorem harmlessTo_commentLine (p : CommentPosition) (s : Text) :
    HarmlessTo p.afterStar (WriteOp.renderAll (step.commentLine p s)) false := by
  unfold step.commentLine
  split
  · next h =>
    obtain ⟨rfl, rfl⟩ := h
    exact ⟨by simp [WriteOp.render, Harmless], rfl⟩
  · have hline := (harmlessTo_commentText p.afterStar s).append (harmlessTo_newline _)
    rw [WriteOp.renderAll_append]
    exact (harmlessTo_lead p).append (by simpa [WriteOp.render] using hline)

/-- What a comment makes of one operation is harmless where it stands, and the comment knows
whether it ends in a star. -/
theorem harmlessTo_step (p : CommentPosition) (op : WriteOp) :
    ∃ q, ((comment p).step op).1 = comment q ∧
      HarmlessTo p.afterStar (WriteOp.renderAll ((comment p).step op).2) q.afterStar := by
  cases op with
  | text s =>
    rcases eq_or_ne s [] with rfl | hs
    · exact ⟨p, rfl, trivial, rfl⟩
    · have htext := (harmlessTo_lead p).append (harmlessTo_commentText p.afterStar s)
      rw [Piece.endsInStar_of_ne_nil p.afterStar hs] at htext
      refine ⟨.inLine (s.getLast? == some '*'), by simp [step, hs], ?_⟩
      simpa [step, hs, WriteOp.render, CommentPosition.afterStar] using htext
  | line s => exact ⟨.lineStart, rfl, harmlessTo_commentLine p s⟩
  | blank => exact ⟨.lineStart, rfl, harmlessTo_commentLine p []⟩

theorem harmlessTo_run (p : CommentPosition) (ops : List WriteOp) :
    ∃ q, ((comment p).run ops).1 = comment q ∧
      HarmlessTo p.afterStar (WriteOp.renderAll ((comment p).run ops).2) q.afterStar := by
  induction ops generalizing p with
  | nil => exact ⟨p, rfl, trivial, rfl⟩
  | cons op ops ih =>
    obtain ⟨q, hq, hstep⟩ := harmlessTo_step p op
    obtain ⟨r, hr, hrun⟩ := ih q
    refine ⟨r, by rw [run, hq, hr], ?_⟩
    rw [run, hq, WriteOp.renderAll_append]
    exact hstep.append hrun

/-- Indentation keeps harmless text harmless. -/
theorem harmless_run_indent (indent : Indent) (start : Bool) {star star' : Bool}
    {ops : List WriteOp} (h : Harmless star (WriteOp.renderAll ops)) (hle : star' ≤ star) :
    Harmless star' (WriteOp.renderAll ((Layer.indent indent.unit start).run ops).2) := by
  -- with a unit in between, what stands behind a star without indentation may no longer do so
  induction ops generalizing start star star' with
  | nil => trivial
  | cons op ops ih =>
    obtain ⟨next, margin, hlayer, hmargin, hrender⟩ := step_indent indent.unit start op
    have hunit : Harmless star' margin ∧ endsInStar star' margin ≤ star' := by
      rcases hmargin with rfl | rfl
      · exact ⟨trivial, Bool.le_refl _⟩
      · exact indent.harmless_unit star'
    have hmargin' : endsInStar star' margin ≤ star := Bool.le_trans hunit.2 hle
    obtain ⟨hop, hops⟩ := Harmless.append_iff.1 h
    rw [run, WriteOp.renderAll_append, hlayer, hrender, Harmless.append_iff, Harmless.append_iff,
      endsInStar_append]
    exact ⟨⟨hunit.1, hop.mono hmargin'⟩, ih next hops (Harmless.endsInStar_mono _ hmargin')⟩

/-- Up to its own end a comment is harmless. -/
theorem harmless_commentOps (ops : List WriteOp) :
    ∃ before, commentOps ops = before ++ [.line " */".toList] ∧
      Harmless false (WriteOp.renderAll (before ++ [.text [' ']])) := by
  obtain ⟨q, hq, hrun⟩ := harmlessTo_run .lineStart ops
  have hopening : HarmlessTo false (WriteOp.renderAll opening) false :=
    ⟨by simp [opening, WriteOp.render, Harmless], rfl⟩
  cases q with
  | lineStart =>
    have hblank : HarmlessTo false [' '] false := ⟨by simp [Harmless], rfl⟩
    refine ⟨opening ++ ((comment .lineStart).run ops).2, ?_, ?_⟩
    · simp [commentOps, hq, closing]
    · simpa [WriteOp.render] using ((hopening.append hrun).append hblank).1
  | inLine star =>
    have hend : HarmlessTo star ['\n', ' '] false := ⟨by simp [Harmless], rfl⟩
    refine ⟨opening ++ ((comment .lineStart).run ops).2 ++ [.line []], ?_, ?_⟩
    · simp [commentOps, hq, closing]
    · simpa [WriteOp.render] using ((hopening.append hrun).append hend).1

end Layer

/-! ### Stacks of indentations -/

namespace Session

theorem harmless_push (indent : Indent) (starts : List Bool) {star : Bool} {ops : List WriteOp}
    (h : Harmless star (WriteOp.renderAll ops)) :
    Harmless star (push (starts.map (Layer.indent indent.unit)) ops).2 := by
  induction starts generalizing ops with
  | nil => exact h
  | cons start starts ih => exact ih (Layer.harmless_run_indent indent start h (Bool.le_refl _))

/-- Behind a piece of its line, the rest of a line passes every indentation as it is. -/
theorem push_line_append (unit : Text) (starts : List Bool) (ops : List WriteOp) {s : Text}
    (t : Text) (hs : s ≠ []) :
    (push (starts.map (Layer.indent unit)) (ops ++ [.line (s ++ t)])).2 =
      (push (starts.map (Layer.indent unit)) (ops ++ [.text s])).2 ++ t ++ ['\n'] := by
  induction starts generalizing ops with
  | nil => simp [push, WriteOp.render]
  | cons start starts ih =>
    obtain ⟨next, hlayer⟩ := Layer.run_indent unit start ops
    simp only [List.map_cons, push, Layer.run_append, hlayer, Layer.run_singleton, Layer.step,
      List.isEmpty_eq_false_iff.2 hs, Bool.false_eq_true, if_false, ← List.append_assoc, ih]

/-- The characters that end a comment stand once in its text, directly before its last line
break, whatever was written to it and however many layers indent it, each at the start of its
line or not. -/
theorem comment_ends_once (indent : Indent) (starts : List Bool) (ops : List WriteOp) :
    ∃ front, ∀ a b,
      text (perform indent.unit (starts.map (Layer.indent indent.unit))
          (.comment (ops.map Action.ofOp))).2 = a ++ "*/".toList ++ b ↔
        a = front ∧ b = ['\n'] := by
  obtain ⟨before, hops, hbefore⟩ := Layer.harmless_commentOps ops
  have hfront := harmless_push indent starts hbefore
  have hline := push_line_append indent.unit starts before ['*', '/'] (List.cons_ne_nil ' ' [])
  have htext := (perform_comment indent.unit (starts.map (Layer.indent indent.unit)) ops).2
  rw [hops] at htext
  refine ⟨(push (starts.map (Layer.indent indent.unit)) (before ++ [.text [' ']])).2,
    fun a b => ?_⟩
  rw [htext.trans hline, List.append_assoc, List.append_assoc]
  exact hfront.append_end_eq_iff

end Session

end JavaSource
