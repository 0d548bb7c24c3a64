import JavaSource.JavaType
import JavaSource.Layout.Layer
import Mathlib.Data.List.Basic

/-!
# Written text piece by piece

A file is text, and text does not say which of its characters are the name of a class. Here the
same text is kept as pieces, fixed text and names of classes apart, through every layer of
writers on the way to the file. Forgetting the pieces gives back what the layers make of plain
text, so that the pieces say where in a file a class is named and how.
-/

namespace JavaSource

/-- A piece of written text. -/
inductive Piece
  /-- Text that is no name of a class. -/
  | fixed (s : Text)
  /-- The name of a class as it was written, inside or outside of a comment. -/
  | name (c : ClassName) (written : Text) (inComment : Bool)
deriving DecidableEq

namespace Piece

/-- What a piece reads in the file: comments do not hold a slash directly behind a star. -/
def text : Piece → Text
  | fixed s => s
  | name _ written inComment => if inComment then commentText false written else written

@[simp] theorem text_fixed (s : Text) : (fixed s).text = s := rfl

@[simp] theorem text_written (c : ClassName) (w : Text) : (name c w false).text = w := rfl

def textAll (ps : List Piece) : Text := ps.flatMap text

/-- The classes that pieces name, in order, each with the way it was written. -/
def named (ps : List Piece) : List (ClassName × Text) :=
  ps.filterMap fun p =>
    match p with
    | fixed _ => none
    | name c written _ => some (c, written)

/-- The same piece where another naming writes the classes. -/
def renamed (naming : Naming) : Piece → Piece
  | fixed s => fixed s
  | name c _ inComment => name c (naming c) inComment

@[simp] theorem textAll_nil : textAll [] = [] := rfl

@[simp] theorem textAll_cons (p : Piece) (ps : List Piece) :
    textAll (p :: ps) = p.text ++ textAll ps := rfl

@[simp] theorem textAll_append (ps qs : List Piece) :
    textAll (ps ++ qs) = textAll ps ++ textAll qs := by
  simp [textAll]

@[simp] theorem named_nil : named [] = [] := rfl

@[simp] theorem named_fixed_cons (s : Text) (ps : List Piece) :
    named (fixed s :: ps) = named ps := rfl

@[simp] theorem named_name_cons (c : ClassName) (w : Text) (b : Bool) (ps : List Piece) :
    named (name c w b :: ps) = (c, w) :: named ps := rfl

@[simp] theorem named_append (ps qs : List Piece) : named (ps ++ qs) = named ps ++ named qs := by
  simp [named]

theorem mem_named {c : ClassName} {w : Text} {ps : List Piece} :
    (c, w) ∈ named ps ↔ ∃ b, name c w b ∈ ps := by
  simp only [named, List.mem_filterMap]
  constructor
  · rintro ⟨p, hp, hc⟩
    cases p with
    | fixed s => simp at hc
    | name d v b =>
      simp only [Option.some.injEq, Prod.mk.injEq] at hc
      obtain ⟨rfl, rfl⟩ := hc
      exact ⟨b, hp⟩
  · rintro ⟨b, h⟩
    exact ⟨name c w b, h, rfl⟩

def join (sep : Text) : List (List Piece) → List Piece
  | [] => []
  | [ps] => ps
  | ps :: qs :: rest => ps ++ fixed sep :: join sep (qs :: rest)

theorem textAll_join (sep : Text) (pss : List (List Piece)) :
    textAll (join sep pss) = Text.join sep (pss.map textAll) := by
  induction pss with
  | nil => rfl
  | cons ps rest ih =>
    cases rest with
    | nil => rfl
    | cons qs rest =>
      simp only [join, textAll_append, textAll_cons, ih, text, List.map_cons, Text.join,
        List.append_assoc]

theorem renamed_join (naming : Naming) (sep : Text) (pss : List (List Piece)) :
    (join sep pss).map (renamed naming) = join sep (pss.map (List.map (renamed naming))) := by
  induction pss with
  | nil => rfl
  | cons ps rest ih =>
    cases rest with
    | nil => rfl
    | cons qs rest =>
      simp only [join, List.map_append, List.map_cons, renamed, ih]

theorem named_join (sep : Text) (pss : List (List Piece)) :
    named (join sep pss) = pss.flatMap named := by
  induction pss with
  | nil => rfl
  | cons ps rest ih =>
    cases rest with
    | nil => simp [join]
    | cons qs rest =>
      simp only [join, named_append, named_fixed_cons, ih, List.flatMap_cons]

/-! ### Comments -/

/-- Whether text ends in a star, where `star` says it for no text at all. -/
def endsInStar (star : Bool) (s : Text) : Bool :=
  match s.getLast? with
  | some c => c == '*'
  | none => star

theorem endsInStar_cons (star : Bool) (c : Char) (s : Text) :
    endsInStar star (c :: s) = endsInStar (c == '*') s := by
  cases s with
  | nil => rfl
  | cons d s =>
    unfold endsInStar
    rw [List.getLast?_cons_cons]
    cases h : (d :: s).getLast? with
    | none => simp at h
    | some e => rfl

theorem endsInStar_append (star : Bool) (s t : Text) :
    endsInStar star (s ++ t) = endsInStar (endsInStar star s) t := by
  induction s generalizing star with
  | nil => rfl
  | cons c s ih => rw [List.cons_append, endsInStar_cons, endsInStar_cons, ih]

@[simp] theorem endsInStar_concat (star : Bool) (s : Text) (c : Char) :
    endsInStar star (s ++ [c]) = (c == '*') := by
  simp [endsInStar]

theorem endsInStar_of_ne_nil (star : Bool) {s : Text} (h : s ≠ []) :
    endsInStar star s = (s.getLast? == some '*') := by
  cases hl : s.getLast? with
  | none => exact absurd (List.getLast?_eq_none_iff.1 hl) h
  | some c => simp [endsInStar, hl]

theorem commentText_append (star : Bool) (s t : Text) :
    commentText star (s ++ t) = commentText star s ++ commentText (endsInStar star s) t := by
  induction s generalizing star with
  | nil => rfl
  | cons c s ih =>
    rw [List.cons_append, commentText, commentText, ih, endsInStar_cons, List.append_assoc]

theorem commentText_eq_self (star : Bool) {s : Text} (h : '/' ∉ s) : commentText star s = s := by
  induction s generalizing star with
  | nil => rfl
  | cons c s ih =>
    have hc : c ≠ '/' := fun hc => h (hc ▸ List.mem_cons_self ..)
    have hs : '/' ∉ s := fun hs => h (List.mem_cons_of_mem _ hs)
    rw [commentText, ih _ hs]
    simp [hc]

theorem commentText_eq_nil_iff {star : Bool} {s : Text} : commentText star s = [] ↔ s = [] := by
  cases s with
  | nil => simp [commentText]
  | cons c s =>
    rw [commentText]
    split <;> simp [harmlessSlash]

/-- Pieces without text name no class that was written in some text. -/
theorem named_eq_nil {ps : List Piece} (h : textAll ps = []) (hw : ∀ p ∈ named ps, p.2 ≠ []) :
    named ps = [] := by
  refine List.eq_nil_iff_forall_not_mem.2 fun p hp => ?_
  obtain ⟨b, hb⟩ := mem_named.1 hp
  have htext : (name p.1 p.2 b).text = [] := List.flatMap_eq_nil_iff.1 h _ hb
  cases b with
  | false => exact hw p hp htext
  | true => exact hw p hp (commentText_eq_nil_iff.1 htext)

def commentPieces : (star : Bool) → List Piece → List Piece
  | _, [] => []
  | star, fixed s :: ps => fixed (commentText star s) :: commentPieces (endsInStar star s) ps
  | star, name c w _ :: ps => name c w true :: commentPieces (endsInStar star w) ps

/-- No class name stands directly behind a star, and none is in a comment yet. -/
def NamesClear : (star : Bool) → List Piece → Prop
  | _, [] => True
  | star, fixed s :: ps => NamesClear (endsInStar star s) ps
  | star, name _ w inComment :: ps =>
    star = false ∧ inComment = false ∧ NamesClear (endsInStar star w) ps

theorem namesClear_fixed_cons (star : Bool) (s : Text) (ps : List Piece) :
    NamesClear star (fixed s :: ps) ↔ NamesClear (endsInStar star s) ps := Iff.rfl

theorem namesClear_name_cons (c : ClassName) (w : Text) (ps : List Piece) :
    NamesClear false (name c w false :: ps) ↔ NamesClear (endsInStar false w) ps := by
  simp only [NamesClear, true_and]

theorem textAll_commentPieces {star : Bool} {ps : List Piece} (h : NamesClear star ps) :
    textAll (commentPieces star ps) = commentText star (textAll ps) := by
  -- `star` is what the comment remembers of the text so far; in front of a name it is false, so
  -- that the name reads there as it would on its own
  induction ps generalizing star with
  | nil => rfl
  | cons p ps ih =>
    cases p with
    | fixed s =>
      simp only [commentPieces, textAll_cons, text]
      rw [ih h, commentText_append]
    | name c w b =>
      obtain ⟨hstar, hb, hps⟩ := h
      simp only [commentPieces, textAll_cons, text, hb]
      rw [ih hps, hstar]
      simp only [if_true, Bool.false_eq_true, if_false]
      rw [commentText_append]

theorem namesClear_append {star : Bool} {ps qs : List Piece} (h : NamesClear star ps) :
    NamesClear star (ps ++ qs) ↔ NamesClear (endsInStar star (textAll ps)) qs := by
  induction ps generalizing star with
  | nil => rfl
  | cons p ps ih =>
    cases p with
    | fixed s =>
      rw [textAll_cons, endsInStar_append]
      exact ih h
    | name c w b =>
      obtain ⟨hstar, hb, hps⟩ := h
      subst hstar hb
      rw [textAll_cons, endsInStar_append]
      simp only [List.cons_append, NamesClear, true_and, text, Bool.false_eq_true, if_false]
      exact ih hps

theorem namesClear_join {pss : List (List Piece)} (h : ∀ ps ∈ pss, NamesClear false ps) :
    NamesClear false (join [',', ' '] pss) := by
  induction pss with
  | nil => trivial
  | cons ps rest ih =>
    have hps := h ps (List.mem_cons_self ..)
    cases rest with
    | nil => exact hps
    | cons qs rest =>
      exact (namesClear_append hps).2 (ih fun rs hr => h rs (List.mem_cons_of_mem _ hr))

@[simp] theorem named_commentPieces (star : Bool) (ps : List Piece) :
    named (commentPieces star ps) = named ps := by
  induction ps generalizing star with
  | nil => rfl
  | cons p ps ih =>
    cases p with
    | fixed s => simp only [commentPieces, named_fixed_cons, ih]
    | name c w b => simp only [commentPieces, named_name_cons, ih]

end Piece

open Piece

/-! ### Writing operations in pieces -/

/-- A writing operation whose text is kept in pieces. -/
inductive PieceOp
  | text (ps : List Piece)
  | line (ps : List Piece)
  | blank

namespace PieceOp

def plain : PieceOp → WriteOp
  | text ps => .text (textAll ps)
  | line ps => .line (textAll ps)
  | blank => .blank

def fixed : WriteOp → PieceOp
  | .text s => text [.fixed s]
  | .line s => line [.fixed s]
  | .blank => blank

def content : PieceOp → List Piece
  | text ps => ps
  | line ps => ps
  | blank => []

def pieces : PieceOp → List Piece
  | text ps => ps
  | line ps => ps ++ [.fixed ['\n']]
  | blank => [.fixed ['\n']]

def namedAll (ops : List PieceOp) : List (ClassName × Text) := ops.flatMap fun op => named op.content

/-- An operation that may stand in a comment. -/
def Clear (op : PieceOp) : Prop := ∀ star, NamesClear star op.content

@[simp] theorem plain_fixed (op : WriteOp) : (fixed op).plain = op := by
  cases op <;> simp [fixed, plain]

@[simp] theorem plain_comp_fixed : plain ∘ fixed = id := funext plain_fixed

@[simp] theorem named_fixed (op : WriteOp) : named (fixed op).content = [] := by
  cases op <;> rfl

@[simp] theorem namedAll_nil : namedAll [] = [] := rfl

@[simp] theorem namedAll_cons (op : PieceOp) (ops : List PieceOp) :
    namedAll (op :: ops) = named op.content ++ namedAll ops := rfl

@[simp] theorem namedAll_append (ops more : List PieceOp) :
    namedAll (ops ++ more) = namedAll ops ++ namedAll more := by
  simp [namedAll]

@[simp] theorem namedAll_fixed (ops : List WriteOp) : namedAll (ops.map fixed) = [] := by
  simp [namedAll]

theorem textAll_pieces (op : PieceOp) : textAll op.pieces = op.plain.render := by
  cases op <;> simp [pieces, plain, WriteOp.render]

theorem textAll_flatMap_pieces (ops : List PieceOp) :
    textAll (ops.flatMap pieces) = WriteOp.renderAll (ops.map plain) := by
  induction ops with
  | nil => rfl
  | cons op ops ih => simp [textAll_pieces, ih]

theorem named_flatMap_pieces (ops : List PieceOp) :
    named (ops.flatMap pieces) = namedAll ops := by
  induction ops with
  | nil => rfl
  | cons op ops ih => cases op <;> simp [pieces, content, ih]

end PieceOp

open PieceOp

/-! ### Layers -/

namespace Layer

def commentLinePieces (p : CommentPosition) (ps : List Piece) : List PieceOp :=
  if p = .lineStart ∧ textAll ps = [] then [.fixed (.line " *".toList)]
  else p.lead.map PieceOp.fixed ++ [.line (commentPieces p.afterStar ps)]

/-- What a layer makes of one operation in pieces. -/
def stepPieces : Layer → PieceOp → Layer × List PieceOp
  | indent unit start, .text ps =>
    if (textAll ps).isEmpty then (indent unit start, [])
    else (indent unit false, (lead unit start).map PieceOp.fixed ++ [.text ps])
  | indent unit start, .line ps =>
    (indent unit true, (lead unit start).map PieceOp.fixed ++ [.line ps])
  | indent unit start, .blank => (indent unit true, if start then [.blank] else [.line []])
  | comment p, .text ps =>
    if (textAll ps).isEmpty then (comment p, [])
    else (comment (.inLine ((textAll ps).getLast? == some '*')),
      p.lead.map PieceOp.fixed ++ [.text (commentPieces p.afterStar ps)])
  | comment p, .line ps => (comment .lineStart, commentLinePieces p ps)
  | comment p, .blank => (comment .lineStart, commentLinePieces p [])

def runPieces : Layer → List PieceOp → Layer × List PieceOp
  | l, [] => (l, [])
  | l, op :: ops =>
    let p := l.stepPieces op
    let r := runPieces p.1 ops
    (r.1, p.2 ++ r.2)

/-- Whether the operation may pass through the layer: only comments mind. -/
def Passes (l : Layer) (op : PieceOp) : Prop :=
  match l with
  | indent _ _ => True
  | comment _ => op.Clear

theorem plain_commentLinePieces (p : CommentPosition) {ps : List Piece}
    (h : ∀ star, NamesClear star ps) :
    (commentLinePieces p ps).map plain = step.commentLine p (textAll ps) := by
  unfold commentLinePieces step.commentLine
  split
  · rfl
  · simp [plain, textAll_commentPieces (h p.afterStar)]

/-- Without the pieces a step is the step of the layer. -/
theorem plain_stepPieces {l : Layer} {op : PieceOp} (h : l.Passes op) :
    ((l.stepPieces op).1, (l.stepPieces op).2.map plain) = l.step op.plain := by
  cases l with
  | indent unit start =>
    cases op with
    | text ps =>
      simp only [stepPieces, plain, step]
      split
      · rfl
      · simp [plain]
    | line ps => simp [stepPieces, plain, step]
    | blank => cases start <;> rfl
  | comment p =>
    have hc : op.Clear := h
    cases op with
    | text ps =>
      have htext := textAll_commentPieces (hc p.afterStar)
      simp only [content] at htext
      simp only [stepPieces, plain, step]
      split
      · rfl
      · simp [plain, htext]
    | line ps =>
      have hline := plain_commentLinePieces p hc
      simp only [content] at hline
      simp [stepPieces, plain, step, hline]
    | blank =>
      have hline := plain_commentLinePieces p hc
      simp only [content, textAll_nil] at hline
      simp [stepPieces, plain, step, hline]

theorem passes_stepPieces {l : Layer} {other : PieceOp} (op : PieceOp) (h : l.Passes other) :
    (l.stepPieces op).1.Passes other := by
  cases l <;> cases op <;> try exact h
  all_goals
    simp only [stepPieces]
    split
    · exact h
    · exact h

/-- Without the pieces a run is the run of the layer. -/
theorem plain_runPieces {l : Layer} {ops : List PieceOp} (h : ∀ op ∈ ops, l.Passes op) :
    ((l.runPieces ops).1, (l.runPieces ops).2.map plain) = l.run (ops.map plain) := by
  induction ops generalizing l with
  | nil => rfl
  | cons op ops ih =>
    have hstep := plain_stepPieces (h op (List.mem_cons_self ..))
    have hrun := ih fun other hm => passes_stepPieces op (h other (List.mem_cons_of_mem _ hm))
    simp only [runPieces, List.map_cons, run, List.map_append, ← hstep, ← hrun]

theorem named_commentLinePieces (p : CommentPosition) (ps : List Piece) :
    namedAll (commentLinePieces p ps) = named ps ∨
      namedAll (commentLinePieces p ps) = [] ∧ textAll ps = [] := by
  unfold commentLinePieces
  split
  · next h => exact Or.inr ⟨by simp, h.2⟩
  · exact Or.inl (by simp [content])

/-- A layer passes the classes of an operation on or drops an operation without text. -/
theorem named_stepPieces (l : Layer) (op : PieceOp) :
    namedAll (l.stepPieces op).2 = named op.content ∨
      namedAll (l.stepPieces op).2 = [] ∧ textAll op.content = [] := by
  cases l with
  | indent unit start =>
    cases op with
    | text ps =>
      simp only [stepPieces]
      split
      · next h => exact Or.inr ⟨rfl, List.isEmpty_iff.1 h⟩
      · exact Or.inl (by simp [content])
    | line ps => exact Or.inl (by simp [stepPieces, content])
    | blank => cases start <;> exact Or.inl rfl
  | comment p =>
    cases op with
    | text ps =>
      simp only [stepPieces]
      split
      · next h => exact Or.inr ⟨rfl, List.isEmpty_iff.1 h⟩
      · exact Or.inl (by simp [content])
    | line ps => exact named_commentLinePieces p ps
    | blank => exact named_commentLinePieces p []

/-- Layers name no class that was not named to them. -/
theorem named_runPieces_subset (l : Layer) (ops : List PieceOp) :
    namedAll (l.runPieces ops).2 ⊆ namedAll ops := by
  induction ops generalizing l with
  | nil => simp [runPieces]
  | cons op ops ih =>
    have hstep : namedAll (l.stepPieces op).2 ⊆ named op.content := by
      rcases named_stepPieces l op with h | h
      · simp [h]
      · simp [h.1]
    simp only [runPieces, namedAll_append, namedAll_cons]
    intro x hx
    rcases List.mem_append.1 hx with hx | hx
    · exact List.mem_append_left _ (hstep hx)
    · exact List.mem_append_right _ (ih _ hx)

/-- Layers lose no class that is named in some text. -/
theorem named_runPieces (l : Layer) {ops : List PieceOp} (h : ∀ p ∈ namedAll ops, p.2 ≠ []) :
    namedAll (l.runPieces ops).2 = namedAll ops := by
  induction ops generalizing l with
  | nil => rfl
  | cons op ops ih =>
    rw [namedAll_cons] at h
    have hop : ∀ p ∈ named op.content, p.2 ≠ [] := fun p hp => h p (List.mem_append_left _ hp)
    have hstep : namedAll (l.stepPieces op).2 = named op.content := by
      rcases named_stepPieces l op with hs | hs
      · exact hs
      · rw [hs.1, named_eq_nil hs.2 hop]
    have hrest := ih (l.stepPieces op).1 fun p hp => h p (List.mem_append_right _ hp)
    simp only [runPieces, namedAll_append, namedAll_cons, hstep, hrest]

end Layer

end JavaSource
