import JavaSource.Layout.Basic
import JavaSource.Proofs.Pieces

/-!
# Layouts piece by piece

A layout whose text is kept in pieces, as a tree of the same shape. It is written through the
layers of its scopes like the plain layout, and names in the file the classes that it names in its
tree, as long as no class is written by an empty text.
-/

namespace JavaSource

open Piece PieceOp

/-- A layout whose text is kept in pieces. -/
inductive PieceLayout
  | text (ps : List Piece)
  | line (ps : List Piece)
  | blank
  | indented (body : List PieceLayout)
  | comment (body : List PieceLayout)

namespace PieceLayout

mutual

def plain : PieceLayout → Layout
  | text ps => .text (textAll ps)
  | line ps => .line (textAll ps)
  | blank => .blank
  | indented body => .indented (plainAll body)
  | comment body => .comment (plainAll body)

def plainAll : List PieceLayout → List Layout
  | [] => []
  | l :: ls => l.plain :: plainAll ls

end

mutual

def ops (unit : Text) : PieceLayout → List PieceOp
  | text ps => [.text ps]
  | line ps => [.line ps]
  | blank => [.blank]
  | indented body => ((Layer.indent unit true).runPieces (opsAll unit body)).2
  | comment body =>
    let r := (Layer.comment .lineStart).runPieces (opsAll unit body)
    Layer.opening.map PieceOp.fixed ++ r.2 ++ r.1.closing.map PieceOp.fixed

def opsAll (unit : Text) : List PieceLayout → List PieceOp
  | [] => []
  | l :: ls => l.ops unit ++ opsAll unit ls

end

mutual

/-- The classes that a layout names, in order, each with the way it is written. -/
def names : PieceLayout → List (ClassName × Text)
  | text ps => named ps
  | line ps => named ps
  | blank => []
  | indented body => namesAll body
  | comment body => namesAll body

def namesAll : List PieceLayout → List (ClassName × Text)
  | [] => []
  | l :: ls => l.names ++ namesAll ls

end

mutual

/-- The same layout where another naming writes the classes. -/
def renamed (naming : Naming) : PieceLayout → PieceLayout
  | text ps => text (ps.map (Piece.renamed naming))
  | line ps => line (ps.map (Piece.renamed naming))
  | blank => blank
  | indented body => indented (renamedAll naming body)
  | comment body => comment (renamedAll naming body)

def renamedAll (naming : Naming) : List PieceLayout → List PieceLayout
  | [] => []
  | l :: ls => l.renamed naming :: renamedAll naming ls

end

/-- A layout that may stand in a comment: a row of text in which no class name stands behind a
star. -/
def Flat : PieceLayout → Prop
  | text ps => ∀ star, NamesClear star ps
  | line ps => ∀ star, NamesClear star ps
  | blank => True
  | indented _ => False
  | comment _ => False

mutual

/-- All comments of a layout are flat. -/
def Tidy : PieceLayout → Prop
  | text _ => True
  | line _ => True
  | blank => True
  | indented body => TidyAll body
  | comment body => ∀ l ∈ body, l.Flat

def TidyAll : List PieceLayout → Prop
  | [] => True
  | l :: ls => l.Tidy ∧ TidyAll ls

end

theorem plainAll_eq (ls : List PieceLayout) : plainAll ls = ls.map plain := by
  induction ls with
  | nil => rfl
  | cons l ls ih => simp [plainAll, ih]

@[simp] theorem plainAll_append (ls ms : List PieceLayout) :
    plainAll (ls ++ ms) = plainAll ls ++ plainAll ms := by
  simp [plainAll_eq]

theorem namesAll_eq (ls : List PieceLayout) : namesAll ls = ls.flatMap names := by
  induction ls with
  | nil => rfl
  | cons l ls ih => simp [namesAll, ih]

@[simp] theorem namesAll_append (ls ms : List PieceLayout) :
    namesAll (ls ++ ms) = namesAll ls ++ namesAll ms := by
  simp [namesAll_eq]

theorem renamedAll_eq (naming : Naming) (ls : List PieceLayout) :
    renamedAll naming ls = ls.map (renamed naming) := by
  induction ls with
  | nil => rfl
  | cons l ls ih => simp [renamedAll, ih]

@[simp] theorem renamedAll_append (naming : Naming) (ls ms : List PieceLayout) :
    renamedAll naming (ls ++ ms) = renamedAll naming ls ++ renamedAll naming ms := by
  simp [renamedAll_eq]

theorem tidyAll_iff (ls : List PieceLayout) : TidyAll ls ↔ ∀ l ∈ ls, l.Tidy := by
  induction ls with
  | nil => simp [TidyAll]
  | cons l ls ih => simp [TidyAll, ih]

@[simp] theorem tidyAll_append (ls ms : List PieceLayout) :
    TidyAll (ls ++ ms) ↔ TidyAll ls ∧ TidyAll ms := by
  simp only [tidyAll_iff, List.mem_append, or_imp, forall_and]

theorem tidy_of_flat {l : PieceLayout} (h : l.Flat) : l.Tidy := by
  cases l with
  | text ps => trivial
  | line ps => trivial
  | blank => trivial
  | indented body => exact h.elim
  | comment body => exact h.elim

theorem clear_of_flat (unit : Text) {ls : List PieceLayout} (h : ∀ l ∈ ls, l.Flat) :
    ∀ op ∈ opsAll unit ls, op.Clear := by
  induction ls with
  | nil => simp [opsAll]
  | cons l ls ih =>
    have hl := h l (List.mem_cons_self ..)
    have hls := ih fun m hm => h m (List.mem_cons_of_mem _ hm)
    intro op hop
    rcases List.mem_append.1 hop with hop | hop
    · cases l with
      | text ps => rw [List.mem_singleton.1 hop]; exact hl
      | line ps => rw [List.mem_singleton.1 hop]; exact hl
      | blank => rw [List.mem_singleton.1 hop]; exact fun _ => trivial
      | indented body => exact hl.elim
      | comment body => exact hl.elim
    · exact hls op hop

mutual

/-- Without the pieces the operations of a layout are those of the plain layout. -/
theorem plain_ops (unit : Text) :
    (l : PieceLayout) → l.Tidy → (l.ops unit).map PieceOp.plain = l.plain.ops unit
  | text _, _ => rfl
  | line _, _ => rfl
  | blank, _ => rfl
  | indented body, h => by
    have hbody := plain_opsAll unit body h
    have hpass : ∀ op ∈ opsAll unit body, (Layer.indent unit true).Passes op :=
      fun _ _ => trivial
    have hrun := Layer.plain_runPieces hpass
    simp only [ops, plain, Layout.ops, ← hbody, ← hrun]
  | comment body, h => by
    -- the body is read twice: as tidy layouts for its own operations, as flat ones for the comment
    have htidy : TidyAll body := (tidyAll_iff body).2 fun l hl => tidy_of_flat (h l hl)
    have hbody := plain_opsAll unit body htidy
    have hpass : ∀ op ∈ opsAll unit body, (Layer.comment .lineStart).Passes op :=
      clear_of_flat unit h
    have hrun := Layer.plain_runPieces hpass
    simp only [ops, plain, Layout.ops, ← hbody, ← hrun]
    simp

theorem plain_opsAll (unit : Text) :
    (ls : List PieceLayout) → TidyAll ls →
      (opsAll unit ls).map PieceOp.plain = Layout.opsAll unit (plainAll ls)
  | [], _ => rfl
  | l :: ls, h => by
    simp only [opsAll, plainAll, Layout.opsAll, List.map_append]
    rw [plain_ops unit l h.1, plain_opsAll unit ls h.2]

end

mutual

/-- A layout names no class in a file but those of its text. -/
theorem namedAll_ops_subset (unit : Text) :
    (l : PieceLayout) → namedAll (l.ops unit) ⊆ l.names
  | text ps => by simp [ops, names, content]
  | line ps => by simp [ops, names, content]
  | blank => by simp [ops, names, content]
  | indented body => fun _ hp =>
    namedAll_opsAll_subset unit body (Layer.named_runPieces_subset _ _ hp)
  | comment body => fun p hp => by
    simp only [ops, namedAll_append, namedAll_fixed, List.nil_append, List.append_nil] at hp
    exact namedAll_opsAll_subset unit body (Layer.named_runPieces_subset _ _ hp)

theorem namedAll_opsAll_subset (unit : Text) :
    (ls : List PieceLayout) → namedAll (opsAll unit ls) ⊆ namesAll ls
  | [] => by simp [opsAll]
  | l :: ls => fun p hp => by
    rw [opsAll, namedAll_append] at hp
    rcases List.mem_append.1 hp with hp | hp
    · exact List.mem_append_left _ (namedAll_ops_subset unit l hp)
    · exact List.mem_append_right _ (namedAll_opsAll_subset unit ls hp)

end

mutual

/-- A layout names all classes of its text in a file if each is written in some text. -/
theorem namedAll_ops (unit : Text) :
    (l : PieceLayout) → (∀ p ∈ l.names, p.2 ≠ []) → namedAll (l.ops unit) = l.names
  | text ps, _ => by simp [ops, names, content]
  | line ps, _ => by simp [ops, names, content]
  | blank, _ => by simp [ops, names, content]
  | indented body, h => by
    have hbody := namedAll_opsAll unit body h
    simp only [ops, names]
    rw [Layer.named_runPieces _ (by rw [hbody]; exact h), hbody]
  | comment body, h => by
    have hbody := namedAll_opsAll unit body h
    simp only [ops, names, namedAll_append, namedAll_fixed, List.nil_append, List.append_nil]
    rw [Layer.named_runPieces _ (by rw [hbody]; exact h), hbody]

theorem namedAll_opsAll (unit : Text) :
    (ls : List PieceLayout) → (∀ p ∈ namesAll ls, p.2 ≠ []) →
      namedAll (opsAll unit ls) = namesAll ls
  | [], _ => rfl
  | l :: ls, h => by
    rw [namesAll] at h
    rw [opsAll, namesAll, namedAll_append,
      namedAll_ops unit l fun p hp => h p (List.mem_append_left _ hp),
      namedAll_opsAll unit ls fun p hp => h p (List.mem_append_right _ hp)]

end

def pieces (indent : Indent) (ls : List PieceLayout) : List Piece :=
  (opsAll indent.unit ls).flatMap PieceOp.pieces

/-- The pieces of a file make up its text. -/
theorem textAll_pieces (indent : Indent) {ls : List PieceLayout} (h : TidyAll ls) :
    textAll (pieces indent ls) = Layout.render indent (plainAll ls) := by
  unfold pieces Layout.render
  rw [textAll_flatMap_pieces, plain_opsAll indent.unit ls h]

theorem named_pieces_subset (indent : Indent) (ls : List PieceLayout) :
    named (pieces indent ls) ⊆ namesAll ls := by
  unfold pieces
  rw [named_flatMap_pieces]
  exact namedAll_opsAll_subset indent.unit ls

theorem named_pieces (indent : Indent) {ls : List PieceLayout}
    (h : ∀ p ∈ namesAll ls, p.2 ≠ []) : named (pieces indent ls) = namesAll ls := by
  unfold pieces
  rw [named_flatMap_pieces, namedAll_opsAll indent.unit ls h]

def ofText (s : Text) : List PieceLayout := go (Text.split '\n' s)
where
  go : List Text → List PieceLayout
    | [] => []
    | [last] => if last.isEmpty then [] else [text [.fixed last]]
    | l :: m :: rest => line [.fixed (Text.dropReturn l)] :: go (m :: rest)

theorem plainAll_ofText (s : Text) : plainAll (ofText s) = Layout.ofText s := by
  have key : ∀ ws, plainAll (ofText.go ws) = Layout.ofText.go ws := by
    intro ws
    induction ws with
    | nil => rfl
    | cons w ws ih =>
      cases ws with
      | nil =>
        simp only [ofText.go, Layout.ofText.go]
        split
        · rfl
        · simp [plainAll, plain]
      | cons v ws => simp [ofText.go, Layout.ofText.go, plainAll, plain, ih]
  exact key _

theorem mem_ofText {s : Text} {l : PieceLayout} (h : l ∈ ofText s) :
    ∃ t, l = text [.fixed t] ∨ l = line [.fixed t] := by
  have key : ∀ ws, l ∈ ofText.go ws → ∃ t, l = text [.fixed t] ∨ l = line [.fixed t] := by
    intro ws
    induction ws with
    | nil => simp [ofText.go]
    | cons w ws ih =>
      cases ws with
      | nil =>
        simp only [ofText.go]
        split
        · simp
        · intro hl
          exact ⟨w, Or.inl (List.mem_singleton.1 hl)⟩
      | cons v ws =>
        intro hl
        rcases List.mem_cons.1 hl with hl | hl
        · exact ⟨_, Or.inr hl⟩
        · exact ih hl
  exact key _ h

@[simp] theorem namesAll_ofText (s : Text) : namesAll (ofText s) = [] := by
  rw [namesAll_eq, List.flatMap_eq_nil_iff]
  intro l hl
  obtain ⟨t, rfl | rfl⟩ := mem_ofText hl
  · rfl
  · rfl

@[simp] theorem renamedAll_ofText (naming : Naming) (s : Text) :
    renamedAll naming (ofText s) = ofText s := by
  have hsame : ∀ l ∈ ofText s, l.renamed naming = id l := by
    intro l hl
    obtain ⟨t, rfl | rfl⟩ := mem_ofText hl
    · rfl
    · rfl
  rw [renamedAll_eq, List.map_congr_left hsame, List.map_id]

theorem flat_ofText {s : Text} {l : PieceLayout} (h : l ∈ ofText s) : l.Flat := by
  obtain ⟨t, rfl | rfl⟩ := mem_ofText h
  · exact fun _ => trivial
  · exact fun _ => trivial

theorem tidyAll_ofText (s : Text) : TidyAll (ofText s) :=
  (tidyAll_iff _).2 fun _ hl => tidy_of_flat (flat_ofText hl)

end PieceLayout

end JavaSource
