import JavaSource.Code
import JavaSource.Doc
import JavaSource.Proofs.PieceLayout

/-!
# The classes that types, comments and code write

Types, documentation comments and code are written in pieces, in which a naming writes the classes
and everything else is fixed text. The pieces make up the text, and the classes that they name are
those that the type, comment or code mentions, in the same order.
-/

namespace JavaSource

open Piece PieceLayout

/-- Classes, each with what a naming writes for it. -/
def asWritten (naming : Naming) (cs : List ClassName) : List (ClassName × Text) :=
  cs.map fun c => (c, naming c)

@[simp] theorem asWritten_nil (naming : Naming) : asWritten naming [] = [] := rfl

@[simp] theorem asWritten_cons (naming : Naming) (c : ClassName) (cs : List ClassName) :
    asWritten naming (c :: cs) = (c, naming c) :: asWritten naming cs := rfl

@[simp] theorem asWritten_append (naming : Naming) (cs ds : List ClassName) :
    asWritten naming (cs ++ ds) = asWritten naming cs ++ asWritten naming ds := by
  simp [asWritten]

theorem asWritten_flatMap {α : Type} (naming : Naming) (f : α → List ClassName) (l : List α) :
    asWritten naming (l.flatMap f) = l.flatMap fun a => asWritten naming (f a) := by
  simp [asWritten, List.map_flatMap]

theorem mem_asWritten {naming : Naming} {cs : List ClassName} {p : ClassName × Text} :
    p ∈ asWritten naming cs ↔ p.1 ∈ cs ∧ p.2 = naming p.1 := by
  simp only [asWritten, List.mem_map]
  constructor
  · rintro ⟨c, hc, rfl⟩
    exact ⟨hc, rfl⟩
  · rintro ⟨hc, hw⟩
    exact ⟨p.1, hc, Prod.ext rfl hw.symm⟩

/-! ### Types -/

namespace JavaType

mutual

def pieces (naming : Naming) : JavaType → List Piece
  | primitive p => [.fixed p.keyword]
  | named c => [.name c (naming c) false]
  | array t => t.pieces naming ++ [.fixed ['[', ']']]
  | generic base args =>
    .name base (naming base) false ::
      if args.isEmpty then [] else .fixed ['<'] :: piecesOfArgs naming args ++ [.fixed ['>']]

def piecesOfArgs (naming : Naming) : List JavaType → List Piece
  | [] => []
  | [t] => t.pieces naming
  | t :: u :: rest => t.pieces naming ++ .fixed [',', ' '] :: piecesOfArgs naming (u :: rest)

end

mutual

@[simp] theorem textAll_pieces (naming : Naming) :
    (t : JavaType) → textAll (t.pieces naming) = t.text naming
  | primitive p => by simp [pieces, text]
  | named c => by simp [pieces, text]
  | array t => by
    simp only [pieces, text, textAll_append, textAll_pieces naming t]
    rfl
  | generic base args => by
    simp only [pieces, text, textAll_cons]
    cases args with
    | nil => rfl
    | cons t ts => simp [textAll_piecesOfArgs naming (t :: ts)]

theorem textAll_piecesOfArgs (naming : Naming) :
    (ts : List JavaType) → textAll (piecesOfArgs naming ts) = textOfArgs naming ts
  | [] => rfl
  | [t] => by
    simp only [piecesOfArgs, textOfArgs]
    exact textAll_pieces naming t
  | t :: u :: rest => by
    simp [piecesOfArgs, textOfArgs, textAll_pieces naming t,
      textAll_piecesOfArgs naming (u :: rest)]

end

mutual

/-- The pieces of a type name the classes that the type mentions. -/
@[simp] theorem named_pieces (naming : Naming) :
    (t : JavaType) → Piece.named (t.pieces naming) = asWritten naming t.classNames
  | primitive p => rfl
  | named c => rfl
  | array t => by
    simp only [pieces, classNames, named_append, named_pieces naming t]
    simp
  | generic base args => by
    simp only [pieces, classNames, named_name_cons, asWritten_cons]
    cases args with
    | nil => rfl
    | cons t ts => simp [named_piecesOfArgs naming (t :: ts)]

theorem named_piecesOfArgs (naming : Naming) :
    (ts : List JavaType) →
      Piece.named (piecesOfArgs naming ts) = asWritten naming (classNamesOfArgs ts)
  | [] => rfl
  | [t] => by
    simp only [piecesOfArgs, classNamesOfArgs, List.append_nil]
    exact named_pieces naming t
  | t :: u :: rest => by
    rw [piecesOfArgs, classNamesOfArgs, named_append, named_fixed_cons, asWritten_append,
      named_pieces naming t, named_piecesOfArgs naming (u :: rest)]

end

mutual

@[simp] theorem renamed_pieces (f g : Naming) :
    (t : JavaType) → (t.pieces f).map (Piece.renamed g) = t.pieces g
  | primitive p => rfl
  | named c => rfl
  | array t => by
    simp only [pieces, List.map_append, renamed_pieces f g t]
    rfl
  | generic base args => by
    simp only [pieces, List.map_cons, Piece.renamed]
    cases args with
    | nil => rfl
    | cons t ts => simp [Piece.renamed, renamed_piecesOfArgs f g (t :: ts)]

theorem renamed_piecesOfArgs (f g : Naming) :
    (ts : List JavaType) → (piecesOfArgs f ts).map (Piece.renamed g) = piecesOfArgs g ts
  | [] => rfl
  | [t] => by
    simp only [piecesOfArgs]
    exact renamed_pieces f g t
  | t :: u :: rest => by
    rw [piecesOfArgs, piecesOfArgs, List.map_append, List.map_cons, renamed_pieces f g t,
      renamed_piecesOfArgs f g (u :: rest)]
    rfl

end

mutual

theorem namesClear_pieces (naming : Naming) :
    (t : JavaType) → NamesClear false (t.pieces naming)
  | primitive p => trivial
  | named c => ⟨rfl, rfl, trivial⟩
  | array t => (namesClear_append (namesClear_pieces naming t)).2 trivial
  | generic base args => by
    simp only [pieces]
    refine ⟨rfl, rfl, ?_⟩
    split
    · trivial
    · exact (namesClear_append (namesClear_piecesOfArgs naming args)).2 trivial

theorem namesClear_piecesOfArgs (naming : Naming) :
    (ts : List JavaType) → NamesClear false (piecesOfArgs naming ts)
  | [] => trivial
  | [t] => by
    simp only [piecesOfArgs]
    exact namesClear_pieces naming t
  | t :: u :: rest =>
    (namesClear_append (namesClear_pieces naming t)).2 (namesClear_piecesOfArgs naming (u :: rest))

end

def piecesOfList (naming : Naming) (ts : List JavaType) : List Piece :=
  join [',', ' '] (ts.map (pieces naming))

@[simp] theorem textAll_piecesOfList (naming : Naming) (ts : List JavaType) :
    textAll (piecesOfList naming ts) = Text.join [',', ' '] (ts.map (text naming)) := by
  simp [piecesOfList, textAll_join, Function.comp_def]

@[simp] theorem named_piecesOfList (naming : Naming) (ts : List JavaType) :
    Piece.named (piecesOfList naming ts) = asWritten naming (ts.flatMap classNames) := by
  simp [piecesOfList, named_join, List.flatMap_map, asWritten_flatMap]

@[simp] theorem renamed_piecesOfList (f g : Naming) (ts : List JavaType) :
    (piecesOfList f ts).map (Piece.renamed g) = piecesOfList g ts := by
  simp [piecesOfList, renamed_join, Function.comp_def]

theorem namesClear_piecesOfList (naming : Naming) (ts : List JavaType) :
    NamesClear false (piecesOfList naming ts) := by
  refine namesClear_join fun ps hps => ?_
  obtain ⟨t, -, rfl⟩ := List.mem_map.1 hps
  exact namesClear_pieces naming t

end JavaType

/-! ### Documentation -/

def MemberRef.pieces (naming : Naming) (m : MemberRef) : List Piece :=
  .name m.owner (naming m.owner) false :: .fixed ('#' :: m.name ++ ['(']) ::
    JavaType.piecesOfList naming m.args ++ [.fixed [')']]

@[simp] theorem MemberRef.textAll_pieces (naming : Naming) (m : MemberRef) :
    textAll (m.pieces naming) = m.text naming := by
  simp [MemberRef.pieces, MemberRef.text]

@[simp] theorem MemberRef.named_pieces (naming : Naming) (m : MemberRef) :
    Piece.named (m.pieces naming) = asWritten naming m.classNames := by
  simp [MemberRef.pieces, MemberRef.classNames]

@[simp] theorem MemberRef.renamed_pieces (f g : Naming) (m : MemberRef) :
    (m.pieces f).map (Piece.renamed g) = m.pieces g := by
  simp [MemberRef.pieces, Piece.renamed]

theorem MemberRef.namesClear_pieces (naming : Naming) (m : MemberRef) :
    NamesClear false (m.pieces naming) := by
  have hargs := JavaType.namesClear_piecesOfList naming m.args
  rw [MemberRef.pieces, List.cons_append, List.cons_append, namesClear_name_cons,
    namesClear_fixed_cons, endsInStar_concat]
  exact (namesClear_append hargs).2 trivial

namespace DocFragment

def linkPieces (target : List Piece) : List Piece :=
  .fixed "\x7b@link ".toList :: target ++ [.fixed ['}']]

def pieceLayout (naming : Naming) : DocFragment → List PieceLayout
  | text s => PieceLayout.ofText s
  | typeLink t => [.text (linkPieces (t.pieces naming))]
  | memberLink m => [.text (linkPieces (m.pieces naming))]

theorem textAll_linkPieces (target : List Piece) :
    textAll (linkPieces target) = linkTo (textAll target) := by
  unfold linkPieces linkTo
  rw [List.cons_append, textAll_cons, textAll_append, text_fixed, List.append_assoc]
  rfl

/-- The brace in front of a link keeps its classes clear of any star. -/
theorem namesClear_linkPieces {target : List Piece} (h : NamesClear false target) (star : Bool) :
    NamesClear star (linkPieces target) := by
  have hopen : endsInStar star "\x7b@link ".toList = false := rfl
  rw [linkPieces, List.cons_append, namesClear_fixed_cons, hopen]
  exact (namesClear_append h).2 trivial

theorem plainAll_pieceLayout (naming : Naming) (f : DocFragment) :
    plainAll (f.pieceLayout naming) = f.layout naming := by
  cases f with
  | text s => exact plainAll_ofText s
  | typeLink t => simp [pieceLayout, layout, plainAll, plain, textAll_linkPieces]
  | memberLink m => simp [pieceLayout, layout, plainAll, plain, textAll_linkPieces]

theorem namesAll_pieceLayout (naming : Naming) (f : DocFragment) :
    namesAll (f.pieceLayout naming) = asWritten naming f.classNames := by
  cases f with
  | text s => exact namesAll_ofText s
  | typeLink t => simp [pieceLayout, classNames, namesAll, names, linkPieces]
  | memberLink m => simp [pieceLayout, classNames, namesAll, names, linkPieces]

theorem renamedAll_pieceLayout (f g : Naming) (fragment : DocFragment) :
    renamedAll g (fragment.pieceLayout f) = fragment.pieceLayout g := by
  cases fragment with
  | text s => exact renamedAll_ofText g s
  | typeLink t => simp [pieceLayout, renamedAll, PieceLayout.renamed, linkPieces, Piece.renamed]
  | memberLink m => simp [pieceLayout, renamedAll, PieceLayout.renamed, linkPieces, Piece.renamed]

theorem flat_pieceLayout (naming : Naming) (f : DocFragment) :
    ∀ l ∈ f.pieceLayout naming, l.Flat := by
  intro l hl
  cases f with
  | text s => exact flat_ofText hl
  | typeLink t =>
    rw [List.mem_singleton.1 hl]
    exact namesClear_linkPieces (JavaType.namesClear_pieces naming t)
  | memberLink m =>
    rw [List.mem_singleton.1 hl]
    exact namesClear_linkPieces (MemberRef.namesClear_pieces naming m)

end DocFragment

namespace Doc

def pieceLayout (naming : Naming) (doc : Doc) : List PieceLayout :=
  if doc.isEmpty then [] else [.comment (doc.flatMap (DocFragment.pieceLayout naming))]

@[simp] theorem plainAll_pieceLayout (naming : Naming) (doc : Doc) :
    plainAll (pieceLayout naming doc) = layout naming doc := by
  have hbody : plainAll (doc.flatMap (DocFragment.pieceLayout naming)) =
      doc.flatMap (DocFragment.layout naming) := by
    rw [plainAll_eq, List.map_flatMap]
    simp only [← plainAll_eq, DocFragment.plainAll_pieceLayout]
  unfold pieceLayout layout
  split
  · rfl
  · simp [plainAll, plain, hbody]

@[simp] theorem namesAll_pieceLayout (naming : Naming) (doc : Doc) :
    namesAll (pieceLayout naming doc) = asWritten naming (classNames doc) := by
  have hbody : namesAll (doc.flatMap (DocFragment.pieceLayout naming)) =
      asWritten naming (classNames doc) := by
    rw [namesAll_eq, List.flatMap_assoc, classNames, asWritten_flatMap]
    simp only [← namesAll_eq, DocFragment.namesAll_pieceLayout]
  unfold pieceLayout
  split
  · next h => rw [List.isEmpty_iff.1 h]; rfl
  · simp [namesAll, names, hbody]

@[simp] theorem renamedAll_pieceLayout (f g : Naming) (doc : Doc) :
    renamedAll g (pieceLayout f doc) = pieceLayout g doc := by
  have hbody : renamedAll g (doc.flatMap (DocFragment.pieceLayout f)) =
      doc.flatMap (DocFragment.pieceLayout g) := by
    rw [renamedAll_eq, List.map_flatMap]
    simp only [← renamedAll_eq, DocFragment.renamedAll_pieceLayout]
  unfold pieceLayout
  split
  · rfl
  · simp [renamedAll, PieceLayout.renamed, hbody]

theorem tidyAll_pieceLayout (naming : Naming) (doc : Doc) : TidyAll (pieceLayout naming doc) := by
  unfold pieceLayout
  split
  · trivial
  · refine ⟨fun l hl => ?_, trivial⟩
    obtain ⟨f, -, hf⟩ := List.mem_flatMap.1 hl
    exact f.flat_pieceLayout naming l hf

end Doc

/-! ### Code -/

namespace Code

mutual

def pieceLayoutOfFragment (naming : Naming) : CodeFragment → List PieceLayout
  | .text s => PieceLayout.ofText s
  | .type t => [.text (t.pieces naming)]
  | .indented body => [.indented (pieceLayout naming body)]

def pieceLayout (naming : Naming) : List CodeFragment → List PieceLayout
  | [] => []
  | f :: fs => pieceLayoutOfFragment naming f ++ pieceLayout naming fs

end

mutual

theorem plainAll_pieceLayoutOfFragment (naming : Naming) :
    (f : CodeFragment) → plainAll (pieceLayoutOfFragment naming f) = layoutOfFragment naming f
  | .text s => plainAll_ofText s
  | .type t => by
    simp only [pieceLayoutOfFragment, layoutOfFragment, plainAll, plain, JavaType.textAll_pieces]
  | .indented body => by
    simp only [pieceLayoutOfFragment, layoutOfFragment, plainAll, plain,
      plainAll_pieceLayout naming body]

@[simp] theorem plainAll_pieceLayout (naming : Naming) :
    (code : List CodeFragment) → plainAll (pieceLayout naming code) = layout naming code
  | [] => rfl
  | f :: fs => by
    rw [pieceLayout, layout, plainAll_append, plainAll_pieceLayoutOfFragment naming f,
      plainAll_pieceLayout naming fs]

end

mutual

theorem namesAll_pieceLayoutOfFragment (naming : Naming) :
    (f : CodeFragment) →
      namesAll (pieceLayoutOfFragment naming f) = asWritten naming (classNamesOfFragment f)
  | .text s => namesAll_ofText s
  | .type t => by
    simp only [pieceLayoutOfFragment, classNamesOfFragment, namesAll, names,
      JavaType.named_pieces, List.append_nil]
  | .indented body => by
    simp only [pieceLayoutOfFragment, classNamesOfFragment, namesAll, names,
      namesAll_pieceLayout naming body, List.append_nil]

@[simp] theorem namesAll_pieceLayout (naming : Naming) :
    (code : List CodeFragment) →
      namesAll (pieceLayout naming code) = asWritten naming (classNames code)
  | [] => rfl
  | f :: fs => by
    rw [pieceLayout, classNames, namesAll_append, asWritten_append,
      namesAll_pieceLayoutOfFragment naming f, namesAll_pieceLayout naming fs]

end

mutual

theorem renamedAll_pieceLayoutOfFragment (f g : Naming) :
    (fragment : CodeFragment) →
      renamedAll g (pieceLayoutOfFragment f fragment) = pieceLayoutOfFragment g fragment
  | .text s => renamedAll_ofText g s
  | .type t => by
    simp only [pieceLayoutOfFragment, renamedAll, PieceLayout.renamed, JavaType.renamed_pieces]
  | .indented body => by
    simp only [pieceLayoutOfFragment, renamedAll, PieceLayout.renamed,
      renamedAll_pieceLayout f g body]

@[simp] theorem renamedAll_pieceLayout (f g : Naming) :
    (code : List CodeFragment) → renamedAll g (pieceLayout f code) = pieceLayout g code
  | [] => rfl
  | fragment :: rest => by
    rw [pieceLayout, pieceLayout, renamedAll_append, renamedAll_pieceLayoutOfFragment f g fragment,
      renamedAll_pieceLayout f g rest]

end

mutual

theorem tidyAll_pieceLayoutOfFragment (naming : Naming) :
    (f : CodeFragment) → TidyAll (pieceLayoutOfFragment naming f)
  | .text s => tidyAll_ofText s
  | .type _ => ⟨trivial, trivial⟩
  | .indented body => ⟨tidyAll_pieceLayout naming body, trivial⟩

theorem tidyAll_pieceLayout (naming : Naming) :
    (code : List CodeFragment) → TidyAll (pieceLayout naming code)
  | [] => trivial
  | f :: fs =>
    (tidyAll_append _ _).2 ⟨tidyAll_pieceLayoutOfFragment naming f, tidyAll_pieceLayout naming fs⟩

end

end Code

end JavaSource
