import JavaSource.CompilationUnit
import JavaSource.Proofs.WrittenNames

/-!
# A class piece by piece

The declarations of a class in pieces, and the classes that their text names. These are the
classes that the declarations mention, except where a part is not written at all: a constructor
has no return type and an abstract method has no body.
-/

namespace JavaSource

open Piece PieceLayout

/-! ### Annotations -/

def annotationPieces (naming : Naming) (annotations : List ClassName) : List PieceLayout :=
  annotations.map fun c => .line [.fixed ['@'], .name c (naming c) false]

@[simp] theorem plainAll_annotationPieces (naming : Naming) (as : List ClassName) :
    plainAll (annotationPieces naming as) = annotationLines naming as := by
  simp [plainAll_eq, annotationPieces, annotationLines, plain]

@[simp] theorem namesAll_annotationPieces (naming : Naming) (as : List ClassName) :
    namesAll (annotationPieces naming as) = asWritten naming as := by
  induction as with
  | nil => rfl
  | cons c as ih => rw [asWritten_cons, ← ih]; rfl

@[simp] theorem renamedAll_annotationPieces (f g : Naming) (as : List ClassName) :
    renamedAll g (annotationPieces f as) = annotationPieces g as := by
  rw [renamedAll_eq, annotationPieces, List.map_map]
  rfl

theorem tidyAll_annotationPieces (naming : Naming) (as : List ClassName) :
    TidyAll (annotationPieces naming as) := by
  refine (tidyAll_iff _).2 fun l hl => ?_
  obtain ⟨c, -, rfl⟩ := List.mem_map.1 hl
  trivial

/-! ### Fields -/

namespace Field

def headPieces (naming : Naming) (f : Field) : List Piece :=
  .fixed (f.visibility.lead ++ modifierIf f.isStatic "static".toList ++
    modifierIf f.isFinal "final".toList) :: f.type.pieces naming ++ [.fixed (' ' :: f.name)]

def pieceLayout (naming : Naming) (f : Field) : List PieceLayout :=
  Doc.pieceLayout naming f.doc ++
    match f.init with
    | some code =>
      .text (f.headPieces naming ++ [.fixed " = ".toList]) :: Code.pieceLayout naming code ++
        [.line [.fixed [';']]]
    | none => [.line (f.headPieces naming ++ [.fixed [';']])]

/-- The classes that a field writes, in the order of its text. -/
def writtenNames (f : Field) : List ClassName :=
  Doc.classNames f.doc ++ f.type.classNames ++ Code.classNames (f.init.getD [])

theorem mem_writtenNames {f : Field} {c : ClassName} :
    c ∈ f.writtenNames ↔ c ∈ f.classNames := by
  simp only [writtenNames, classNames, List.mem_append]
  tauto

@[simp] theorem textAll_headPieces (naming : Naming) (f : Field) :
    textAll (f.headPieces naming) = f.head naming := by
  simp [headPieces, head]

@[simp] theorem named_headPieces (naming : Naming) (f : Field) :
    named (f.headPieces naming) = asWritten naming f.type.classNames := by
  simp [headPieces]

theorem plainAll_pieceLayout (naming : Naming) (f : Field) :
    plainAll (f.pieceLayout naming) = f.layout naming := by
  unfold pieceLayout layout
  cases f.init with
  | none => simp [plainAll, plain]
  | some code => simp [plainAll, plain]

theorem namesAll_pieceLayout (naming : Naming) (f : Field) :
    namesAll (f.pieceLayout naming) = asWritten naming f.writtenNames := by
  unfold pieceLayout writtenNames
  cases f.init with
  | none => simp [namesAll, names, Code.classNames]
  | some code => simp [namesAll, names]

theorem renamedAll_pieceLayout (f g : Naming) (d : Field) :
    renamedAll g (d.pieceLayout f) = d.pieceLayout g := by
  have hhead : (d.headPieces f).map (Piece.renamed g) = d.headPieces g := by
    simp [headPieces, Piece.renamed]
  unfold pieceLayout
  cases d.init with
  | none => simp [renamedAll, PieceLayout.renamed, Piece.renamed, hhead]
  | some code => simp [renamedAll, PieceLayout.renamed, Piece.renamed, hhead]

theorem tidyAll_pieceLayout (naming : Naming) (f : Field) : TidyAll (f.pieceLayout naming) := by
  have hdoc := Doc.tidyAll_pieceLayout naming f.doc
  unfold pieceLayout
  cases f.init with
  | none => exact (tidyAll_append _ _).2 ⟨hdoc, trivial, trivial⟩
  | some code =>
    have hcode := Code.tidyAll_pieceLayout naming code
    exact (tidyAll_append _ _).2 ⟨hdoc, trivial, (tidyAll_append _ _).2 ⟨hcode, trivial, trivial⟩⟩

end Field

/-! ### Methods -/

namespace Method

def returnPieces (naming : Naming) (m : Method) : List Piece :=
  if m.isConstructor then []
  else
    (match m.returnType with
      | some t => t.pieces naming
      | none => [.fixed "void".toList]) ++ [.fixed [' ']]

def argumentPieces (naming : Naming) (a : Argument) : List Piece :=
  a.type.pieces naming ++ [.fixed (' ' :: a.name)]

def throwsPieces (naming : Naming) (m : Method) : List Piece :=
  if m.exceptions.isEmpty then []
  else .fixed " throws ".toList :: JavaType.piecesOfList naming m.exceptions

def signaturePieces (naming : Naming) (m : Method) : List Piece :=
  .fixed (m.visibility.lead ++ modifierIf m.isDefault "default".toList ++
    modifierIf m.isAbstract "abstract".toList ++ modifierIf m.isStatic "static".toList ++
    modifierIf m.isFinal "final".toList) :: m.returnPieces naming ++
    .fixed (m.name ++ ['(']) :: join [',', ' '] (m.arguments.map (argumentPieces naming)) ++
    .fixed [')'] :: m.throwsPieces naming

def pieceLayout (naming : Naming) (m : Method) : List PieceLayout :=
  Doc.pieceLayout naming m.doc ++ annotationPieces naming m.annotations ++
    .text (m.signaturePieces naming) ::
      if m.isAbstract then [.line [.fixed [';']]]
      else [.line [.fixed [' ', '{']], .indented (Code.pieceLayout naming m.body),
        .line [.fixed ['}']]]

def writtenReturnNames (m : Method) : List ClassName :=
  if m.isConstructor then [] else m.returnType.toList.flatMap JavaType.classNames

def writtenBodyNames (m : Method) : List ClassName :=
  if m.isAbstract then [] else Code.classNames m.body

/-- The classes that a method writes, in the order of its text. -/
def writtenNames (m : Method) : List ClassName :=
  Doc.classNames m.doc ++ m.annotations ++ m.writtenReturnNames ++
    (m.arguments.map Argument.type).flatMap JavaType.classNames ++
    m.exceptions.flatMap JavaType.classNames ++ m.writtenBodyNames

/-- A method whose return type and body are written as far as they mention classes. -/
def FullyWritten (m : Method) : Prop :=
  (m.isConstructor = true → m.returnType = none) ∧
    (m.isAbstract = true → Code.classNames m.body = [])

theorem classNames_of_mem_writtenNames {m : Method} {c : ClassName} (h : c ∈ m.writtenNames) :
    c ∈ m.classNames := by
  have hreturn : c ∈ m.writtenReturnNames → c ∈ m.returnType.toList.flatMap JavaType.classNames := by
    unfold writtenReturnNames
    split
    · simp
    · exact id
  have hbody : c ∈ m.writtenBodyNames → c ∈ Code.classNames m.body := by
    unfold writtenBodyNames
    split
    · simp
    · exact id
  simp only [writtenNames, classNames, List.flatMap_append, List.mem_append] at h ⊢
  tauto

theorem mem_writtenNames {m : Method} (hm : m.FullyWritten) {c : ClassName} :
    c ∈ m.writtenNames ↔ c ∈ m.classNames := by
  have hreturn : m.writtenReturnNames = m.returnType.toList.flatMap JavaType.classNames := by
    unfold writtenReturnNames
    split
    · next hc => rw [hm.1 hc]; rfl
    · rfl
  have hbody : m.writtenBodyNames = Code.classNames m.body := by
    unfold writtenBodyNames
    split
    · next ha => rw [hm.2 ha]
    · rfl
  simp only [writtenNames, classNames, hreturn, hbody, List.flatMap_append, List.mem_append]
  tauto

@[simp] theorem textAll_returnPieces (naming : Naming) (m : Method) :
    textAll (m.returnPieces naming) = m.returnLead naming := by
  unfold returnPieces returnLead
  split
  · rfl
  · cases m.returnType with
    | none => simp
    | some t => simp

@[simp] theorem named_returnPieces (naming : Naming) (m : Method) :
    named (m.returnPieces naming) = asWritten naming m.writtenReturnNames := by
  unfold returnPieces writtenReturnNames
  split
  · rfl
  · cases m.returnType with
    | none => simp
    | some t => simp

@[simp] theorem textAll_throwsPieces (naming : Naming) (m : Method) :
    textAll (m.throwsPieces naming) = m.throwsClause naming := by
  unfold throwsPieces throwsClause
  split
  · rfl
  · simp

@[simp] theorem named_throwsPieces (naming : Naming) (m : Method) :
    named (m.throwsPieces naming) =
      asWritten naming (m.exceptions.flatMap JavaType.classNames) := by
  unfold throwsPieces
  split
  · next h => rw [List.isEmpty_iff.1 h]; rfl
  · simp

theorem textAll_argumentPieces (naming : Naming) (a : Argument) :
    textAll (argumentPieces naming a) = argumentText naming a := by
  simp [argumentPieces, argumentText]

theorem named_argumentPieces (naming : Naming) (a : Argument) :
    named (argumentPieces naming a) = asWritten naming a.type.classNames := by
  simp [argumentPieces]

@[simp] theorem textAll_signaturePieces (naming : Naming) (m : Method) :
    textAll (m.signaturePieces naming) = m.signature naming := by
  unfold signaturePieces signature
  simp [textAll_join, Function.comp_def, textAll_argumentPieces]

@[simp] theorem named_signaturePieces (naming : Naming) (m : Method) :
    named (m.signaturePieces naming) = asWritten naming (m.writtenReturnNames ++
      (m.arguments.map Argument.type).flatMap JavaType.classNames ++
      m.exceptions.flatMap JavaType.classNames) := by
  unfold signaturePieces
  simp [named_join, List.flatMap_map, named_argumentPieces, asWritten_flatMap]

theorem plainAll_pieceLayout (naming : Naming) (m : Method) :
    plainAll (m.pieceLayout naming) = m.layout naming := by
  unfold pieceLayout layout
  split
  · simp [plainAll, plain]
  · simp [plainAll, plain]

theorem namesAll_pieceLayout (naming : Naming) (m : Method) :
    namesAll (m.pieceLayout naming) = asWritten naming m.writtenNames := by
  unfold pieceLayout writtenNames writtenBodyNames
  split
  · simp [namesAll, names]
  · simp [namesAll, names]

theorem renamed_returnPieces (f g : Naming) (m : Method) :
    (m.returnPieces f).map (Piece.renamed g) = m.returnPieces g := by
  unfold returnPieces
  split
  · rfl
  · cases m.returnType with
    | none => rfl
    | some t => simp [Piece.renamed]

theorem renamed_throwsPieces (f g : Naming) (m : Method) :
    (m.throwsPieces f).map (Piece.renamed g) = m.throwsPieces g := by
  unfold throwsPieces
  split
  · rfl
  · simp [Piece.renamed]

theorem renamed_signaturePieces (f g : Naming) (m : Method) :
    (m.signaturePieces f).map (Piece.renamed g) = m.signaturePieces g := by
  have hargument : ∀ a : Argument,
      (argumentPieces f a).map (Piece.renamed g) = argumentPieces g a := by
    simp [argumentPieces, Piece.renamed]
  have harguments : (join [',', ' '] (m.arguments.map (argumentPieces f))).map (Piece.renamed g) =
      join [',', ' '] (m.arguments.map (argumentPieces g)) := by
    simp only [renamed_join, List.map_map, Function.comp_def, hargument]
  unfold signaturePieces
  simp only [List.map_append, List.map_cons, Piece.renamed, renamed_returnPieces, harguments,
    renamed_throwsPieces]

theorem renamedAll_pieceLayout (f g : Naming) (m : Method) :
    renamedAll g (m.pieceLayout f) = m.pieceLayout g := by
  unfold pieceLayout
  split
  · simp [renamedAll, PieceLayout.renamed, Piece.renamed, renamed_signaturePieces]
  · simp [renamedAll, PieceLayout.renamed, Piece.renamed, renamed_signaturePieces]

theorem tidyAll_pieceLayout (naming : Naming) (m : Method) : TidyAll (m.pieceLayout naming) := by
  have hdoc := Doc.tidyAll_pieceLayout naming m.doc
  have hannotations := tidyAll_annotationPieces naming m.annotations
  have hbody := Code.tidyAll_pieceLayout naming m.body
  unfold pieceLayout
  refine (tidyAll_append _ _).2 ⟨(tidyAll_append _ _).2 ⟨hdoc, hannotations⟩, trivial, ?_⟩
  split
  · exact ⟨trivial, trivial⟩
  · exact ⟨trivial, hbody, trivial, trivial⟩

end Method

/-! ### Classes -/

namespace ClassDef

def extendsPieces (naming : Naming) (d : ClassDef) : List Piece :=
  match d.superclass with
  | some t => .fixed " extends ".toList :: t.pieces naming
  | none => []

def interfacesPieces (naming : Naming) (d : ClassDef) : List Piece :=
  if d.interfaces.isEmpty then []
  else .fixed d.kind.interfacesLead :: JavaType.piecesOfList naming d.interfaces

/-- The declaration up to its opening brace. The class itself is always written short. -/
def headPieces (naming : Naming) (d : ClassDef) : List Piece :=
  .fixed (d.visibility.lead ++ modifierIf d.isAbstract "abstract".toList ++
    modifierIf d.isFinal "final".toList ++ d.kind.keyword ++ [' ']) ::
    .name d.name d.name.simple false :: d.extendsPieces naming ++ d.interfacesPieces naming

def methodsPieces (naming : Naming) : (opensBody : Bool) → List Method → List PieceLayout
  | _, [] => []
  | opensBody, m :: ms =>
    (if opensBody then [] else [.blank]) ++ m.pieceLayout naming ++ methodsPieces naming false ms

def memberPieces (naming : Naming) (d : ClassDef) : List PieceLayout :=
  d.fields.flatMap (Field.pieceLayout naming) ++ methodsPieces naming d.fields.isEmpty d.methods

def pieceLayout (naming : Naming) (d : ClassDef) : List PieceLayout :=
  Doc.pieceLayout naming d.doc ++ annotationPieces naming d.annotations ++
    [.text (d.headPieces naming), .line [.fixed [' ', '{']], .indented (d.memberPieces naming),
      .line [.fixed ['}']]]

/-- The classes that a class writes besides its own name in its head. -/
def writtenNames (d : ClassDef) : List ClassName :=
  Doc.classNames d.doc ++ d.annotations ++
    (d.superclass.toList ++ d.interfaces).flatMap JavaType.classNames ++
    d.fields.flatMap Field.writtenNames ++ d.methods.flatMap Method.writtenNames

theorem mem_writtenNames_fields {fields : List Field} {c : ClassName} :
    c ∈ fields.flatMap Field.writtenNames ↔ c ∈ fields.flatMap Field.classNames := by
  simp only [List.mem_flatMap, Field.mem_writtenNames]

theorem classNames_of_mem_writtenNames {d : ClassDef} {c : ClassName} (h : c ∈ d.writtenNames) :
    c ∈ d.classNames := by
  have hmethods : c ∈ d.methods.flatMap Method.writtenNames →
      c ∈ d.methods.flatMap Method.classNames := by
    intro hm
    obtain ⟨m, hm, hc⟩ := List.mem_flatMap.1 hm
    exact List.mem_flatMap.2 ⟨m, hm, Method.classNames_of_mem_writtenNames hc⟩
  simp only [writtenNames, classNames, List.mem_append, mem_writtenNames_fields] at h ⊢
  tauto

theorem mem_writtenNames {d : ClassDef} (hd : ∀ m ∈ d.methods, m.FullyWritten) {c : ClassName} :
    c ∈ d.writtenNames ↔ c ∈ d.classNames := by
  refine ⟨classNames_of_mem_writtenNames, fun h => ?_⟩
  have hmethods : c ∈ d.methods.flatMap Method.classNames →
      c ∈ d.methods.flatMap Method.writtenNames := by
    intro hm
    obtain ⟨m, hm, hc⟩ := List.mem_flatMap.1 hm
    exact List.mem_flatMap.2 ⟨m, hm, (Method.mem_writtenNames (hd m hm)).2 hc⟩
  simp only [writtenNames, classNames, List.mem_append, mem_writtenNames_fields] at h ⊢
  tauto

@[simp] theorem textAll_extendsPieces (naming : Naming) (d : ClassDef) :
    textAll (d.extendsPieces naming) = d.extendsClause naming := by
  unfold extendsPieces extendsClause
  cases d.superclass with
  | none => rfl
  | some t => simp

@[simp] theorem textAll_interfacesPieces (naming : Naming) (d : ClassDef) :
    textAll (d.interfacesPieces naming) = d.interfacesClause naming := by
  unfold interfacesPieces interfacesClause
  split
  · rfl
  · simp

@[simp] theorem textAll_headPieces (naming : Naming) (d : ClassDef) :
    textAll (d.headPieces naming) = d.head naming := by
  unfold headPieces head
  simp

@[simp] theorem named_headPieces (naming : Naming) (d : ClassDef) :
    named (d.headPieces naming) = (d.name, d.name.simple) ::
      asWritten naming ((d.superclass.toList ++ d.interfaces).flatMap JavaType.classNames) := by
  have hextends : named (d.extendsPieces naming) =
      asWritten naming (d.superclass.toList.flatMap JavaType.classNames) := by
    unfold extendsPieces
    cases d.superclass with
    | none => rfl
    | some t => simp
  have hinterfaces : named (d.interfacesPieces naming) =
      asWritten naming (d.interfaces.flatMap JavaType.classNames) := by
    unfold interfacesPieces
    split
    · next h => rw [List.isEmpty_iff.1 h]; rfl
    · simp
  unfold headPieces
  simp [hextends, hinterfaces]

theorem plainAll_methodsPieces (naming : Naming) (opensBody : Bool) (ms : List Method) :
    plainAll (methodsPieces naming opensBody ms) = methodsLayout naming opensBody ms := by
  induction ms generalizing opensBody with
  | nil => rfl
  | cons m ms ih =>
    simp only [methodsPieces, methodsLayout, plainAll_append, m.plainAll_pieceLayout, ih]
    cases opensBody <;> rfl

theorem namesAll_methodsPieces (naming : Naming) (opensBody : Bool) (ms : List Method) :
    namesAll (methodsPieces naming opensBody ms) =
      asWritten naming (ms.flatMap Method.writtenNames) := by
  induction ms generalizing opensBody with
  | nil => rfl
  | cons m ms ih =>
    simp only [methodsPieces, namesAll_append, m.namesAll_pieceLayout, ih, List.flatMap_cons,
      asWritten_append]
    cases opensBody <;> rfl

theorem tidyAll_methodsPieces (naming : Naming) (opensBody : Bool) (ms : List Method) :
    TidyAll (methodsPieces naming opensBody ms) := by
  induction ms generalizing opensBody with
  | nil => trivial
  | cons m ms ih =>
    refine (tidyAll_append _ _).2 ⟨(tidyAll_append _ _).2 ⟨?_, m.tidyAll_pieceLayout naming⟩, ih _⟩
    cases opensBody
    · exact ⟨trivial, trivial⟩
    · trivial

theorem plainAll_memberPieces (naming : Naming) (d : ClassDef) :
    plainAll (d.memberPieces naming) = d.members naming := by
  have hfields : plainAll (d.fields.flatMap (Field.pieceLayout naming)) =
      d.fields.flatMap (Field.layout naming) := by
    rw [plainAll_eq, List.map_flatMap]
    simp only [← plainAll_eq, Field.plainAll_pieceLayout]
  rw [memberPieces, members, plainAll_append, hfields, plainAll_methodsPieces]

theorem namesAll_memberPieces (naming : Naming) (d : ClassDef) :
    namesAll (d.memberPieces naming) = asWritten naming
      (d.fields.flatMap Field.writtenNames ++ d.methods.flatMap Method.writtenNames) := by
  have hfields : namesAll (d.fields.flatMap (Field.pieceLayout naming)) =
      asWritten naming (d.fields.flatMap Field.writtenNames) := by
    rw [namesAll_eq, List.flatMap_assoc, asWritten_flatMap]
    simp only [← namesAll_eq, Field.namesAll_pieceLayout]
  rw [memberPieces, namesAll_append, hfields, namesAll_methodsPieces, asWritten_append]

theorem plainAll_pieceLayout (naming : Naming) (d : ClassDef) :
    plainAll (d.pieceLayout naming) = d.layout naming := by
  unfold pieceLayout layout
  simp [plainAll, plain, plainAll_memberPieces]

/-- A class names itself by its simple name, and every other class that it writes as the naming
has it. -/
theorem mem_namesAll_pieceLayout (naming : Naming) (d : ClassDef) (p : ClassName × Text) :
    p ∈ namesAll (d.pieceLayout naming) ↔
      p = (d.name, d.name.simple) ∨ p.1 ∈ d.writtenNames ∧ p.2 = naming p.1 := by
  rw [← mem_asWritten]
  unfold pieceLayout writtenNames
  simp only [namesAll_append, namesAll, names, namesAll_memberPieces, Doc.namesAll_pieceLayout,
    namesAll_annotationPieces, named_headPieces, named_fixed_cons, named_nil, asWritten_append,
    List.mem_append, List.mem_cons, List.append_nil]
  tauto

theorem renamedAll_methodsPieces (f g : Naming) (opensBody : Bool) (ms : List Method) :
    renamedAll g (methodsPieces f opensBody ms) = methodsPieces g opensBody ms := by
  induction ms generalizing opensBody with
  | nil => rfl
  | cons m ms ih =>
    simp only [methodsPieces, renamedAll_append, m.renamedAll_pieceLayout f g, ih]
    cases opensBody <;> rfl

theorem renamed_headPieces (f g : Naming) (d : ClassDef) (h : g d.name = d.name.simple) :
    (d.headPieces f).map (Piece.renamed g) = d.headPieces g := by
  have hextends : (d.extendsPieces f).map (Piece.renamed g) = d.extendsPieces g := by
    unfold extendsPieces
    cases d.superclass with
    | none => rfl
    | some t => simp [Piece.renamed]
  have hinterfaces : (d.interfacesPieces f).map (Piece.renamed g) = d.interfacesPieces g := by
    unfold interfacesPieces
    split
    · rfl
    · simp [Piece.renamed]
  unfold headPieces
  simp only [List.cons_append, List.map_append, List.map_cons, Piece.renamed, h, hextends,
    hinterfaces]

/-- What a naming decides is in the names of classes alone: another naming changes these and
nothing else. -/
theorem renamedAll_pieceLayout (f g : Naming) (d : ClassDef) (h : g d.name = d.name.simple) :
    renamedAll g (d.pieceLayout f) = d.pieceLayout g := by
  have hfields : renamedAll g (d.fields.flatMap (Field.pieceLayout f)) =
      d.fields.flatMap (Field.pieceLayout g) := by
    rw [renamedAll_eq, List.map_flatMap]
    simp only [← renamedAll_eq, Field.renamedAll_pieceLayout]
  unfold pieceLayout memberPieces
  simp only [renamedAll_append, renamedAll, PieceLayout.renamed, Doc.renamedAll_pieceLayout,
    renamedAll_annotationPieces, renamed_headPieces f g d h, hfields, renamedAll_methodsPieces,
    List.map_cons, List.map_nil, Piece.renamed]

theorem tidyAll_pieceLayout (naming : Naming) (d : ClassDef) : TidyAll (d.pieceLayout naming) := by
  have hdoc := Doc.tidyAll_pieceLayout naming d.doc
  have hannotations := tidyAll_annotationPieces naming d.annotations
  have hfields : TidyAll (d.fields.flatMap (Field.pieceLayout naming)) := by
    refine (tidyAll_iff _).2 fun l hl => ?_
    obtain ⟨f, -, hf⟩ := List.mem_flatMap.1 hl
    exact (tidyAll_iff _).1 (f.tidyAll_pieceLayout naming) l hf
  have hmethods := tidyAll_methodsPieces naming d.fields.isEmpty d.methods
  unfold pieceLayout
  refine (tidyAll_append _ _).2 ⟨(tidyAll_append _ _).2 ⟨hdoc, hannotations⟩, ?_⟩
  exact ⟨trivial, trivial, (tidyAll_append _ _).2 ⟨hfields, hmethods⟩, trivial, trivial⟩

end ClassDef

/-! ### Source files -/

namespace CompilationUnit

/-- The class of a source file as it stands there, piece by piece. -/
def classPieces (indent : Indent) (u : CompilationUnit) : List Piece :=
  PieceLayout.pieces indent (u.classDef.pieceLayout u.imports.name)

def importText (c : ClassName) : Text := "import ".toList ++ c.qualified ++ [';', '\n']

/-- The text of the import lines and of the empty line behind them. -/
def importsText (u : CompilationUnit) : Text :=
  if u.imports.importLines.isEmpty then [] else u.imports.importLines.flatMap importText ++ ['\n']

theorem render_importsLayout (indent : Indent) (u : CompilationUnit) :
    Layout.render indent u.importsLayout = u.importsText := by
  have hlines : ∀ cs : List ClassName,
      Layout.render indent (cs.map importLine) = cs.flatMap importText := by
    intro cs
    induction cs with
    | nil => rfl
    | cons c cs ih =>
      rw [List.map_cons, List.flatMap_cons, ← ih, ← List.singleton_append, Layout.render_append]
      unfold importLine importText
      simp [Layout.render, Layout.opsAll, Layout.ops, WriteOp.render]
  unfold importsLayout importsText
  dsimp only
  split
  · rfl
  · rw [Layout.render_append, hlines]
    rfl

/-- A file is its header and package declaration, the import lines and the pieces of its class. -/
theorem render_eq (indent : Indent) (u : CompilationUnit) :
    u.render indent = Layout.render indent (u.headerLayout ++ u.packageLayout) ++ u.importsText ++
      textAll (u.classPieces indent) := by
  have hclass := textAll_pieces indent (u.classDef.tidyAll_pieceLayout u.imports.name)
  rw [ClassDef.plainAll_pieceLayout] at hclass
  rw [render, layout, Layout.render_append, Layout.render_append, render_importsLayout,
    classPieces, hclass]

theorem mem_named_classPieces {indent : Indent} {u : CompilationUnit} {p : ClassName × Text}
    (h : p ∈ named (u.classPieces indent)) :
    p = (u.classDef.name, u.classDef.name.simple) ∨
      p.1 ∈ u.classDef.writtenNames ∧ p.2 = u.imports.name p.1 :=
  (ClassDef.mem_namesAll_pieceLayout ..).1 (named_pieces_subset indent _ h)

end CompilationUnit

end JavaSource
