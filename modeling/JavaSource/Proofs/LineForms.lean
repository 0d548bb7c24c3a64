import JavaSource.Output
import JavaSource.Proofs.BodyLines
import JavaSource.Proofs.CutText
import JavaSource.Proofs.FileLines

/-!
# The forms of a body line

A line of a body may be written as a plain text, as a line with one text, or as a line with the
pieces of the text. The form shows in no other place of the generated files, and not in the line
either, unless a piece ends in a carriage return with a line break behind it: the return is dropped
inside one fragment of code only. The break at the end of the line is a fragment of its own behind
the pieces, so a text that ends in a carriage return keeps it in every form but the plain one.
-/

namespace JavaSource

open Text Session

/-! ### Manifests without bodies -/

def MethodDecl.withoutBody (d : MethodDecl) : MethodDecl := { d with body := [] }

def ConstructorDecl.withoutBody (k : ConstructorDecl) : ConstructorDecl := { k with body := [] }

def ClassDecl.withoutBodies (c : ClassDecl) : ClassDecl :=
  { c with
    constructors := c.constructors.map ConstructorDecl.withoutBody
    methods := c.methods.map MethodDecl.withoutBody }

def MemberTarget.withoutBodies (t : MemberTarget) : MemberTarget :=
  { t with classDecl := t.classDecl.withoutBodies, method := t.method.withoutBody }

namespace Manifest

def withoutBodies (m : Manifest) : Manifest :=
  { m with classes := m.classes.map ClassDecl.withoutBodies }

theorem findClass?_withoutBodies (m : Manifest) (name : Text) :
    m.withoutBodies.findClass? name =
      (m.findClass? name).map fun p => (p.1, p.2.withoutBodies) := by
  simp only [findClass?, withoutBodies, List.zipIdx_map, List.find?_map, Option.map_map]
  rfl

theorem pick_withoutBodies (i : Nat) (c : ClassDecl) (l : MemberLink) :
    pick i c.withoutBodies l = (pick i c l).map MemberTarget.withoutBodies := by
  have hmethods : c.withoutBodies.methods = c.methods.map MethodDecl.withoutBody := rfl
  have hname : ∀ d : MethodDecl, d.withoutBody.name = d.name := fun _ => rfl
  unfold pick
  rw [hmethods, List.all_map, List.zipIdx_map, List.filter_map]
  have hfitting : (c.methods.zipIdx.filter
      ((fun p => l.fits p.1) ∘ Prod.map MethodDecl.withoutBody id)) =
        c.methods.zipIdx.filter fun p => l.fits p.1 := rfl
  rw [hfitting]
  simp only [Function.comp_def, hname]
  split
  · rfl
  · cases c.methods.zipIdx.filter fun p => l.fits p.1 with
    | nil => rfl
    | cons p rest =>
      cases rest with
      | nil => rfl
      | cons q rest => simp [Except.map]

theorem resolve_withoutBodies (m : Manifest) (link : Text) :
    m.withoutBodies.resolve link = (m.resolve link).map MemberTarget.withoutBodies := by
  unfold resolve
  cases MemberLink.ofText? link with
  | none => rfl
  | some l =>
    simp only [findClass?_withoutBodies]
    cases m.findClass? l.className with
    | none => rfl
    | some found => exact pick_withoutBodies found.1 found.2 l

theorem fragmentOf_withoutBodies (m : Manifest) (part : DocPart) :
    m.withoutBodies.fragmentOf part = m.fragmentOf part := by
  cases part with
  | text s => rfl
  | link t => rfl
  | member link =>
    simp only [fragmentOf, resolve_withoutBodies]
    cases m.resolve link with
    | error problem => rfl
    | ok target =>
      have href : target.withoutBodies.memberRef = target.memberRef := by
        rw [MemberTarget.memberRef_eq, MemberTarget.memberRef_eq]
        rfl
      exact congrArg DocFragment.memberLink href

end Manifest

/-! ### Lines in pieces -/

/-- A line without types is a row of texts. -/
inductive CodeLine.InPieces : CodeLine → List Text → Prop
  | text (s : Text) : InPieces (.text s) [s]
  | parts (pieces : List Text) : InPieces (.parts (pieces.map .text)) pieces

namespace CodeLine.InPieces

variable {l : CodeLine} {pieces : List Text}

theorem types_eq (h : l.InPieces pieces) : l.types = [] := by
  cases h with
  | text s => rfl
  | parts pieces => simp [types]

theorem layout_toCode (h : l.InPieces pieces) (naming : Naming) :
    Code.layout naming l.toCode = pieces.flatMap Layout.ofText := by
  cases h with
  | text s => simp [toCode, Code.layout, Code.layoutOfFragment]
  | parts pieces =>
    rw [toCode, List.map_map]
    induction pieces with
    | nil => rfl
    | cons s rest ih =>
      rw [List.map_cons, Code.layout, ih, List.flatMap_cons]
      rfl

end CodeLine.InPieces

/-! ### Bodies -/

namespace BodyEntry

/-- A body and the same body with one of its texts, in a block of any depth, in another form. -/
inductive Respelled (t : Text) (l : CodeLine) : List BodyEntry → List BodyEntry → Prop
  | here (front rest : List BodyEntry) :
    Respelled t l (front ++ .text t :: rest) (front ++ .line l :: rest)
  | inside (front rest : List BodyEntry) (header : Text) {body body' : List BodyEntry}
    (h : Respelled t l body body') :
    Respelled t l (front ++ .block header body :: rest) (front ++ .block header body' :: rest)

theorem typesOfBody_append (a b : List BodyEntry) :
    typesOfBody (a ++ b) = typesOfBody a ++ typesOfBody b := by
  induction a with
  | nil => rfl
  | cons e a ih => simp [typesOfBody, ih]

theorem codeOfBody_append (a b : List BodyEntry) :
    codeOfBody (a ++ b) = codeOfBody a ++ codeOfBody b := by
  induction a with
  | nil => rfl
  | cons e a ih => simp [codeOfBody, ih]

namespace Respelled

variable {t : Text} {l : CodeLine} {body body' : List BodyEntry}

theorem ne_nil (h : Respelled t l body body') : body ≠ [] ∧ body' ≠ [] := by
  cases h with
  | here front rest => simp
  | inside front rest header h => simp

theorem typesOfBody_eq (h : Respelled t l body body') (hl : l.types = []) :
    typesOfBody body' = typesOfBody body := by
  induction h with
  | here front rest => simp [typesOfBody_append, typesOfBody, types, hl]
  | inside front rest header h ih => simp [typesOfBody_append, typesOfBody, types, ih]

theorem sameIf_layout {pieces : List Text} (h : Respelled pieces.flatten l body body')
    (hl : l.InPieces pieces) (unit : Text) (naming : Naming) :
    SameIf (KeepsBreaks (pieces ++ [['\n']]))
      (Layout.opsAll unit (Code.layout naming (codeOfBody body)))
      (Layout.opsAll unit (Code.layout naming (codeOfBody body'))) := by
  generalize ht : pieces.flatten = t at h
  induction h with
  | here front rest =>
    subst ht
    -- the break at the end of the line is one more piece
    have hline := Layout.sameIf_ofText_flatten unit (pieces ++ [['\n']])
    rw [List.flatten_append, List.flatten_singleton, List.flatMap_append, List.flatMap_singleton,
      ← hl.layout_toCode naming] at hline
    have hframe := hline.frame (Layout.opsAll unit (Code.layout naming (codeOfBody front)))
      (Layout.opsAll unit (Code.layout naming (codeOfBody rest)))
    simp only [codeOfBody_append, codeOfBody, toCode, Code.layout_append, Code.layout_line,
      Layout.opsAll_append, List.nil_append, List.append_assoc] at hframe ⊢
    exact hframe
  | inside front rest header h ih =>
    have hframe := (ih.indent unit).frame
      (Layout.opsAll unit
        (Code.layout naming (codeOfBody front ++ Code.line (header ++ [' ', '{']))))
      (Layout.opsAll unit (Code.layout naming (Code.line ['}'] ++ codeOfBody rest)))
    simp only [codeOfBody_append, codeOfBody, toCode, Code.block, Code.layout_append,
      Code.layout_indented, Layout.opsAll_append, Layout.opsAll, Layout.ops, List.append_assoc,
      List.append_nil] at hframe ⊢
    exact hframe

end Respelled

end BodyEntry

/-! ### Members and classes -/

/-- Methods that differ in their bodies, which mention the same classes and are written alike if `p`
holds. -/
structure Method.SameIf (p : Prop) (m m' : Method) : Prop where
  others : { m with body := m'.body } = m'
  hasBody : m.isAbstract = false
  classNames : Code.classNames m'.body = Code.classNames m.body
  body (unit : Text) (naming : Naming) :
    Session.SameIf p (Layout.opsAll unit (Code.layout naming m.body))
      (Layout.opsAll unit (Code.layout naming m'.body))

namespace Method.SameIf

variable {p : Prop} {m m' : Method}

theorem classNames_eq (h : m.SameIf p m') : m'.classNames = m.classNames := by
  have hbody := h.classNames
  rw [← h.others] at hbody ⊢
  simp only [Method.classNames, hbody]

theorem sameIf_layout (h : m.SameIf p m') (unit : Text) (naming : Naming) :
    Session.SameIf p (Layout.opsAll unit (m.layout naming))
      (Layout.opsAll unit (m'.layout naming)) := by
  have hframe := ((h.body unit naming).indent unit).frame
    (Layout.opsAll unit (m.above naming ++ [.text (m.signature naming), .line [' ', '{']]))
    (Layout.opsAll unit [.line ['}']])
  have hlayout : ∀ k : Method, k.isAbstract = false →
      k.layout naming = (k.above naming ++ [.text (k.signature naming), .line [' ', '{']]) ++
        [.indented (Code.layout naming k.body)] ++ [.line ['}']] := by
    intro k hk
    simp [Method.layout_eq, Method.headEnd, Method.below, hk]
  have habove : m'.above naming = m.above naming := by
    rw [← h.others]
    rfl
  have hsignature : m'.signature naming = m.signature naming := by
    rw [← h.others]
    rfl
  have habstract : m'.isAbstract = false := by
    rw [← h.others]
    exact h.hasBody
  rw [hlayout m h.hasBody, hlayout m' habstract, habove, hsignature]
  simpa only [Layout.opsAll_append, Layout.opsAll, Layout.ops, List.append_nil] using hframe

end Method.SameIf

/-- Classes that differ in the body of one method. -/
inductive ClassDef.SameIf (p : Prop) (d : ClassDef) : ClassDef → Prop
  | intro (front rest : List Method) {m m' : Method} (hm : d.methods = front ++ m :: rest)
    (h : m.SameIf p m') : SameIf p d { d with methods := front ++ m' :: rest }

namespace ClassDef

variable {p : Prop} {d d' : ClassDef}

theorem SameIf.classNames_eq (h : d.SameIf p d') : d'.classNames = d.classNames := by
  cases h with
  | intro front rest hm h => simp [classNames, hm, h.classNames_eq]

theorem sameIf_methodsLayout {m m' : Method} (h : m.SameIf p m') (unit : Text) (naming : Naming)
    (opensBody : Bool) (front rest : List Method) :
    Session.SameIf p
      (Layout.opsAll unit (methodsLayout naming opensBody (front ++ m :: rest)))
      (Layout.opsAll unit (methodsLayout naming opensBody (front ++ m' :: rest))) := by
  induction front generalizing opensBody with
  | nil =>
    have hframe := (h.sameIf_layout unit naming).frame
      (Layout.opsAll unit (if opensBody then [] else [.blank]))
      (Layout.opsAll unit (methodsLayout naming false rest))
    simp only [List.nil_append, methodsLayout, Layout.opsAll_append] at hframe ⊢
    exact hframe
  | cons k front ih =>
    have hframe := (ih false).frame
      (Layout.opsAll unit ((if opensBody then [] else [.blank]) ++ k.layout naming)) []
    rw [List.append_nil, List.append_nil] at hframe
    simp only [List.cons_append, methodsLayout, Layout.opsAll_append] at hframe ⊢
    exact hframe

theorem SameIf.sameIf_layout (h : d.SameIf p d') (unit : Text) (naming : Naming) :
    Session.SameIf p (Layout.opsAll unit (d.layout naming))
      (Layout.opsAll unit (d'.layout naming)) := by
  cases h with
  | @intro front rest m m' hm h =>
    have hmethods := sameIf_methodsLayout h unit naming d.fields.isEmpty front rest
    have hmembers := hmethods.frame (Layout.opsAll unit (d.fields.flatMap (Field.layout naming))) []
    rw [List.append_nil, List.append_nil] at hmembers
    have hframe := (hmembers.indent unit).frame
      (Layout.opsAll unit (Doc.layout naming d.doc ++ annotationLines naming d.annotations ++
        [.text (d.head naming), .line [' ', '{']]))
      (Layout.opsAll unit [.line ['}']])
    have hhead : ({ d with methods := front ++ m' :: rest } : ClassDef).head naming =
        d.head naming := rfl
    simp only [ClassDef.layout, members, hm, hhead, Layout.opsAll_append, Layout.opsAll, Layout.ops,
      List.append_assoc, List.append_nil] at hframe ⊢
    exact hframe

end ClassDef

namespace CompilationUnit

variable {p : Prop} {u : CompilationUnit} {d : ClassDef}

/-- Where only the body of a method is another one, the file is the same exactly if the body is
written alike. -/
theorem outputFile_eq_iff (h : u.classDef.SameIf p d) (indent : Indent) :
    { u with classDef := d }.outputFile indent = u.outputFile indent ↔ p := by
  have hname : d.name = u.classDef.name := by
    cases h with
    | intro front rest hm h => rfl
  have hpackage : { u with classDef := d }.package = u.package := congrArg ClassName.qualifier hname
  have hclaims : { u with classDef := d }.claims = u.claims := by
    simp only [claims, hpackage, hname, h.classNames_eq]
  have himports : { u with classDef := d }.imports = u.imports := by
    simp only [imports, hpackage, hclaims]
  have hpath : { u with classDef := d }.path = u.path := by
    simp only [path, hpackage, hname]
  have hlayout : { u with classDef := d }.layout =
      u.headerLayout ++ u.packageLayout ++ u.importsLayout ++ d.layout u.imports.name := by
    simp only [layout, packageLayout, importsLayout, hpackage, himports]
    rfl
  have hframe := (h.sameIf_layout indent.unit u.imports.name).frame
    (Layout.opsAll indent.unit (u.headerLayout ++ u.packageLayout ++ u.importsLayout)) []
  have htext := hframe.text_eq_iff []
  rw [List.append_nil, List.append_nil, ← Layout.opsAll_append, ← Layout.opsAll_append,
    ← hlayout] at htext
  simp only [outputFile, hpath, OutputFile.mk.injEq, true_and]
  exact htext

end CompilationUnit

/-! ### Declarations -/

variable {t : Text} {l : CodeLine}

/-- A class and the same class with a text in the body of one member in another form. -/
inductive ClassDecl.Respelled (t : Text) (l : CodeLine) (c : ClassDecl) : ClassDecl → Prop
  | ofConstructor (front rest : List ConstructorDecl) {k : ConstructorDecl} {body : List BodyEntry}
    (hc : c.constructors = front ++ k :: rest) (h : BodyEntry.Respelled t l k.body body) :
    Respelled t l c { c with constructors := front ++ { k with body } :: rest }
  | ofMethod (front rest : List MethodDecl) {k : MethodDecl} {body : List BodyEntry}
    (hc : c.methods = front ++ k :: rest) (h : BodyEntry.Respelled t l k.body body) :
    Respelled t l c { c with methods := front ++ { k with body } :: rest }

/-- A manifest and the same manifest with one text in a body in another form. -/
inductive Manifest.Respelled (t : Text) (l : CodeLine) (m : Manifest) : Manifest → Prop
  | ofClass (front rest : List ClassDecl) {c c' : ClassDecl} (hm : m.classes = front ++ c :: rest)
    (h : c.Respelled t l c') : Respelled t l m { m with classes := front ++ c' :: rest }

theorem Method.sameIf_withMember {pieces : List Text} {body body' : List BodyEntry}
    (h : BodyEntry.Respelled pieces.flatten l body body') (hl : l.InPieces pieces) {m : Method}
    (hm : m.isAbstract = false) (args : List ArgumentDecl) (throws : List TypeExpr)
    (annotations : List Text) (doc : Doc) :
    Method.SameIf (KeepsBreaks (pieces ++ [['\n']]))
      { m.withMember args throws annotations body with doc }
      { m.withMember args throws annotations body' with doc } where
  others := rfl
  hasBody := by
    show (m.addArguments args).isAbstract = false
    rw [Method.addArguments_eq]
    exact hm
  classNames := by
    show Code.classNames (BodyEntry.codeOfBody body') = Code.classNames (BodyEntry.codeOfBody body)
    rw [BodyEntry.classNames_codeOfBody, BodyEntry.classNames_codeOfBody,
      h.typesOfBody_eq hl.types_eq]
  body := h.sameIf_layout hl

namespace MethodDecl

variable {k : MethodDecl} {body : List BodyEntry}

theorem isAbstract_of_body {inInterface : Bool} (h : k.Accepted inInterface) (hb : k.body ≠ []) :
    k.isAbstract = false := by
  rw [← Bool.not_eq_true]
  exact fun ha => hb (h.overridable ha).1

theorem buildsAbstract_of_body (inInterface : Bool) (hb : k.body ≠ []) :
    k.buildsAbstract inInterface = k.isAbstract := by
  simp [buildsAbstract, hb]

/-- A method with another body that is not empty is built alike up to the body. -/
theorem toMethod_withBody (inInterface : Bool) (hb : k.body ≠ []) (hb' : body ≠ []) :
    { k with body }.toMethod inInterface =
      { k.toMethod inInterface with body := BodyEntry.codeOfBody body } := by
  have habstract : { k with body }.buildsAbstract inInterface = k.buildsAbstract inInterface := by
    rw [buildsAbstract_of_body inInterface hb, buildsAbstract_of_body inInterface hb']
  simp only [toMethod, buildsDefault, habstract]
  rfl

theorem sameIf_toMethod {inInterface : Bool} {pieces : List Text} (hk : k.Accepted inInterface)
    (h : BodyEntry.Respelled pieces.flatten l k.body body) (hl : l.InPieces pieces) (doc : Doc) :
    Method.SameIf (KeepsBreaks (pieces ++ [['\n']])) { k.toMethod inInterface with doc }
      { ({ k with body } : MethodDecl).toMethod inInterface with doc } := by
  have habstract : k.buildsAbstract inInterface = false := by
    rw [buildsAbstract_of_body inInterface h.ne_nil.1, isAbstract_of_body hk h.ne_nil.1]
  rw [toMethod_withBody inInterface h.ne_nil.1 h.ne_nil.2]
  exact Method.sameIf_withMember h hl habstract k.args k.throws k.annotations doc

end MethodDecl

namespace ClassDecl.Respelled

variable {c c' : ClassDecl}

theorem withoutBodies_eq (h : c.Respelled t l c') : c'.withoutBodies = c.withoutBodies := by
  cases h with
  | ofConstructor front rest hc h =>
    simp only [withoutBodies, hc, List.map_append, List.map_cons]
    rfl
  | ofMethod front rest hc h =>
    simp only [withoutBodies, hc, List.map_append, List.map_cons]
    rfl

theorem name_eq (h : c.Respelled t l c') : c'.name = c.name := by
  show c'.withoutBodies.name = c.withoutBodies.name
  rw [h.withoutBodies_eq]

theorem docs_eq (h : c.Respelled t l c') : c'.docs = c.docs := by
  have hdocs : ∀ d : ClassDecl, d.withoutBodies.docs = d.docs := by
    intro d
    simp only [docs, withoutBodies, List.flatMap_map]
    rfl
  rw [← hdocs, h.withoutBodies_eq, hdocs]

theorem accepted (h : c.Respelled t l c') (hl : l.types = []) (hc : c.Accepted) : c'.Accepted := by
  have htypes {body body' : List BodyEntry} (h : BodyEntry.Respelled t l body body')
      (hb : BodyAccepted body) : BodyAccepted body' := by
    rw [BodyAccepted, h.typesOfBody_eq hl]
    exact hb
  cases h with
  | @ofConstructor front rest k body hk h =>
    have hkeep := hc.constructors
    rw [hk, List.forall_mem_append, List.forall_mem_cons] at hkeep
    obtain ⟨hfront, haccepted, hrest⟩ := hkeep
    refine { hc with ofInterface := ?_, constructors := ?_ }
    · intro hi
      rw [hc.ofInterface hi] at hk
      simp at hk
    · rw [List.forall_mem_append, List.forall_mem_cons]
      exact ⟨hfront, { haccepted with body := htypes h haccepted.body }, hrest⟩
  | @ofMethod front rest k body hk h =>
    have hkeep := hc.methods
    rw [hk, List.forall_mem_append, List.forall_mem_cons] at hkeep
    obtain ⟨hfront, haccepted, hrest⟩ := hkeep
    have habstract := MethodDecl.isAbstract_of_body haccepted h.ne_nil.1
    refine { hc with methods := ?_ }
    rw [List.forall_mem_append, List.forall_mem_cons]
    refine ⟨hfront, { haccepted with overridable := ?_, implementable := ?_, body := ?_ }, hrest⟩
    · intro ha
      rw [habstract] at ha
      exact absurd ha Bool.false_ne_true
    · intro hi
      obtain ⟨hfinal, hprotected, -⟩ := haccepted.implementable hi
      exact ⟨hfinal, hprotected, fun _ => h.ne_nil.2⟩
    · exact htypes h haccepted.body

theorem sameIf_classOf {pieces : List Text} (h : c.Respelled pieces.flatten l c')
    (hl : l.InPieces pieces) (hc : c.Accepted) (m : Manifest) :
    (m.classOf c).SameIf (KeepsBreaks (pieces ++ [['\n']])) (m.classOf c') := by
  let ofConstructor (k : ConstructorDecl) : Method :=
    { k.toMethod c.simpleName with doc := m.docOf k.doc }
  let ofMethod (k : MethodDecl) : Method := { k.toMethod c.isInterface with doc := m.docOf k.doc }
  have hmethods : (m.classOf c).methods =
      c.constructors.map ofConstructor ++ c.methods.map ofMethod := rfl
  cases h with
  | @ofConstructor front rest k body hk h =>
    have hsame : Method.SameIf (KeepsBreaks (pieces ++ [['\n']])) (ofConstructor k)
        (ofConstructor { k with body }) :=
      Method.sameIf_withMember h hl rfl k.args k.throws k.annotations (m.docOf k.doc)
    rw [hk, List.map_append, List.map_cons, List.append_assoc, List.cons_append] at hmethods
    have hclass := ClassDef.SameIf.intro _ _ hmethods hsame
    rw [← List.cons_append, ← List.map_cons, ← List.append_assoc, ← List.map_append] at hclass
    exact hclass
  | @ofMethod front rest k body hk h =>
    have haccepted : k.Accepted c.isInterface := hc.methods k (by simp [hk])
    have hsame : Method.SameIf (KeepsBreaks (pieces ++ [['\n']])) (ofMethod k)
        (ofMethod { k with body }) :=
      MethodDecl.sameIf_toMethod haccepted h hl (m.docOf k.doc)
    rw [hk, List.map_append, List.map_cons, ← List.append_assoc] at hmethods
    have hclass := ClassDef.SameIf.intro _ _ hmethods hsame
    rw [List.append_assoc, ← List.map_cons, ← List.map_append] at hclass
    exact hclass

end ClassDecl.Respelled

/-! ### Files -/

namespace Manifest

theorem unitOf_withoutBodies (m : Manifest) (c : ClassDecl) :
    m.withoutBodies.unitOf c = m.unitOf c := by
  have hdoc : m.withoutBodies.docOf = m.docOf := by
    funext parts
    exact List.map_congr_left fun part _ => m.fragmentOf_withoutBodies part
  have hpeers : m.withoutBodies.peers c = m.peers c := by
    simp only [peers, withoutBodies, List.filter_map, List.map_map]
    rfl
  unfold unitOf classOf
  rw [hdoc, hpeers]
  rfl

namespace Respelled

variable {m m' : Manifest}

theorem withoutBodies_eq (h : m.Respelled t l m') : m'.withoutBodies = m.withoutBodies := by
  cases h with
  | ofClass front rest hm h =>
    simp only [withoutBodies, hm, List.map_append, List.map_cons, h.withoutBodies_eq]

theorem unitOf_eq (h : m.Respelled t l m') (c : ClassDecl) : m'.unitOf c = m.unitOf c := by
  rw [← unitOf_withoutBodies, h.withoutBodies_eq, unitOf_withoutBodies]

theorem resolve_ok (h : m.Respelled t l m') {link : Text}
    (hlink : ∃ target, m.resolve link = .ok target) : ∃ target, m'.resolve link = .ok target := by
  have hresolve : (m'.resolve link).map MemberTarget.withoutBodies =
      (m.resolve link).map MemberTarget.withoutBodies := by
    rw [← resolve_withoutBodies, h.withoutBodies_eq, resolve_withoutBodies]
  obtain ⟨target, htarget⟩ := hlink
  rw [htarget] at hresolve
  cases hr : m'.resolve link with
  | error problem => simp [hr, Except.map] at hresolve
  | ok found => exact ⟨found, rfl⟩

theorem accepted (h : m.Respelled t l m') (hl : l.types = []) (hm : m.Accepted) : m'.Accepted := by
  have hlinks : ∀ c ∈ m.classes, ∀ link, .member link ∈ c.docs →
      ∃ target, m'.resolve link = .ok target :=
    fun c hc link hlink => h.resolve_ok (hm.links c hc link hlink)
  have hclasses := hm.classes
  have hnames := hm.classNames
  cases h with
  | @ofClass front rest c c' hmc hc =>
    rw [hmc, List.forall_mem_append, List.forall_mem_cons] at hclasses hlinks
    rw [hmc, List.map_append, List.map_cons] at hnames
    refine ⟨?_, ?_, ?_⟩
    · rw [List.forall_mem_append, List.forall_mem_cons]
      exact ⟨hclasses.1, hc.accepted hl hclasses.2.1, hclasses.2.2⟩
    · rw [List.map_append, List.map_cons, hc.name_eq]
      exact hnames
    · rw [List.forall_mem_append, List.forall_mem_cons, hc.docs_eq]
      exact hlinks

end Respelled

/-- A text of a body may be written as a line of one text or of several pieces, which an accepted
manifest stays accepted with. All files of the manifest stay as they were exactly if no piece is cut
off from a line break behind its carriage return, where the break that ends the line counts as one
more piece. -/
theorem files_respelled_iff (source : Text) (m m' : Manifest) (pieces : List Text) (l : CodeLine)
    (h : m.problem? source = none) (hl : l.InPieces pieces) (hr : m.Respelled pieces.flatten l m') :
    (∀ source', m'.problem? source' = none) ∧ ∃ units units', m.units = .ok units ∧
      m'.units = .ok units' ∧
        (units'.map (CompilationUnit.outputFile m'.settings.indent) =
            units.map (CompilationUnit.outputFile m.settings.indent) ↔
          KeepsBreaks (pieces ++ [['\n']])) := by
  have ha := problem?_eq_none_iff.1 h
  have ha' := hr.accepted hl.types_eq ha
  refine ⟨fun _ => problem?_eq_none_iff.2 ha', _, _, units_eq ha, units_eq ha', ?_⟩
  have hunit : m'.unitOf = m.unitOf := funext hr.unitOf_eq
  cases hr with
  | @ofClass front rest c c' hm hc =>
    have haccepted : c.Accepted := ha.classes c (by simp [hm])
    have hsame := hc.sameIf_classOf hl haccepted m
    have hpeers : m.peers c' = m.peers c := by
      unfold peers ClassDecl.package
      rw [hc.name_eq]
    have hchanged : m.unitOf c' = { m.unitOf c with classDef := m.classOf c' } := by
      unfold unitOf
      rw [hpeers]
    have hfile := CompilationUnit.outputFile_eq_iff (u := m.unitOf c) hsame m.settings.indent
    rw [← hchanged] at hfile
    -- the other files are built without the body
    rw [hm, ← hfile, hunit]
    simp only [List.map_append, List.map_cons, List.append_cancel_left_eq, List.cons.injEq,
      and_true]

def oneMethod (body : List BodyEntry) : ClassDecl where
  name := "p.A".toList
  methods := [{ name := "run".toList, body }]

def oneBody (body : List BodyEntry) : Manifest where
  classes := [oneMethod body]

theorem respelled_oneBody {body body' : List BodyEntry} (h : BodyEntry.Respelled t l body body') :
    (oneBody body).Respelled t l (oneBody body') :=
  have hc : (oneMethod body).Respelled t l (oneMethod body') :=
    .ofMethod (c := oneMethod body) [] [] rfl h
  .ofClass (m := oneBody body) [] [] rfl hc

/-- A line two blocks deep. -/
def pollingBody (entry : BodyEntry) : List BodyEntry :=
  [.text "load();".toList,
    .block "for (;;)".toList [.block "if (due())".toList [entry], .text "rest();".toList]]

theorem respelled_pollingBody (t : Text) (l : CodeLine) :
    BodyEntry.Respelled t l (pollingBody (.text t)) (pollingBody (.line l)) :=
  .inside [.text "load();".toList] [] _ (.inside [] [.text "rest();".toList] _ (.here [] []))

theorem pollingBody_files :
    (oneBody (pollingBody (.text "poll();".toList))).problem? [] = none ∧
      ∃ units units',
        (oneBody (pollingBody (.text "poll();".toList))).units = .ok units ∧
        (oneBody (pollingBody (.line (.parts [.text "poll(".toList, .text ");".toList])))).units =
          .ok units' ∧
        units'.map (CompilationUnit.outputFile .standard) =
          units.map (CompilationUnit.outputFile .standard) := by
  have h : (oneBody (pollingBody (.text "poll();".toList))).problem? [] = none := by decide +kernel
  obtain ⟨-, units, units', hunits, hunits', hfiles⟩ :=
    files_respelled_iff [] _ _ ["poll(".toList, ");".toList] _ h (.parts _)
      (respelled_oneBody (respelled_pollingBody _ _))
  exact ⟨h, units, units', hunits, hunits', hfiles.2 (by simp [KeepsBreaks, SplitsBreak])⟩

/-- As a plain text a line gives up the carriage return at its end, in another form it keeps it. -/
theorem returnedLine_files :
    (oneBody [.text "go();\r".toList]).problem? [] = none ∧
      (oneBody [.text "go();\r".toList]).Respelled "go();\r".toList (.text "go();\r".toList)
        (oneBody [.line (.text "go();\r".toList)]) ∧
      ∃ u u', (oneBody [.text "go();\r".toList]).units = .ok [u] ∧
        (oneBody [.line (.text "go();\r".toList)]).units = .ok [u'] ∧
        u.render .standard = ("package p;\n\npublic class A \x7b\n" ++
          "    public void run() \x7b\n        go();\n    \x7d\n\x7d\n").toList ∧
        u'.render .standard = ("package p;\n\npublic class A \x7b\n" ++
          "    public void run() \x7b\n        go();\r\n    \x7d\n\x7d\n").toList := by
  have h : (oneBody [.text "go();\r".toList]).problem? [] = none := by decide +kernel
  have h' : (oneBody [.line (.text "go();\r".toList)]).problem? [] = none := by decide +kernel
  refine ⟨h, respelled_oneBody (.here [] []), _, _, units_eq (problem?_eq_none_iff.1 h),
    units_eq (problem?_eq_none_iff.1 h'), ?_, ?_⟩
  · decide +kernel
  · decide +kernel

end Manifest

end JavaSource
