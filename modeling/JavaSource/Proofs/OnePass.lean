import JavaSource.Manifest.Building
import JavaSource.Proofs.Acceptance
import Mathlib.Data.List.Forall2

/-!
# What an accepted manifest is built into

Each declaration of a manifest stands for a declaration of the generated class, which can be read
off without a second pass: a link to a method takes the signature of the declared method, not of a
built one. The building of an accepted manifest never fails and gives just these declarations.
-/

namespace JavaSource

/-! ### Declarations without documentation -/

def LinePart.toFragment : LinePart → CodeFragment
  | .text s => .text s
  | .type t => .type t.toType

def CodeLine.toCode : CodeLine → Code
  | .text s => [.text s]
  | .parts ps => ps.map LinePart.toFragment

namespace BodyEntry

mutual

def toCode : BodyEntry → Code
  | text s => Code.line s
  | line l => l.toCode ++ Code.line []
  | block header body => Code.block header (codeOfBody body)

def codeOfBody : List BodyEntry → Code
  | [] => []
  | e :: es => e.toCode ++ codeOfBody es

end

end BodyEntry

def Method.addArguments (m : Method) (args : List ArgumentDecl) : Method :=
  args.foldl (fun m a => m.addArgument a.name a.type.toType) m

def argumentsFrom : (position : Nat) → List ArgumentDecl → List Argument
  | _, [] => []
  | position, a :: rest =>
    ⟨a.name.getD (Method.defaultArgumentName position), a.type.toType⟩ ::
      argumentsFrom (position + 1) rest

/-- A method with the signature and the body that a member declares. -/
def Method.withMember (m : Method) (args : List ArgumentDecl) (throws : List TypeExpr)
    (annotations : List Text) (body : List BodyEntry) : Method :=
  { m.addArguments args with
    exceptions := throws.map TypeExpr.toType
    annotations := annotations.map ClassName.ofText
    body := BodyEntry.codeOfBody body }

def ConstructorDecl.toMethod (className : Text) (c : ConstructorDecl) : Method :=
  Method.withMember
    { name := className, isConstructor := true
      visibility := c.visibility.getD .publicAccess }
    c.args c.throws c.annotations c.body

def MethodDecl.toMethod (inInterface : Bool) (m : MethodDecl) : Method :=
  Method.withMember
    { name := m.name, returnType := m.returns.map TypeExpr.toType, visibility := m.access
      isStatic := m.isStatic, isFinal := m.isFinal, isAbstract := m.buildsAbstract inInterface
      isDefault := m.buildsDefault inInterface }
    m.args m.throws m.annotations m.body

def FieldDecl.toField (inInterface : Bool) (f : FieldDecl) : Field where
  name := f.name
  type := f.type.toType
  init := f.init.map CodeLine.toCode
  visibility := f.visibility.getD (if inInterface then .publicAccess else .privateAccess)
  isStatic := f.isStatic
  isFinal := f.isFinal

/-- The class without documentation: constructors first, then methods. -/
def ClassDecl.toClassDef (c : ClassDecl) : ClassDef where
  name := .ofText c.name
  kind := if c.isInterface then .interface else .ordinary
  visibility := c.visibility.getD .publicAccess
  isFinal := c.isFinal
  isAbstract := c.isAbstract
  superclass := c.superclass.map TypeExpr.toType
  interfaces := c.interfaces.map TypeExpr.toType
  annotations := c.annotations.map ClassName.ofText
  fields := c.fields.map (FieldDecl.toField c.isInterface)
  methods := c.constructors.map (ConstructorDecl.toMethod c.simpleName) ++
    c.methods.map (MethodDecl.toMethod c.isInterface)

theorem Method.addArguments_eq (m : Method) (args : List ArgumentDecl) :
    m.addArguments args =
      { m with arguments := m.arguments ++ argumentsFrom m.arguments.length args } := by
  induction args generalizing m with
  | nil => simp [addArguments, argumentsFrom]
  | cons a args ih =>
    have hrest := ih (m.addArgument a.name a.type.toType)
    unfold addArguments at hrest ⊢
    rw [List.foldl_cons, hrest]
    simp [addArgument, argumentsFrom]

theorem map_type_argumentsFrom (position : Nat) (args : List ArgumentDecl) :
    (argumentsFrom position args).map Argument.type = args.map fun a => a.type.toType := by
  induction args generalizing position with
  | nil => rfl
  | cons a args ih => simp [argumentsFrom, ih]

/-! ### Documentation and units -/

/-- The reference to the method that a link leads to. -/
def MemberTarget.memberRef (t : MemberTarget) : MemberRef :=
  (t.method.toMethod t.classDecl.isInterface).memberRef (.ofText t.classDecl.name)

theorem MemberTarget.memberRef_eq (t : MemberTarget) :
    t.memberRef = ⟨.ofText t.classDecl.name, t.method.name,
      t.method.args.map fun a => a.type.toType.erasure⟩ := by
  have hargs := map_type_argumentsFrom 0 t.method.args
  have herased := congrArg (List.map JavaType.erasure) hargs
  simp only [List.map_map, Function.comp_def] at herased
  simp only [memberRef, Method.memberRef, MethodDecl.toMethod, Method.withMember,
    Method.addArguments_eq, List.nil_append, List.length_nil, herased]

namespace Manifest

/-- A part of a comment; a link that leads nowhere is no text. -/
def fragmentOf (m : Manifest) : DocPart → DocFragment
  | .text s => .text s
  | .link t => .typeLink t.toType
  | .member s =>
    match m.resolve s with
    | .ok target => .memberLink target.memberRef
    | .error _ => .text []

def docOf (m : Manifest) (parts : List DocPart) : Doc := parts.map m.fragmentOf

/-- The class with its documentation and that of its members. -/
def classOf (m : Manifest) (c : ClassDecl) : ClassDef :=
  { c.toClassDef with
    doc := m.docOf c.doc
    fields := c.fields.map fun f => { f.toField c.isInterface with doc := m.docOf f.doc }
    methods :=
      (c.constructors.map fun k => { k.toMethod c.simpleName with doc := m.docOf k.doc }) ++
        c.methods.map fun d => { d.toMethod c.isInterface with doc := m.docOf d.doc } }

def unitOf (m : Manifest) (c : ClassDecl) : CompilationUnit :=
  ⟨m.classOf c, m.settings.header, m.peers c⟩

/-- Behind the constructors of a class stand the methods that it declares. -/
theorem drop_methods_classOf (m : Manifest) (c : ClassDecl) :
    (m.classOf c).methods.drop c.constructors.length =
      c.methods.map fun d => { d.toMethod c.isInterface with doc := m.docOf d.doc } :=
  List.drop_left' (by simp)

end Manifest

/-! ### Building what is accepted -/

theorem mapM_eq_ok {ε α β : Type} {f : α → Except ε β} {g : α → β} {l : List α}
    (h : ∀ a ∈ l, f a = .ok (g a)) : l.mapM f = .ok (l.map g) := by
  induction l with
  | nil => rfl
  | cons a l ih =>
    have hhead := h a (List.mem_cons_self ..)
    have htail := ih fun b hb => h b (List.mem_cons_of_mem _ hb)
    rw [List.mapM_cons, hhead, htail]
    rfl

theorem optionMapM_eq_ok {ε α β : Type} {f : α → Except ε β} {g : α → β} {o : Option α}
    (h : ∀ a, o = some a → f a = .ok (g a)) : o.mapM f = .ok (o.map g) := by
  cases o with
  | none => rfl
  | some a =>
    rw [Option.mapM_some, h a rfl]
    rfl

theorem TypeExpr.build_eq {t : TypeExpr} (h : t.problem? = none) : t.build = .ok t.toType := by
  unfold TypeExpr.build
  rw [h]

theorem mapM_build_eq {ts : List TypeExpr} (h : ∀ t ∈ ts, t.problem? = none) :
    ts.mapM TypeExpr.build = .ok (ts.map TypeExpr.toType) :=
  mapM_eq_ok fun t ht => TypeExpr.build_eq (h t ht)

theorem CodeLine.build_eq {l : CodeLine} (h : ∀ t ∈ l.types, t.problem? = none) :
    l.build = .ok l.toCode := by
  cases l with
  | text s => rfl
  | parts ps =>
    refine mapM_eq_ok fun part hpart => ?_
    cases part with
    | text s => rfl
    | type t =>
      have ht : t ∈ (CodeLine.parts ps).types := List.mem_filterMap.2 ⟨.type t, hpart, rfl⟩
      simp only [LinePart.build, TypeExpr.build_eq (h t ht)]
      rfl

namespace BodyEntry

mutual

theorem build_eq :
    (e : BodyEntry) → (∀ t ∈ e.types, t.problem? = none) → e.build = .ok e.toCode
  | text s, _ => rfl
  | line l, h => by
    simp only [build, CodeLine.build_eq h]
    rfl
  | block header body, h => by
    simp only [build, buildBody_eq body h]
    rfl

theorem buildBody_eq :
    (es : List BodyEntry) → (∀ t ∈ typesOfBody es, t.problem? = none) →
      buildBody es = .ok (codeOfBody es)
  | [], _ => rfl
  | e :: es, h => by
    have hhead := build_eq e fun t ht => h t (List.mem_append_left _ ht)
    have htail := buildBody_eq es fun t ht => h t (List.mem_append_right _ ht)
    rw [buildBody, hhead, htail]
    rfl

end

end BodyEntry

theorem buildArguments_eq {args : List ArgumentDecl} (h : ∀ a ∈ args, a.Accepted) (m : Method) :
    buildArguments m args = .ok (m.addArguments args) := by
  induction args generalizing m with
  | nil => rfl
  | cons a args ih =>
    have hhead := TypeExpr.build_eq (h a (List.mem_cons_self ..)).type
    have htail := ih fun b hb => h b (List.mem_cons_of_mem _ hb)
    unfold buildArguments at htail ⊢
    rw [List.foldlM_cons, hhead]
    exact htail _

theorem buildMember_eq {args : List ArgumentDecl} {throws : List TypeExpr}
    {annotations : List Text} {body : List BodyEntry}
    (hs : SignatureAccepted args throws annotations) (hb : BodyAccepted body) (m : Method) :
    buildMember m args throws annotations body =
      .ok (m.withMember args throws annotations body) := by
  rw [buildMember, buildArguments_eq hs.argument, mapM_build_eq hs.exception,
    BodyEntry.buildBody_eq body hb]
  rfl

theorem ConstructorDecl.build_eq {c : ConstructorDecl} (h : c.Accepted) (className : Text) :
    c.build className = .ok (c.toMethod className) :=
  buildMember_eq h.signature h.body _

theorem MethodDecl.build_eq {inInterface : Bool} {m : MethodDecl} (h : m.Accepted inInterface) :
    m.build inInterface = .ok (m.toMethod inInterface) := by
  have hreturns := optionMapM_eq_ok fun t ht => TypeExpr.build_eq (h.returns t ht)
  rw [MethodDecl.build, hreturns]
  exact buildMember_eq h.signature h.body _

theorem FieldDecl.build_eq {inInterface : Bool} {f : FieldDecl} (h : f.Accepted inInterface) :
    f.build inInterface = .ok (f.toField inInterface) := by
  have hinit := optionMapM_eq_ok fun code hc => CodeLine.build_eq (h.init code hc)
  rw [FieldDecl.build, TypeExpr.build_eq h.type, hinit]
  rfl

theorem ClassDecl.build_eq {c : ClassDecl} (h : c.Accepted) : c.build = .ok c.toClassDef := by
  have hsuperclass := optionMapM_eq_ok fun t ht => TypeExpr.build_eq (h.superclass t ht).2
  have hinterfaces := mapM_build_eq h.interfaces
  have hfields := mapM_eq_ok fun f hf => FieldDecl.build_eq (h.fields f hf)
  have hconstructors := mapM_eq_ok fun k hk =>
    ConstructorDecl.build_eq (h.constructors k hk) c.simpleName
  have hmethods : (c.methods.mapM fun m =>
        Build.within (.inMethod m.name) (m.build c.isInterface)) =
      .ok (c.methods.map (MethodDecl.toMethod c.isInterface)) := by
    refine mapM_eq_ok fun m hm => ?_
    rw [MethodDecl.build_eq (h.methods m hm)]
    rfl
  rw [ClassDecl.build, hsuperclass, hinterfaces, hfields, hconstructors, hmethods]
  rfl

/-! ### Links -/

namespace Manifest

variable {m : Manifest}

/-- A link leads to a class of the manifest and to a method of that class, at their positions. -/
theorem getElem?_of_resolve {link : Text} {t : MemberTarget} (h : m.resolve link = .ok t) :
    m.classes[t.classIndex]? = some t.classDecl ∧
      t.classDecl.methods[t.methodIndex]? = some t.method := by
  unfold resolve at h
  cases hl : MemberLink.ofText? link with
  | none => simp [hl] at h
  | some l =>
    cases hc : m.findClass? l.className with
    | none => simp [hl, hc] at h
    | some found =>
      obtain ⟨i, c⟩ := found
      have hclass : m.classes[i]? = some c := by
        obtain ⟨q, hq, hqi⟩ := Option.map_eq_some_iff.1 hc
        obtain ⟨rfl, rfl⟩ := Prod.mk.inj hqi
        exact List.mem_zipIdx_iff_getElem?.1 (List.mem_of_find?_eq_some hq)
      simp only [hl, hc, pick] at h
      -- only the case of a single fitting method gives a target
      split at h
      · simp at h
      · split at h
        · simp at h
        · next q hq =>
          have hmem : q ∈ c.methods.zipIdx :=
            (List.mem_filter.1 (hq ▸ List.mem_singleton.2 rfl : q ∈ _)).1
          cases h
          exact ⟨hclass, List.mem_zipIdx_iff_getElem?.1 hmem⟩
        · simp at h

theorem accepted_of_resolve (h : m.Accepted) {link : Text} {t : MemberTarget}
    (ht : m.resolve link = .ok t) :
    t.classDecl.Accepted ∧ t.method.Accepted t.classDecl.isInterface := by
  obtain ⟨hclass, hmethod⟩ := getElem?_of_resolve ht
  have hc := h.classes _ (List.mem_of_getElem? hclass)
  exact ⟨hc, hc.methods _ (List.mem_of_getElem? hmethod)⟩

/-- The built classes hold the method that a link leads to, behind the constructors. -/
theorem built?_eq {link : Text} {t : MemberTarget} (h : m.resolve link = .ok t) :
    t.built? (m.classes.map ClassDecl.toClassDef) =
      some (.ofText t.classDecl.name, t.method.toMethod t.classDecl.isInterface) := by
  obtain ⟨hclass, hmethod⟩ := getElem?_of_resolve h
  have hbuilt : t.classDecl.toClassDef.methods[t.classDecl.constructors.length + t.methodIndex]? =
      some (t.method.toMethod t.classDecl.isInterface) := by
    unfold ClassDecl.toClassDef
    dsimp only
    rw [List.getElem?_append_right (by simp)]
    simp [hmethod]
  unfold MemberTarget.built?
  rw [List.getElem?_map, hclass]
  simp only [Option.map_some, Option.bind_eq_bind, Option.bind_some, hbuilt]
  rfl

theorem docPart_build_eq {part : DocPart} (ht : ∀ t, part = .link t → t.problem? = none)
    (hl : ∀ link, part = .member link → ∃ target, m.resolve link = .ok target) :
    part.build m (m.classes.map ClassDecl.toClassDef) = .ok (m.fragmentOf part) := by
  cases part with
  | text s => rfl
  | link t =>
    rw [DocPart.build, TypeExpr.build_eq (ht t rfl)]
    rfl
  | member link =>
    obtain ⟨target, htarget⟩ := hl link rfl
    simp only [DocPart.build, fragmentOf, htarget, built?_eq htarget]
    rfl

theorem buildDoc_eq {doc : List DocPart} (hd : DocAccepted doc)
    (hl : ∀ link, .member link ∈ doc → ∃ target, m.resolve link = .ok target) :
    buildDoc m (m.classes.map ClassDecl.toClassDef) doc = .ok (m.docOf doc) := by
  refine mapM_eq_ok fun part hpart => docPart_build_eq ?_ ?_
  · rintro t rfl
    exact hd t hpart
  · rintro link rfl
    exact hl link hpart

def docsOf (m : Manifest) (c : ClassDecl) : ClassDocs where
  classDoc := m.docOf c.doc
  fields := c.fields.map fun f => m.docOf f.doc
  methods := (c.constructors.map fun k => m.docOf k.doc) ++ c.methods.map fun d => m.docOf d.doc

theorem buildDocs_eq (h : m.Accepted) {c : ClassDecl} (hc : c ∈ m.classes) :
    c.buildDocs m (m.classes.map ClassDecl.toClassDef) = .ok (m.docsOf c) := by
  have ha := h.classes c hc
  have hdoc : ∀ doc : List DocPart, DocAccepted doc → doc ⊆ c.docs →
      buildDoc m (m.classes.map ClassDecl.toClassDef) doc = .ok (m.docOf doc) :=
    fun doc hd hsub => buildDoc_eq hd fun link hm => h.links c hc link (hsub hm)
  have hclass := hdoc c.doc ha.doc c.doc_subset_docs
  have hfields := mapM_eq_ok fun f hf =>
    hdoc f.doc (ha.fields f hf).doc (ClassDecl.fieldDoc_subset_docs hf)
  have hconstructors := mapM_eq_ok fun k hk =>
    hdoc k.doc (ha.constructors k hk).doc (ClassDecl.constructorDoc_subset_docs hk)
  have hmethods := mapM_eq_ok fun d hd =>
    hdoc d.doc (ha.methods d hd).doc (ClassDecl.methodDoc_subset_docs hd)
  rw [ClassDecl.buildDocs, hconstructors, hmethods, hclass, hfields]
  rfl

/-! ### Units -/

theorem withDocs_eq (m : Manifest) (c : ClassDecl) :
    c.toClassDef.withDocs (m.docsOf c) = m.classOf c := by
  unfold ClassDef.withDocs classOf docsOf ClassDecl.toClassDef
  simp only [List.zipWith_map, List.zipWith_self, ClassDef.mk.injEq, true_and]
  rw [List.zipWith_append (by simp)]
  simp only [List.zipWith_map, List.zipWith_self]

theorem buildClasses_eq (h : m.Accepted) :
    (m.classes.mapM fun c => Build.within (.inClass c.name) c.build) =
      .ok (m.classes.map ClassDecl.toClassDef) := by
  refine mapM_eq_ok fun c hc => ?_
  rw [ClassDecl.build_eq (h.classes c hc)]
  rfl

/-- An accepted manifest is built into the units of its classes. -/
theorem units_eq (h : m.Accepted) : m.units = .ok (m.classes.map m.unitOf) := by
  have hdocs : (m.classes.mapM fun c => Build.within (.inDocumentation c.name)
        (c.buildDocs m (m.classes.map ClassDecl.toClassDef))) =
      .ok (m.classes.map m.docsOf) := by
    refine mapM_eq_ok fun c hc => ?_
    rw [buildDocs_eq h hc]
    rfl
  have hdefs : (m.classes.map ClassDecl.toClassDef).zipWith ClassDef.withDocs
      (m.classes.map m.docsOf) = m.classes.map m.classOf := by
    simp only [List.zipWith_map, List.zipWith_self, withDocs_eq]
  rw [units, buildClasses_eq h]
  simp only [bind, Except.bind, hdocs, pure, Except.pure, hdefs]
  rw [List.zipWith_map_left, List.zipWith_self]
  rfl

/-- What every class has in common with the unit read off it holds along the units that are
built. -/
theorem exists_units_forall₂ (h : m.Accepted) {R : ClassDecl → CompilationUnit → Prop}
    (hR : ∀ c ∈ m.classes, R c (m.unitOf c)) :
    ∃ units, m.units = .ok units ∧ List.Forall₂ R m.classes units := by
  refine ⟨_, units_eq h, ?_⟩
  rw [List.forall₂_map_right_iff, List.forall₂_same]
  exact hR

end Manifest

end JavaSource
