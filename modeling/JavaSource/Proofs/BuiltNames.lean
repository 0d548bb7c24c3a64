import JavaSource.Proofs.LineBreaks
import JavaSource.Proofs.OnePass

/-!
# The classes of a built manifest

Every class that a unit of an accepted manifest mentions was read from an accepted qualified name,
wherever the manifest mentions it: in a type at any depth of arguments and blocks, in a comment, in
an annotation, or as the target of a link.
-/

namespace JavaSource

/-- A class that is read from an accepted name. -/
def ClassName.Proper (c : ClassName) : Prop := ∃ s, IsQualifiedName s ∧ c = ofText s

theorem ClassName.Proper.simple_ne_nil {c : ClassName} (h : c.Proper) : c.simple ≠ [] := by
  obtain ⟨s, hs, rfl⟩ := h
  exact simple_ofText_ne_nil hs

theorem ClassName.Proper.dot_not_mem_simple {c : ClassName} (h : c.Proper) : '.' ∉ c.simple := by
  obtain ⟨s, -, rfl⟩ := h
  exact dot_not_mem_simple_ofText s

theorem ClassName.Proper.slash_not_mem {c : ClassName} (h : c.Proper) :
    '/' ∉ c.simple ∧ '/' ∉ c.qualified := by
  obtain ⟨s, hs, rfl⟩ := h
  exact slash_not_mem_ofText hs

theorem ClassName.Proper.unbroken {c : ClassName} (h : c.Proper) :
    c.simple.Unbroken ∧ c.qualified.Unbroken := by
  obtain ⟨s, hs, rfl⟩ := h
  refine ⟨(hs _ (simple_mem_split s)).unbroken, ?_⟩
  rw [qualified_ofText hs.head?_ne_dot]
  exact hs.unbroken

theorem Imports.unbroken_name (r : Imports) {c : ClassName} (h : c.Proper) :
    (r.name c).Unbroken :=
  Text.unbroken_iff.2 fun _ hx => r.not_mem_name (h.unbroken.2.break_not_mem hx)

theorem proper_annotations {annotations : List Text} (h : ∀ a ∈ annotations, IsQualifiedName a) :
    ∀ c ∈ annotations.map ClassName.ofText, c.Proper := by
  intro c hc
  obtain ⟨a, ha, rfl⟩ := List.mem_map.1 hc
  exact ⟨a, h a ha, rfl⟩

/-! ### Types -/

theorem JavaType.classNames_arrays (n : Nat) (t : JavaType) :
    (JavaType.arrays n t).classNames = t.classNames := by
  induction n with
  | zero => rfl
  | succ n ih => rw [arrays, classNames, ih]

theorem JavaType.classNames_erasure_subset (t : JavaType) :
    t.erasure.classNames ⊆ t.classNames := by
  induction t using JavaType.rec (motive_2 := fun _ => True) with
  | primitive p => exact List.Subset.refl _
  | named c => exact List.Subset.refl _
  | array t ih => simpa only [erasure, classNames] using ih
  | generic base args => simp [erasure, classNames]
  | nil => trivial
  | cons => trivial

namespace TypeExpr

theorem isQualifiedName_of_baseProblem? {base : Text} {hasArgs : Bool}
    (h : baseProblem? base hasArgs = none) (hp : Primitive.ofKeyword? base = none) :
    IsQualifiedName base := by
  unfold baseProblem? at h
  rw [hp] at h
  split at h
  · simp at h
  · simp only [Option.isSome_none, Bool.false_eq_true, if_false, Option.map_eq_none_iff] at h
    exact qualifiedNameProblem?_eq_none_iff.1 h

mutual

theorem proper_toType :
    (t : TypeExpr) → t.problem? = none → ∀ c ∈ t.toType.classNames, c.Proper
  | name raw, h => by
    intro c hc
    rw [toType, JavaType.classNames_arrays, JavaType.ofText] at hc
    cases hp : Primitive.ofKeyword? (splitBrackets raw).1 with
    | some q => simp [hp, JavaType.classNames] at hc
    | none =>
      simp only [hp, JavaType.classNames, List.mem_singleton] at hc
      exact ⟨_, isQualifiedName_of_baseProblem? h hp, hc⟩
  | table raw args, h => by
    have hbase : baseProblem? (splitBrackets raw).1 (!args.isEmpty) = none ∧
        argsProblem? args = none := by
      rw [problem?] at h
      split at h
      · simp at h
      · next hb => exact ⟨hb, h⟩
    intro c hc
    rw [toType, JavaType.classNames_arrays] at hc
    cases hp : Primitive.ofKeyword? (splitBrackets raw).1 with
    | some q => simp [hp, JavaType.classNames] at hc
    | none =>
      have hname := isQualifiedName_of_baseProblem? hbase.1 hp
      simp only [hp] at hc
      split at hc
      · rw [JavaType.classNames, List.mem_singleton] at hc
        exact ⟨_, hname, hc⟩
      · rw [JavaType.classNames, List.mem_cons] at hc
        rcases hc with hc | hc
        · exact ⟨_, hname, hc⟩
        · exact proper_toTypes args hbase.2 c hc

theorem proper_toTypes :
    (ts : List TypeExpr) → argsProblem? ts = none →
      ∀ c ∈ JavaType.classNamesOfArgs (toTypes ts), c.Proper
  | [], _ => by simp [toTypes, JavaType.classNamesOfArgs]
  | t :: ts, h => by
    have hparts : t.problem? = none ∧ argsProblem? ts = none := by
      rw [argsProblem?] at h
      split at h
      · simp at h
      · split at h
        · simp at h
        · next ht => exact ⟨ht, h⟩
    intro c hc
    rw [toTypes, JavaType.classNamesOfArgs, List.mem_append] at hc
    rcases hc with hc | hc
    · exact proper_toType t hparts.1 c hc
    · exact proper_toTypes ts hparts.2 c hc

end

theorem proper_toType_list {ts : List TypeExpr} (h : ∀ t ∈ ts, t.problem? = none) :
    ∀ c ∈ (ts.map toType).flatMap JavaType.classNames, c.Proper := by
  intro c hc
  obtain ⟨u, hu, hc⟩ := List.mem_flatMap.1 hc
  obtain ⟨t, ht, rfl⟩ := List.mem_map.1 hu
  exact proper_toType t (h t ht) c hc

end TypeExpr

/-! ### Code -/

theorem Code.classNames_line (s : Text) : Code.classNames (Code.line s) = [] := rfl

theorem Code.classNames_block (header : Text) (body : Code) :
    Code.classNames (Code.block header body) = Code.classNames body := by
  simp [Code.block, Code.line, Code.classNames, Code.classNamesOfFragment]

theorem CodeLine.classNames_toCode (l : CodeLine) :
    Code.classNames l.toCode = (l.types.map TypeExpr.toType).flatMap JavaType.classNames := by
  cases l with
  | text s => rfl
  | parts ps =>
    unfold toCode types
    induction ps with
    | nil => rfl
    | cons part ps ih =>
      cases part with
      | text s => exact ih
      | type t =>
        simp only [List.map_cons, Code.classNames, ih, LinePart.toFragment,
          Code.classNamesOfFragment, List.filterMap_cons, List.flatMap_cons]

namespace BodyEntry

mutual

theorem classNames_toCode :
    (e : BodyEntry) →
      Code.classNames e.toCode = (e.types.map TypeExpr.toType).flatMap JavaType.classNames
  | text s => rfl
  | line l => by
    rw [toCode, types, Code.classNames_append, Code.classNames_line, List.append_nil,
      CodeLine.classNames_toCode]
  | block header body => by
    rw [toCode, types, Code.classNames_block, classNames_codeOfBody body]

/-- The classes of a body are those of its types, at any depth of blocks. -/
theorem classNames_codeOfBody :
    (es : List BodyEntry) →
      Code.classNames (codeOfBody es) =
        ((typesOfBody es).map TypeExpr.toType).flatMap JavaType.classNames
  | [] => rfl
  | e :: es => by
    rw [codeOfBody, typesOfBody, Code.classNames_append, classNames_toCode e,
      classNames_codeOfBody es, List.map_append, List.flatMap_append]

end

end BodyEntry

/-! ### Members -/

theorem Method.proper_withMember {m : Method} {args : List ArgumentDecl} {throws : List TypeExpr}
    {annotations : List Text} {body : List BodyEntry} {doc : Doc} (hm : m.arguments = [])
    (hreturn : ∀ c ∈ m.returnType.toList.flatMap JavaType.classNames, c.Proper)
    (hs : SignatureAccepted args throws annotations) (hb : BodyAccepted body)
    (hdoc : ∀ c ∈ Doc.classNames doc, c.Proper) :
    ∀ c ∈ ({ m.withMember args throws annotations body with doc } : Method).classNames,
      c.Proper := by
  have hargs : ∀ c ∈ (args.map fun a => a.type.toType).flatMap JavaType.classNames, c.Proper := by
    have htypes : ∀ t ∈ args.map ArgumentDecl.type, t.problem? = none := by
      intro t ht
      obtain ⟨a, ha, rfl⟩ := List.mem_map.1 ht
      exact (hs.argument a ha).type
    have hproper := TypeExpr.proper_toType_list htypes
    rwa [List.map_map] at hproper
  intro c hc
  simp only [Method.classNames, Method.withMember, Method.addArguments_eq, hm, List.nil_append,
    map_type_argumentsFrom, List.flatMap_append, List.mem_append] at hc
  rcases hc with (((hc | hc) | hc) | hc) | hc
  · rcases hc with hc | hc
    · exact hreturn c hc
    · exact hargs c hc
  · exact TypeExpr.proper_toType_list hs.exception c hc
  · rw [BodyEntry.classNames_codeOfBody] at hc
    exact TypeExpr.proper_toType_list hb c hc
  · exact proper_annotations hs.annotation c hc
  · exact hdoc c hc

theorem ConstructorDecl.proper_toMethod {k : ConstructorDecl} (h : k.Accepted) (className : Text)
    {doc : Doc} (hdoc : ∀ c ∈ Doc.classNames doc, c.Proper) :
    ∀ c ∈ ({ k.toMethod className with doc } : Method).classNames, c.Proper :=
  Method.proper_withMember rfl (fun _ hc => absurd hc List.not_mem_nil) h.signature h.body hdoc

theorem MethodDecl.proper_toMethod {inInterface : Bool} {d : MethodDecl}
    (h : d.Accepted inInterface) {doc : Doc} (hdoc : ∀ c ∈ Doc.classNames doc, c.Proper) :
    ∀ c ∈ ({ d.toMethod inInterface with doc } : Method).classNames, c.Proper := by
  refine Method.proper_withMember rfl ?_ h.signature h.body hdoc
  intro c hc
  obtain ⟨u, hu, hc⟩ := List.mem_flatMap.1 hc
  obtain ⟨t, ht, rfl⟩ := Option.map_eq_some_iff.1 (Option.mem_toList.1 hu)
  exact TypeExpr.proper_toType t (h.returns t ht) c hc

theorem FieldDecl.proper_toField {inInterface : Bool} {f : FieldDecl} (h : f.Accepted inInterface)
    {doc : Doc} (hdoc : ∀ c ∈ Doc.classNames doc, c.Proper) :
    ∀ c ∈ ({ f.toField inInterface with doc } : Field).classNames, c.Proper := by
  intro c hc
  simp only [Field.classNames, FieldDecl.toField, List.mem_append] at hc
  rcases hc with (hc | hc) | hc
  · exact TypeExpr.proper_toType f.type h.type c hc
  · cases hi : f.init with
    | none => simp [hi, Code.classNames] at hc
    | some code =>
      simp only [hi, Option.map_some, Option.getD_some, CodeLine.classNames_toCode] at hc
      exact TypeExpr.proper_toType_list (h.init code hi) c hc
  · exact hdoc c hc

/-! ### Documentation -/

namespace Manifest

variable {m : Manifest}

/-- The classes of the reference that a link is built into. -/
theorem proper_memberRef (h : m.Accepted) {link : Text} {t : MemberTarget}
    (ht : m.resolve link = .ok t) : ∀ c ∈ t.memberRef.classNames, c.Proper := by
  obtain ⟨hclass, hmethod⟩ := accepted_of_resolve h ht
  rw [MemberTarget.memberRef_eq]
  intro c hc
  rcases List.mem_cons.1 hc with rfl | hc
  · exact ⟨_, hclass.name, rfl⟩
  · obtain ⟨e, he, hc⟩ := List.mem_flatMap.1 hc
    obtain ⟨a, ha, rfl⟩ := List.mem_map.1 he
    have hproper := TypeExpr.proper_toType a.type (hmethod.signature.argument a ha).type
    exact hproper c (JavaType.classNames_erasure_subset _ hc)

theorem proper_docOf (h : m.Accepted) {doc : List DocPart} (hd : DocAccepted doc) :
    ∀ c ∈ Doc.classNames (m.docOf doc), c.Proper := by
  intro c hc
  obtain ⟨f, hf, hc⟩ := List.mem_flatMap.1 hc
  obtain ⟨part, hpart, rfl⟩ := List.mem_map.1 hf
  cases part with
  | text s => exact absurd hc List.not_mem_nil
  | link t => exact TypeExpr.proper_toType t (hd t hpart) c hc
  | member link =>
    cases hr : m.resolve link with
    | error problem => simp [fragmentOf, hr, DocFragment.classNames] at hc
    | ok target =>
      simp only [fragmentOf, hr] at hc
      exact proper_memberRef h hr c hc

/-! ### Units -/

theorem proper_classOf (h : m.Accepted) {d : ClassDecl} (hd : d ∈ m.classes) :
    ∀ c ∈ (m.classOf d).classNames, c.Proper := by
  have ha := h.classes d hd
  intro c hc
  simp only [ClassDef.classNames, classOf, ClassDecl.toClassDef, List.mem_append,
    List.flatMap_append] at hc
  rcases hc with ((((hc | hc) | hc) | hc) | hc) | hc | hc
  · obtain ⟨u, hu, hc⟩ := List.mem_flatMap.1 hc
    obtain ⟨t, ht, rfl⟩ := Option.map_eq_some_iff.1 (Option.mem_toList.1 hu)
    exact TypeExpr.proper_toType t (ha.superclass t ht).2 c hc
  · exact TypeExpr.proper_toType_list ha.interfaces c hc
  · exact proper_annotations ha.annotations c hc
  · exact proper_docOf h ha.doc c hc
  · obtain ⟨x, hx, hc⟩ := List.mem_flatMap.1 hc
    obtain ⟨f, hf, rfl⟩ := List.mem_map.1 hx
    exact FieldDecl.proper_toField (ha.fields f hf) (proper_docOf h (ha.fields f hf).doc) c hc
  · obtain ⟨x, hx, hc⟩ := List.mem_flatMap.1 hc
    obtain ⟨k, hk, rfl⟩ := List.mem_map.1 hx
    have hk := ha.constructors k hk
    exact ConstructorDecl.proper_toMethod hk _ (proper_docOf h hk.doc) c hc
  · obtain ⟨x, hx, hc⟩ := List.mem_flatMap.1 hc
    obtain ⟨k, hk, rfl⟩ := List.mem_map.1 hx
    have hk := ha.methods k hk
    exact MethodDecl.proper_toMethod hk (proper_docOf h hk.doc) c hc

/-- Every class whose simple name a unit claims was read from an accepted name. -/
theorem proper_claims (h : m.Accepted) {d : ClassDecl} (hd : d ∈ m.classes) :
    ∀ c ∈ (m.unitOf d).claims, c.Proper := by
  intro c hc
  rcases List.mem_append.1 hc with hc | hc
  · rcases List.mem_cons.1 hc with rfl | hc
    · exact ⟨d.name, (h.classes d hd).name, rfl⟩
    · obtain ⟨s, hs, rfl⟩ := List.mem_map.1 hc
      obtain ⟨e, he, rfl⟩ := List.mem_map.1 hs
      obtain ⟨he, hp⟩ := List.mem_filter.1 he
      simp only [Bool.and_eq_true, decide_eq_true_iff] at hp
      refine ⟨e.name, (h.classes e he).name, ?_⟩
      show ClassName.mk d.package e.simpleName = ClassName.mk e.package e.simpleName
      rw [hp.1]
  · exact proper_classOf h hd c hc

/-- Building cannot fail where validation finds no problem: it gives one unit for each class in the
order of declaration, a link leads to a method among those of a class built in the first pass, and
every class that a unit claims has a simple name. -/
theorem units_of_problem?_eq_none (source : Text) (m : Manifest) (h : m.problem? source = none) :
    ∃ classes units,
      (m.classes.mapM fun c => Build.within (.inClass c.name) c.build) = .ok classes ∧
      m.units = .ok units ∧
      (units.map fun u => u.classDef.name) = m.classes.map (fun c => ClassName.ofText c.name) ∧
      (∀ link t, m.resolve link = .ok t → ∃ owner, classes[t.classIndex]? = some owner ∧
        t.classDecl.constructors.length + t.methodIndex < owner.methods.length) ∧
      ∀ u ∈ units, ∀ c ∈ u.claims, c.simple ≠ [] := by
  have ha := problem?_eq_none_iff.1 h
  refine ⟨_, _, buildClasses_eq ha, units_eq ha, ?_, ?_, ?_⟩
  · rw [List.map_map]
    rfl
  · intro link t ht
    obtain ⟨hclass, hmethod⟩ := getElem?_of_resolve ht
    refine ⟨t.classDecl.toClassDef, ?_, ?_⟩
    · rw [List.getElem?_map, hclass]
      rfl
    · obtain ⟨hindex, -⟩ := List.getElem?_eq_some_iff.1 hmethod
      simp only [ClassDecl.toClassDef, List.length_append, List.length_map]
      omega
  · intro u hu c hc
    obtain ⟨d, hd, rfl⟩ := List.mem_map.1 hu
    exact (proper_claims ha hd c hc).simple_ne_nil

/-- Two classes with a link between them, types with arguments, and types inside of blocks. -/
def linkedClasses : Manifest where
  classes :=
    [{ name := "p.A".toList
       superclass := some (.name "r.Base".toList)
       doc := [.text "See ".toList, .member "q.B#run(r.Item[])".toList]
       fields :=
        [{ name := "items".toList
           type := .table "java.util.List".toList [.name "q.B".toList]
           init := some (.parts [.text "new ".toList, .type (.name "java.util.ArrayList".toList)]) }] },
     { name := "q.B".toList
       constructors := [{ args := [{ type := .name "int".toList }] }]
       methods :=
        [{ name := "run".toList
           args := [{ type := .name "r.Item []".toList }]
           throws := [.name "r.Failure".toList]
           body := [.block "try".toList [.line (.parts [.type (.name "p.A".toList)])]] }] }]

theorem linkedClasses_units :
    linkedClasses.problem? [] = none ∧ ∃ units, linkedClasses.units = .ok units ∧
      (units.map fun u => u.classDef.name.qualified) = ["p.A".toList, "q.B".toList] ∧
      ∀ u ∈ units, ∀ c ∈ u.claims, c.simple ≠ [] := by
  have h : linkedClasses.problem? [] = none := by decide +kernel
  obtain ⟨-, units, -, hunits, hnames, -, hsimple⟩ :=
    units_of_problem?_eq_none [] linkedClasses h
  refine ⟨h, units, hunits, ?_, hsimple⟩
  have hqualified := congrArg (List.map ClassName.qualified) hnames
  rw [List.map_map] at hqualified
  exact hqualified

end Manifest

end JavaSource
