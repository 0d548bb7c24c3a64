import JavaSource.Proofs.OnePass

/-!
# Documentation in any order

The documentation of a class is built against classes that are built already, and is then attached
to its own class. A link takes from its target the name and the argument types, which documentation
does not change. So the second pass may take the classes in any order, attach at once what it has
built, and start from classes that carry documentation already: the result is always the class that
its declaration stands for.
-/

namespace JavaSource

/-! ### Classes without their documentation -/

def Field.undocumented (f : Field) : Field := { f with doc := [] }

def Method.undocumented (m : Method) : Method := { m with doc := [] }

def ClassDef.undocumented (c : ClassDef) : ClassDef :=
  { c with
    doc := []
    fields := c.fields.map Field.undocumented
    methods := c.methods.map Method.undocumented }

theorem FieldDecl.undocumented_toField (inInterface : Bool) (f : FieldDecl) (doc : Doc) :
    ({ f.toField inInterface with doc } : Field).undocumented = f.toField inInterface := rfl

theorem Method.undocumented_withMember {m : Method} (hm : m.doc = []) (args : List ArgumentDecl)
    (throws : List TypeExpr) (annotations : List Text) (body : List BodyEntry) (doc : Doc) :
    ({ m.withMember args throws annotations body with doc } : Method).undocumented =
      m.withMember args throws annotations body := by
  simp only [undocumented, withMember, addArguments_eq, hm]

theorem ConstructorDecl.undocumented_toMethod (className : Text) (k : ConstructorDecl)
    (doc : Doc) :
    ({ k.toMethod className with doc } : Method).undocumented = k.toMethod className :=
  Method.undocumented_withMember rfl k.args k.throws k.annotations k.body doc

theorem MethodDecl.undocumented_toMethod (inInterface : Bool) (d : MethodDecl) (doc : Doc) :
    ({ d.toMethod inInterface with doc } : Method).undocumented = d.toMethod inInterface :=
  Method.undocumented_withMember rfl d.args d.throws d.annotations d.body doc

theorem Manifest.undocumented_classOf (m : Manifest) (c : ClassDecl) :
    (m.classOf c).undocumented = c.toClassDef := by
  unfold ClassDef.undocumented classOf ClassDecl.toClassDef
  simp only [List.map_append, List.map_map, Function.comp_def, FieldDecl.undocumented_toField,
    ConstructorDecl.undocumented_toMethod, MethodDecl.undocumented_toMethod]

/-- What is attached replaces all documentation that was there. -/
theorem ClassDef.withDocs_undocumented (c : ClassDef) (docs : ClassDocs) :
    c.undocumented.withDocs docs = c.withDocs docs := by
  unfold withDocs undocumented
  simp only [List.zipWith_map_left]
  rfl

/-! ### Links do not see documentation -/

theorem MemberTarget.built?_undocumented (classes : List ClassDef) (t : MemberTarget) :
    t.built? (classes.map ClassDef.undocumented) =
      (t.built? classes).map fun p => (p.1, p.2.undocumented) := by
  unfold built?
  rw [List.getElem?_map]
  cases classes[t.classIndex]? with
  | none => rfl
  | some owner =>
    simp only [Option.map_some, Option.bind_eq_bind, Option.bind_some, ClassDef.undocumented,
      List.getElem?_map]
    cases owner.methods[t.classDecl.constructors.length + t.methodIndex]? with
    | none => rfl
    | some method => rfl

theorem DocPart.build_undocumented (m : Manifest) (classes : List ClassDef) (part : DocPart) :
    part.build m (classes.map ClassDef.undocumented) = part.build m classes := by
  cases part with
  | text s => rfl
  | link t => rfl
  | member link =>
    cases hr : m.resolve link with
    | error problem => simp only [build, hr]
    | ok target =>
      simp only [build, hr, MemberTarget.built?_undocumented]
      cases target.built? classes with
      | none => rfl
      | some p => rfl

theorem ClassDecl.buildDocs_undocumented (m : Manifest) (classes : List ClassDef)
    (c : ClassDecl) :
    c.buildDocs m (classes.map ClassDef.undocumented) = c.buildDocs m classes := by
  have hdoc : buildDoc m (classes.map ClassDef.undocumented) = buildDoc m classes := by
    funext parts
    unfold buildDoc
    rw [funext (DocPart.build_undocumented m classes)]
  unfold buildDocs
  rw [hdoc]

/-! ### One class after the other -/

namespace Manifest

variable {m : Manifest} {classes : List ClassDef}

/-- Builds the documentation of the class at a position against the classes as they are, and
attaches it to this class. -/
def documentAt (m : Manifest) (classes : List ClassDef) (i : Nat) : Build (List ClassDef) :=
  match m.classes[i]? with
  | none => .ok classes
  | some c => (c.buildDocs m classes).map fun docs => classes.modify i fun d => d.withDocs docs

/-- The classes of a manifest as the first pass builds them, with any documentation on them. -/
def Built (m : Manifest) (classes : List ClassDef) : Prop :=
  classes.map ClassDef.undocumented = m.classes.map ClassDecl.toClassDef

theorem Built.getElem? (hb : m.Built classes) (i : Nat) :
    classes[i]?.map ClassDef.undocumented = m.classes[i]?.map ClassDecl.toClassDef := by
  have hget := congrArg (fun l => l[i]?) hb
  simpa only [List.getElem?_map] using hget

theorem Built.buildDocs_eq (hb : m.Built classes) (h : m.Accepted) {c : ClassDecl}
    (hc : c ∈ m.classes) : c.buildDocs m classes = .ok (m.docsOf c) := by
  rw [← ClassDecl.buildDocs_undocumented, show classes.map ClassDef.undocumented = _ from hb]
  exact Manifest.buildDocs_eq h hc

theorem built_classOf (m : Manifest) : m.Built (m.classes.map m.classOf) := by
  unfold Built
  rw [List.map_map]
  exact List.map_congr_left fun c _ => m.undocumented_classOf c

theorem withDocs_eq_classOf {c : ClassDecl} {d : ClassDef} (hd : d.undocumented = c.toClassDef) :
    d.withDocs (m.docsOf c) = m.classOf c := by
  rw [← ClassDef.withDocs_undocumented, hd, withDocs_eq]

/-- One step settles the class at its position, whatever documentation the classes carry. -/
theorem documentAt_eq (h : m.Accepted) (hb : m.Built classes) (i : Nat) :
    ∃ next, m.documentAt classes i = .ok next ∧ m.Built next ∧
      ∀ j, next[j]? = if j = i then m.classes[j]?.map m.classOf else classes[j]? := by
  have hi := hb.getElem? i
  unfold documentAt
  cases hc : m.classes[i]? with
  | none =>
    rw [hc, Option.map_none, Option.map_eq_none_iff] at hi
    refine ⟨classes, rfl, hb, fun j => ?_⟩
    by_cases hj : j = i
    · rw [if_pos hj, hj, hc, hi, Option.map_none]
    · rw [if_neg hj]
  | some c =>
    rw [hc, Option.map_some] at hi
    obtain ⟨d, hd, hdc⟩ := Option.map_eq_some_iff.1 hi
    have hdocs := hb.buildDocs_eq h (List.mem_of_getElem? hc)
    have hget : ∀ j, (classes.modify i fun d => d.withDocs (m.docsOf c))[j]? =
        if j = i then m.classes[j]?.map m.classOf else classes[j]? := by
      intro j
      by_cases hj : j = i
      · rw [if_pos hj, hj, hc, List.getElem?_modify_eq, hd]
        exact congrArg some (withDocs_eq_classOf hdc)
      · rw [if_neg hj, List.getElem?_modify_ne _ _ (Ne.symm hj)]
    refine ⟨_, by simp only [hdocs]; rfl, ?_, hget⟩
    refine List.ext_getElem? fun j => ?_
    rw [List.getElem?_map, hget, List.getElem?_map]
    by_cases hj : j = i
    · rw [if_pos hj, Option.map_map]
      exact congrArg (fun f => Option.map f m.classes[j]?) (funext m.undocumented_classOf)
    · rw [if_neg hj, hb.getElem? j]

theorem foldlM_documentAt_eq (h : m.Accepted) (hb : m.Built classes) (order : List Nat) :
    ∃ result, order.foldlM m.documentAt classes = .ok result ∧ m.Built result ∧
      ∀ j, result[j]? = if j ∈ order then m.classes[j]?.map m.classOf else classes[j]? := by
  -- Along the order; what is carried is `Built`, so that each step finds its targets.
  induction order generalizing classes with
  | nil =>
    refine ⟨classes, rfl, hb, fun j => ?_⟩
    rw [if_neg List.not_mem_nil]
  | cons i order ih =>
    obtain ⟨next, hnext, hbuilt, hstep⟩ := documentAt_eq h hb i
    obtain ⟨result, hresult, hrest, hrun⟩ := ih hbuilt
    refine ⟨result, ?_, hrest, fun j => ?_⟩
    · rw [List.foldlM_cons, hnext]
      exact hresult
    · rw [hrun j, hstep j]
      by_cases hj : j ∈ order
      · rw [if_pos hj, if_pos (List.mem_cons_of_mem _ hj)]
      · rw [if_neg hj]
        by_cases hji : j = i
        · rw [if_pos hji, if_pos (hji ▸ List.mem_cons_self ..)]
        · rw [if_neg hji, if_neg fun hm => (List.mem_cons.1 hm).elim hji hj]

theorem foldlM_documentAt_eq_classes (h : m.Accepted) (hb : m.Built classes) {order : List Nat}
    (ho : ∀ i, i < m.classes.length → i ∈ order) :
    order.foldlM m.documentAt classes = .ok (m.classes.map m.classOf) := by
  obtain ⟨result, hresult, hbuilt, hrun⟩ := foldlM_documentAt_eq h hb order
  have heq : result = m.classes.map m.classOf := by
    refine List.ext_getElem? fun j => ?_
    rw [List.getElem?_map]
    by_cases hj : j < m.classes.length
    · rw [hrun j, if_pos (ho j hj)]
    · have hnone : m.classes[j]? = none := List.getElem?_eq_none (Nat.le_of_not_lt hj)
      have hout := hbuilt.getElem? j
      rw [hnone, Option.map_none, Option.map_eq_none_iff] at hout
      rw [hnone, hout, Option.map_none]
  rw [hresult, heq]

/-- The units of an accepted manifest are those of its classes, each read off its own declaration:
fields, constructors and methods in their order, each with its own documentation. A link to a
method becomes the class, the name and the erased argument types of the declared method. And the
documentation may be built and attached in any order, on top of any documentation. -/
theorem units_eq_one_pass (source : Text) (m : Manifest) (h : m.problem? source = none) :
    ∃ first, (m.classes.mapM fun c => Build.within (.inClass c.name) c.build) = .ok first ∧
      m.units = .ok (m.classes.map m.unitOf) ∧
      (∀ c ∈ m.classes, ∀ link, .member link ∈ c.docs → ∃ t types, m.resolve link = .ok t ∧
        (t.method.args.mapM fun a => a.type.build) = .ok types ∧
        m.fragmentOf (.member link) = .memberLink
          ⟨.ofText t.classDecl.name, t.method.name, types.map JavaType.erasure⟩) ∧
      ∀ (start : List ClassDef) (order : List Nat), start.map ClassDef.undocumented = first →
        (∀ i, i < m.classes.length → i ∈ order) →
        order.foldlM m.documentAt start = .ok (m.classes.map m.classOf) := by
  have ha := problem?_eq_none_iff.1 h
  refine ⟨_, buildClasses_eq ha, units_eq ha, ?_, ?_⟩
  · intro c hc link hlink
    obtain ⟨t, ht⟩ := ha.links c hc link hlink
    obtain ⟨-, hmethod⟩ := accepted_of_resolve ha ht
    have htypes := mapM_eq_ok fun a hm => TypeExpr.build_eq (hmethod.signature.argument a hm).type
    refine ⟨t, _, ht, htypes, ?_⟩
    simp only [fragmentOf, ht, MemberTarget.memberRef_eq, List.map_map, Function.comp_def]
  · intro start order hstart ho
    exact foldlM_documentAt_eq_classes ha hstart ho

/-- A class with a constructor and an overloaded method, and links to one overload. -/
def overloadedTarget : Manifest where
  classes :=
    [{ name := "p.A".toList
       constructors := [{ doc := [.member "q.B#run(r.Item[])".toList] }]
       methods := [{ name := "main".toList, doc := [.text "Starts.".toList] }] },
     { name := "q.B".toList
       constructors := [{ doc := [.text "Made by ".toList, .member "p.A#main".toList] }]
       methods :=
        [{ name := "run".toList, args := [{ type := .name "int".toList }] },
         { name := "run".toList
           args := [{ type := .table "r.Item[]".toList [.name "r.Part".toList] }]
           doc := [.member "q.B#run(int)".toList] }] }]

theorem overloadedTarget_one_pass :
    overloadedTarget.problem? [] = none ∧
      overloadedTarget.units = .ok (overloadedTarget.classes.map overloadedTarget.unitOf) ∧
      Doc.classNames (overloadedTarget.docOf [.member "q.B#run(r.Item[])".toList]) =
        [ClassName.ofText "q.B".toList, ClassName.ofText "r.Item".toList] ∧
      [1, 0].foldlM overloadedTarget.documentAt
          (overloadedTarget.classes.map overloadedTarget.classOf) =
        .ok (overloadedTarget.classes.map overloadedTarget.classOf) := by
  have h : overloadedTarget.problem? [] = none := by decide +kernel
  obtain ⟨first, hfirst, hunits, -, horder⟩ := units_eq_one_pass [] overloadedTarget h
  have hbuilt := buildClasses_eq (problem?_eq_none_iff.1 h)
  have hstart := (built_classOf overloadedTarget).trans
    (Except.ok.inj (hbuilt.symm.trans hfirst))
  refine ⟨h, hunits, by decide +kernel, horder _ [1, 0] hstart ?_⟩
  decide

end Manifest

end JavaSource
