import JavaSource.Proofs.Acceptance

/-!
# Well-formed manifests

The rules for a manifest, each said once over all the declarations that it concerns and without the
order of the checks. Validation walks through the declarations and stops at the first problem; it
finds none exactly in the manifests that keep every rule.
-/

namespace JavaSource

/-! ### Types that stand in a declaration -/

/-- A type is a part of a line of code. -/
inductive CodeLine.Mentions (t : TypeExpr) : CodeLine → Prop
  | parts {ps : List LinePart} : .type t ∈ ps → Mentions t (.parts ps)

theorem CodeLine.mem_types_iff {t : TypeExpr} {l : CodeLine} : t ∈ l.types ↔ l.Mentions t := by
  constructor
  · intro h
    cases l with
    | text s => exact absurd h List.not_mem_nil
    | parts ps =>
      obtain ⟨part, hpart, ht⟩ := List.mem_filterMap.1 h
      cases part with
      | text s => simp at ht
      | type u =>
        have hu : u = t := Option.some.inj ht
        exact .parts (hu ▸ hpart)
  · rintro ⟨hpart⟩
    exact List.mem_filterMap.2 ⟨.type t, hpart, rfl⟩

namespace BodyEntry

/-- A type stands in an entry of a body, at any depth of blocks. -/
inductive Mentions (t : TypeExpr) : BodyEntry → Prop
  | line {l : CodeLine} : l.Mentions t → Mentions t (.line l)
  | block {header : Text} {body : List BodyEntry} {e : BodyEntry} :
      e ∈ body → Mentions t e → Mentions t (.block header body)

mutual

theorem mem_types_iff {t : TypeExpr} : (e : BodyEntry) → (t ∈ e.types ↔ e.Mentions t)
  | text s => by
    simp only [types, List.not_mem_nil, false_iff]
    intro h
    cases h
  | line l => by
    rw [types, CodeLine.mem_types_iff]
    constructor
    · exact .line
    · rintro ⟨h⟩
      assumption
  | block header body => by
    rw [types, mem_typesOfBody_iff body]
    constructor
    · rintro ⟨e, he, ht⟩
      exact .block he ht
    · intro h
      cases h with
      | block he ht => exact ⟨_, he, ht⟩

theorem mem_typesOfBody_iff {t : TypeExpr} :
    (es : List BodyEntry) → (t ∈ typesOfBody es ↔ ∃ e ∈ es, e.Mentions t)
  | [] => by simp [typesOfBody]
  | e :: es => by
    rw [typesOfBody, List.mem_append, mem_types_iff e, mem_typesOfBody_iff es]
    simp only [List.mem_cons, exists_eq_or_imp]

end

end BodyEntry

/-- What a constructor and a method both declare. -/
structure Callable where
  args : List ArgumentDecl
  throws : List TypeExpr
  annotations : List Text
  body : List BodyEntry

def ConstructorDecl.callable (k : ConstructorDecl) : Callable :=
  ⟨k.args, k.throws, k.annotations, k.body⟩

def MethodDecl.callable (d : MethodDecl) : Callable :=
  ⟨d.args, d.throws, d.annotations, d.body⟩

/-- The name of an argument at a position. -/
def ArgumentDecl.nameAt (position : Nat) (a : ArgumentDecl) : Text :=
  a.name.getD (Method.defaultArgumentName position)

theorem argumentNames_eq_mapIdx (position : Nat) (args : List ArgumentDecl) :
    argumentNames position args = args.mapIdx fun i a => a.nameAt (position + i) := by
  induction args generalizing position with
  | nil => rfl
  | cons a rest ih =>
    have hshift : ∀ i, position + 1 + i = position + (i + 1) := by omega
    rw [argumentNames, ih, List.mapIdx_cons]
    simp only [hshift]
    rfl

namespace ClassDecl

/-- The constructors and methods of a class. -/
def callables (c : ClassDecl) : List Callable :=
  c.constructors.map ConstructorDecl.callable ++ c.methods.map MethodDecl.callable

/-- A type stands somewhere in a class, its members and their documentation included. -/
inductive Mentions (t : TypeExpr) (c : ClassDecl) : Prop
  | superclass : c.superclass = some t → Mentions t c
  | interface : t ∈ c.interfaces → Mentions t c
  | field {f : FieldDecl} : f ∈ c.fields → f.type = t → Mentions t c
  | init {f : FieldDecl} {code : CodeLine} :
      f ∈ c.fields → f.init = some code → code.Mentions t → Mentions t c
  | returns {d : MethodDecl} : d ∈ c.methods → d.returns = some t → Mentions t c
  | argument {k : Callable} {a : ArgumentDecl} :
      k ∈ c.callables → a ∈ k.args → a.type = t → Mentions t c
  | exception {k : Callable} : k ∈ c.callables → t ∈ k.throws → Mentions t c
  | body {k : Callable} {e : BodyEntry} :
      k ∈ c.callables → e ∈ k.body → e.Mentions t → Mentions t c
  | link : .link t ∈ c.docs → Mentions t c

/-! ### The rules -/

/-- The rules for a class that do not depend on other classes. -/
structure WellFormed (c : ClassDecl) : Prop where
  name : IsQualifiedName c.name
  extensible : ¬(c.isFinal = true ∧ c.isAbstract = true)
  ofInterface : c.isInterface = true → c.superclass = none ∧ c.constructors = []
  memberNames : ∀ n ∈ c.fields.map FieldDecl.name ++ c.methods.map MethodDecl.name, IsIdentifier n
  argumentNames : ∀ k ∈ c.callables, ∀ a ∈ k.args, ∀ n, a.name = some n → IsIdentifier n
  annotations : ∀ a ∈ c.annotations ++ c.callables.flatMap Callable.annotations, IsQualifiedName a
  distinctFields : (c.fields.map FieldDecl.name).Nodup
  distinctArguments : ∀ k ∈ c.callables, (k.args.mapIdx ArgumentDecl.nameAt).Nodup
  types : ∀ t, c.Mentions t → t.problem? = none
  interfaceFields : c.isInterface = true → ∀ f ∈ c.fields, f.init ≠ none ∧
    f.visibility ≠ some .privateAccess ∧ f.visibility ≠ some .protectedAccess
  abstractMethods : ∀ d ∈ c.methods, d.isAbstract = true →
    d.body = [] ∧ d.isFinal = false ∧ d.isStatic = false
  interfaceMethods : c.isInterface = true → ∀ d ∈ c.methods, d.isFinal = false ∧
    d.visibility ≠ some .protectedAccess ∧ ¬(d.visibility = some .privateAccess ∧ d.body = [])

/-! ### Rules and checks of a class -/

variable {c : ClassDecl}

theorem constructor_mem_callables {k : ConstructorDecl} (hk : k ∈ c.constructors) :
    k.callable ∈ c.callables :=
  List.mem_append_left _ (List.mem_map.2 ⟨k, hk, rfl⟩)

theorem method_mem_callables {d : MethodDecl} (hd : d ∈ c.methods) : d.callable ∈ c.callables :=
  List.mem_append_right _ (List.mem_map.2 ⟨d, hd, rfl⟩)

theorem Accepted.callable (h : c.Accepted) {k : Callable} (hk : k ∈ c.callables) :
    SignatureAccepted k.args k.throws k.annotations ∧ BodyAccepted k.body := by
  rcases List.mem_append.1 hk with hk | hk
  · obtain ⟨x, hx, rfl⟩ := List.mem_map.1 hk
    have hx := h.constructors x hx
    exact ⟨hx.signature, hx.body⟩
  · obtain ⟨x, hx, rfl⟩ := List.mem_map.1 hk
    have hx := h.methods x hx
    exact ⟨hx.signature, hx.body⟩

theorem Accepted.link (h : c.Accepted) {t : TypeExpr} (ht : .link t ∈ c.docs) :
    t.problem? = none := by
  rcases mem_docs_iff.1 ht with ht | ⟨f, hf, ht⟩ | ⟨k, hk, ht⟩ | ⟨d, hd, ht⟩
  · exact h.doc t ht
  · exact (h.fields f hf).doc t ht
  · exact (h.constructors k hk).doc t ht
  · exact (h.methods d hd).doc t ht

theorem Accepted.mentioned (h : c.Accepted) {t : TypeExpr} (ht : c.Mentions t) :
    t.problem? = none := by
  cases ht with
  | superclass hs => exact (h.superclass t hs).2
  | interface hi => exact h.interfaces t hi
  | field hf he => exact he ▸ (h.fields _ hf).type
  | init hf hi hm => exact (h.fields _ hf).init _ hi t (CodeLine.mem_types_iff.2 hm)
  | returns hd hr => exact (h.methods _ hd).returns t hr
  | argument hk ha he => exact he ▸ ((h.callable hk).1.argument _ ha).type
  | exception hk ht => exact (h.callable hk).1.exception t ht
  | body hk he hm => exact (h.callable hk).2 t ((BodyEntry.mem_typesOfBody_iff _).2 ⟨_, he, hm⟩)
  | link hl => exact h.link hl

theorem Accepted.wellFormed (h : c.Accepted) : c.WellFormed where
  name := h.name
  extensible := h.extensible
  ofInterface := by
    intro hi
    refine ⟨?_, h.ofInterface hi⟩
    cases hs : c.superclass with
    | none => rfl
    | some t =>
      have hclass := (h.superclass t hs).1
      rw [hi] at hclass
      exact absurd hclass.symm Bool.false_ne_true
  memberNames := by
    intro n hn
    rcases List.mem_append.1 hn with hn | hn
    · obtain ⟨f, hf, rfl⟩ := List.mem_map.1 hn
      exact (h.fields f hf).name
    · obtain ⟨d, hd, rfl⟩ := List.mem_map.1 hn
      exact (h.methods d hd).name
  argumentNames := fun k hk a ha => ((h.callable hk).1.argument a ha).name
  annotations := by
    intro a ha
    rcases List.mem_append.1 ha with ha | ha
    · exact h.annotations a ha
    · obtain ⟨k, hk, ha⟩ := List.mem_flatMap.1 ha
      have hs := (h.callable hk).1
      exact hs.annotation a ha
  distinctFields := h.fieldNames
  distinctArguments := by
    intro k hk
    have hdistinct := (h.callable hk).1.distinct
    rw [argumentNames_eq_mapIdx] at hdistinct
    simpa only [Nat.zero_add] using hdistinct
  types := fun t ht => h.mentioned ht
  interfaceFields := fun hi f hf => ⟨(h.fields f hf).valued hi, (h.fields f hf).visible hi⟩
  abstractMethods := fun d hd => (h.methods d hd).overridable
  interfaceMethods := by
    intro hi d hd
    obtain ⟨hfinal, hprotected, hprivate⟩ := (h.methods d hd).implementable hi
    exact ⟨hfinal, hprotected, fun hb => hprivate hb.1 hb.2⟩

namespace WellFormed

theorem signature (w : c.WellFormed) {k : Callable} (hk : k ∈ c.callables) :
    SignatureAccepted k.args k.throws k.annotations where
  argument := fun a ha => ⟨w.argumentNames k hk a ha, w.types _ (.argument hk ha rfl)⟩
  distinct := by
    rw [argumentNames_eq_mapIdx]
    simpa only [Nat.zero_add] using w.distinctArguments k hk
  exception := fun t ht => w.types t (.exception hk ht)
  annotation := fun a ha =>
    w.annotations a (List.mem_append_right _ (List.mem_flatMap.2 ⟨k, hk, ha⟩))

theorem body (w : c.WellFormed) {k : Callable} (hk : k ∈ c.callables) : BodyAccepted k.body := by
  intro t ht
  obtain ⟨e, he, hm⟩ := (BodyEntry.mem_typesOfBody_iff k.body).1 ht
  exact w.types t (.body hk he hm)

theorem doc (w : c.WellFormed) {doc : List DocPart} (h : doc ⊆ c.docs) : DocAccepted doc :=
  fun t ht => w.types t (.link (h ht))

theorem field (w : c.WellFormed) {f : FieldDecl} (hf : f ∈ c.fields) :
    f.Accepted c.isInterface where
  name := w.memberNames _ (List.mem_append_left _ (List.mem_map.2 ⟨f, hf, rfl⟩))
  visible := fun hi => (w.interfaceFields hi f hf).2
  valued := fun hi => (w.interfaceFields hi f hf).1
  type := w.types _ (.field hf rfl)
  init := fun _ hc t ht => w.types t (.init hf hc (CodeLine.mem_types_iff.1 ht))
  doc := w.doc (fieldDoc_subset_docs hf)

theorem constructor (w : c.WellFormed) {k : ConstructorDecl} (hk : k ∈ c.constructors) :
    k.Accepted where
  signature := w.signature (constructor_mem_callables hk)
  doc := w.doc (constructorDoc_subset_docs hk)
  body := w.body (constructor_mem_callables hk)

theorem method (w : c.WellFormed) {d : MethodDecl} (hd : d ∈ c.methods) :
    d.Accepted c.isInterface where
  name := w.memberNames _ (List.mem_append_right _ (List.mem_map.2 ⟨d, hd, rfl⟩))
  returns := fun t ht => w.types t (.returns hd ht)
  overridable := w.abstractMethods d hd
  implementable := by
    intro hi
    obtain ⟨hfinal, hprotected, hprivate⟩ := w.interfaceMethods hi d hd
    exact ⟨hfinal, hprotected, fun hv hb => hprivate ⟨hv, hb⟩⟩
  signature := w.signature (method_mem_callables hd)
  doc := w.doc (methodDoc_subset_docs hd)
  body := w.body (method_mem_callables hd)

theorem accepted (w : c.WellFormed) : c.Accepted where
  name := w.name
  extensible := w.extensible
  superclass := by
    intro t ht
    refine ⟨?_, w.types t (.superclass ht)⟩
    cases hi : c.isInterface with
    | false => rfl
    | true =>
      have hnone := (w.ofInterface hi).1
      rw [ht] at hnone
      exact absurd hnone (Option.some_ne_none t)
  interfaces := fun t ht => w.types t (.interface ht)
  annotations := fun a ha => w.annotations a (List.mem_append_left _ ha)
  doc := w.doc c.doc_subset_docs
  fields := fun f hf => w.field hf
  fieldNames := w.distinctFields
  ofInterface := fun hi => (w.ofInterface hi).2
  constructors := fun k hk => w.constructor hk
  methods := fun d hd => w.method hd

end WellFormed

end ClassDecl

/-! ### Manifests -/

namespace Manifest

/-- The rules for a manifest: those of its classes, and the two that join classes. -/
structure WellFormed (m : Manifest) : Prop where
  classes : ∀ c ∈ m.classes, c.WellFormed
  distinctClasses : (m.classes.map ClassDecl.name).Nodup
  links : ∀ c ∈ m.classes, ∀ link, .member link ∈ c.docs → ∃ target, m.resolve link = .ok target

/-- Validation finds no problem exactly in a well-formed manifest, whatever text it was read
from. -/
theorem problem?_eq_none_iff_wellFormed (source : Text) (m : Manifest) :
    m.problem? source = none ↔ m.WellFormed := by
  rw [problem?_eq_none_iff]
  constructor
  · intro h
    exact ⟨fun c hc => (h.classes c hc).wellFormed, h.classNames, h.links⟩
  · intro w
    exact ⟨fun c hc => (w.classes c hc).accepted, w.distinctClasses, w.links⟩

end Manifest

end JavaSource
