import JavaSource.Manifest.Validation
import JavaSource.Proofs.QualifiedName
import Mathlib.Data.Option.Basic

/-!
# What validation accepts

Each check of a manifest, read as the condition under which it finds no problem. The conditions
do not mention the place of a declaration or the text of the manifest: these only word and locate
the problems.
-/

namespace JavaSource

/-! ### Names and types -/

namespace Place

variable (p : Place)

theorem nameProblem?_eq_none_iff {name kind : Text} :
    p.nameProblem? name kind = none ↔ IsIdentifier name := by
  unfold nameProblem?
  dsimp only
  split
  · next hr =>
    simp only [reduceCtorEq, false_iff]
    intro h
    rw [h.not_isReserved] at hr
    exact Bool.false_ne_true hr
  · rw [Option.map_eq_none_iff, identifierProblem?_eq_none_iff]

theorem givenNameProblem?_eq_none_iff {name : Option Text} {kind : Text} :
    (name.bind fun n => p.nameProblem? n kind) = none ↔ ∀ n, name = some n → IsIdentifier n := by
  cases name with
  | none => simp
  | some n => simp [nameProblem?_eq_none_iff]

theorem qualifiedProblem?_eq_none_iff {name kind : Text} :
    p.qualifiedProblem? name kind = none ↔ IsQualifiedName name := by
  unfold qualifiedProblem?
  dsimp only
  split
  · next word hw =>
    simp only [reduceCtorEq, false_iff]
    intro h
    have hreserved := List.find?_some hw
    rw [(h word (List.mem_of_find?_eq_some hw)).not_isReserved] at hreserved
    exact Bool.false_ne_true hreserved
  · rw [Option.map_eq_none_iff, qualifiedNameProblem?_eq_none_iff]

theorem typeProblem?_eq_none_iff {t : TypeExpr} {kind : Text} :
    p.typeProblem? t kind = none ↔ t.problem? = none := by
  simp [typeProblem?]

theorem typesProblem?_eq_none_iff {ts : List TypeExpr} {kind : Text} :
    p.typesProblem? ts kind = none ↔ ∀ t ∈ ts, t.problem? = none := by
  simp [typesProblem?, typeProblem?_eq_none_iff]

end Place

variable {p : Place}

theorem docProblem?_eq_none_iff {doc : List DocPart} :
    docProblem? p doc = none ↔ ∀ t, .link t ∈ doc → t.problem? = none := by
  rw [docProblem?, List.findSome?_eq_none_iff]
  constructor
  · intro h t ht
    exact p.typeProblem?_eq_none_iff.1 (h _ ht)
  · intro h part hpart
    cases part with
    | text s => rfl
    | link t => exact p.typeProblem?_eq_none_iff.2 (h t hpart)
    | member link => rfl

theorem annotationProblem?_eq_none_iff {annotations : List Text} :
    annotationProblem? p annotations = none ↔ ∀ a ∈ annotations, IsQualifiedName a := by
  simp [annotationProblem?, Place.qualifiedProblem?_eq_none_iff]

theorem bodyProblem?_eq_none_iff {body : List BodyEntry} :
    bodyProblem? p body = none ↔ ∀ t ∈ BodyEntry.typesOfBody body, t.problem? = none :=
  p.typesProblem?_eq_none_iff

/-! ### Names that are taken -/

/-- Names that differ from each other and from those seen before. -/
def NewNames (seen names : List Text) : Prop := names.Nodup ∧ ∀ n ∈ names, n ∉ seen

theorem newNames_nil (seen : List Text) : NewNames seen [] :=
  ⟨List.nodup_nil, fun _ hn => absurd hn List.not_mem_nil⟩

theorem newNames_of_nodup {names : List Text} : NewNames [] names ↔ names.Nodup :=
  ⟨And.left, fun h => ⟨h, fun _ _ => List.not_mem_nil⟩⟩

theorem newNames_cons {seen names : List Text} {n : Text} :
    NewNames seen (n :: names) ↔ n ∉ seen ∧ NewNames (n :: seen) names := by
  rw [NewNames, NewNames, List.nodup_cons, List.forall_mem_cons]
  simp only [List.mem_cons, not_or]
  constructor
  · rintro ⟨⟨hn, hd⟩, hnew, hs⟩
    exact ⟨hnew, hd, fun k hk => ⟨fun he => hn (he ▸ hk), hs k hk⟩⟩
  · rintro ⟨hnew, hd, hs⟩
    exact ⟨⟨fun hn => (hs n hn).1 rfl, hd⟩, hnew, fun k hk => (hs k hk).2⟩

theorem ite_some_eq_none_iff {α : Type} {c : Prop} [Decidable c] {problem : α} {o : Option α} :
    (if c then some problem else o) = none ↔ ¬c ∧ o = none := by
  by_cases h : c
  · simp [h]
  · simp [h]

/-! ### Signatures -/

/-- The names of arguments from a position on; an argument without a name is named after its
position. -/
def argumentNames : (position : Nat) → List ArgumentDecl → List Text
  | _, [] => []
  | position, a :: rest =>
    a.name.getD (Method.defaultArgumentName position) :: argumentNames (position + 1) rest

structure ArgumentDecl.Accepted (a : ArgumentDecl) : Prop where
  name : ∀ n, a.name = some n → IsIdentifier n
  type : a.type.problem? = none

theorem argumentsProblem?_eq_none_iff {position : Nat} {seen : List Text}
    {args : List ArgumentDecl} :
    argumentsProblem? p position seen args = none ↔
      (∀ a ∈ args, a.Accepted) ∧ NewNames seen (argumentNames position args) := by
  induction args generalizing position seen with
  | nil => simp [argumentsProblem?, argumentNames, newNames_nil]
  | cons a rest ih =>
    have hself : a.Accepted ↔ (∀ n, a.name = some n → IsIdentifier n) ∧ a.type.problem? = none :=
      ⟨fun h => ⟨h.name, h.type⟩, fun h => ⟨h.1, h.2⟩⟩
    unfold argumentsProblem? argumentNames
    generalize a.name.getD (Method.defaultArgumentName position) = name
    rw [Option.orElse_eq_none, Option.orElse_eq_none, Place.givenNameProblem?_eq_none_iff,
      Place.typeProblem?_eq_none_iff, ite_some_eq_none_iff, ih, List.forall_mem_cons,
      newNames_cons, hself]
    tauto

/-- A signature with accepted types and annotations in which no two arguments share a name. -/
structure SignatureAccepted (args : List ArgumentDecl) (throws : List TypeExpr)
    (annotations : List Text) : Prop where
  argument : ∀ a ∈ args, a.Accepted
  distinct : (argumentNames 0 args).Nodup
  exception : ∀ t ∈ throws, t.problem? = none
  annotation : ∀ a ∈ annotations, IsQualifiedName a

theorem signatureProblem?_eq_none_iff {args : List ArgumentDecl} {throws : List TypeExpr}
    {annotations : List Text} :
    signatureProblem? p args throws annotations = none ↔
      SignatureAccepted args throws annotations := by
  simp only [signatureProblem?, Option.orElse_eq_none,
    argumentsProblem?_eq_none_iff, Place.typesProblem?_eq_none_iff, annotationProblem?_eq_none_iff]
  constructor
  · rintro ⟨⟨ha, hd⟩, ht, hn⟩
    exact ⟨ha, newNames_of_nodup.1 hd, ht, hn⟩
  · rintro ⟨ha, hd, ht, hn⟩
    exact ⟨⟨ha, newNames_of_nodup.2 hd⟩, ht, hn⟩

/-! ### Members -/

def DocAccepted (doc : List DocPart) : Prop := ∀ t, .link t ∈ doc → t.problem? = none

def BodyAccepted (body : List BodyEntry) : Prop :=
  ∀ t ∈ BodyEntry.typesOfBody body, t.problem? = none

structure FieldDecl.Accepted (inInterface : Bool) (f : FieldDecl) : Prop where
  name : IsIdentifier f.name
  visible : inInterface = true →
    f.visibility ≠ some .privateAccess ∧ f.visibility ≠ some .protectedAccess
  valued : inInterface = true → f.init ≠ none
  type : f.type.problem? = none
  init : ∀ code, f.init = some code → ∀ t ∈ code.types, t.problem? = none
  doc : DocAccepted f.doc

theorem FieldDecl.interfaceProblem?_eq_none_iff {f : FieldDecl} :
    f.interfaceProblem? p = none ↔
      (f.visibility ≠ some .privateAccess ∧ f.visibility ≠ some .protectedAccess) ∧
        f.init ≠ none := by
  unfold interfaceProblem?
  split
  · next hv => simp [hv]
  · next hv => simp [hv]
  · next hi _ _ => simp [hi]
  · next hi hprivate hprotected =>
    simp only [hi, ne_eq, reduceCtorEq, not_false_eq_true, and_true, true_iff]
    exact ⟨hprivate, hprotected⟩

theorem FieldDecl.problem?_eq_none_iff {inInterface : Bool} {f : FieldDecl} :
    f.problem? p inInterface = none ↔ f.Accepted inInterface := by
  have hinit : (∀ t ∈ (f.init.map CodeLine.types).getD [], t.problem? = none) ↔
      ∀ code, f.init = some code → ∀ t ∈ code.types, t.problem? = none := by
    cases f.init with
    | none => simp
    | some code => simp
  have hinterface : (if inInterface then f.interfaceProblem? (p.push f.name) else none) = none ↔
      (inInterface = true →
        (f.visibility ≠ some .privateAccess ∧ f.visibility ≠ some .protectedAccess) ∧
          f.init ≠ none) := by
    cases inInterface with
    | false => simp
    | true => simp [interfaceProblem?_eq_none_iff]
  unfold problem?
  simp only [Option.orElse_eq_none, Place.nameProblem?_eq_none_iff, hinterface,
    Place.typeProblem?_eq_none_iff, Place.typesProblem?_eq_none_iff, hinit, docProblem?_eq_none_iff]
  constructor
  · rintro ⟨hn, hi, ht, hc, hd⟩
    exact ⟨hn, fun h => (hi h).1, fun h => (hi h).2, ht, hc, hd⟩
  · rintro ⟨hn, hv, hi, ht, hc, hd⟩
    exact ⟨hn, fun h => ⟨hv h, hi h⟩, ht, hc, hd⟩

structure ConstructorDecl.Accepted (c : ConstructorDecl) : Prop where
  signature : SignatureAccepted c.args c.throws c.annotations
  doc : DocAccepted c.doc
  body : BodyAccepted c.body

theorem ConstructorDecl.problem?_eq_none_iff {c : ConstructorDecl} :
    c.problem? p = none ↔ c.Accepted := by
  unfold problem?
  simp only [Option.orElse_eq_none, signatureProblem?_eq_none_iff, docProblem?_eq_none_iff,
    bodyProblem?_eq_none_iff]
  constructor
  · rintro ⟨hs, hd, hb⟩
    exact ⟨hs, hd, hb⟩
  · rintro ⟨hs, hd, hb⟩
    exact ⟨hs, hd, hb⟩

structure MethodDecl.Accepted (inInterface : Bool) (m : MethodDecl) : Prop where
  name : IsIdentifier m.name
  returns : ∀ t, m.returns = some t → t.problem? = none
  overridable : m.isAbstract = true → m.body = [] ∧ m.isFinal = false ∧ m.isStatic = false
  implementable : inInterface = true → m.isFinal = false ∧
    m.visibility ≠ some .protectedAccess ∧ (m.visibility = some .privateAccess → m.body ≠ [])
  signature : SignatureAccepted m.args m.throws m.annotations
  doc : DocAccepted m.doc
  body : BodyAccepted m.body

theorem MethodDecl.abstractProblem?_eq_none_iff {m : MethodDecl} :
    m.abstractProblem? p = none ↔
      (m.isAbstract = true → m.body = [] ∧ m.isFinal = false ∧ m.isStatic = false) := by
  unfold abstractProblem?
  cases m.isAbstract <;> cases m.isFinal <;> cases m.isStatic <;> cases m.body <;> simp

theorem MethodDecl.interfaceProblem?_eq_none_iff {m : MethodDecl} :
    m.interfaceProblem? p = none ↔ m.isFinal = false ∧ m.visibility ≠ some .protectedAccess ∧
      (m.visibility = some .privateAccess → m.body ≠ []) := by
  unfold interfaceProblem?
  split
  · next h => simp [h]
  · next h =>
    split
    · next hv => simp [hv]
    · next hv =>
      split
      · next hb => simp [hb.1, List.isEmpty_iff.1 hb.2]
      · next hb =>
        simp only [List.isEmpty_iff, not_and] at hb
        simp only [true_iff]
        exact ⟨by simpa using h, hv, hb⟩

theorem MethodDecl.problem?_eq_none_iff {inInterface : Bool} {m : MethodDecl} :
    m.problem? p inInterface = none ↔ m.Accepted inInterface := by
  have hinterface : (if inInterface then m.interfaceProblem? (p.push m.name) else none) = none ↔
      (inInterface = true → m.isFinal = false ∧ m.visibility ≠ some .protectedAccess ∧
        (m.visibility = some .privateAccess → m.body ≠ [])) := by
    cases inInterface with
    | false => simp
    | true => simp [interfaceProblem?_eq_none_iff]
  unfold problem?
  simp only [Option.orElse_eq_none, Place.nameProblem?_eq_none_iff,
    Place.typesProblem?_eq_none_iff, Option.mem_toList,
    abstractProblem?_eq_none_iff, hinterface, signatureProblem?_eq_none_iff,
    docProblem?_eq_none_iff, bodyProblem?_eq_none_iff]
  constructor
  · rintro ⟨hn, hr, ha, hi, hs, hd, hb⟩
    exact ⟨hn, hr, ha, hi, hs, hd, hb⟩
  · rintro ⟨hn, hr, ha, hi, hs, hd, hb⟩
    exact ⟨hn, hr, ha, hi, hs, hd, hb⟩

/-! ### Classes -/

/-- What validation asks of a class, the links of its comments to methods apart. -/
structure ClassDecl.Accepted (c : ClassDecl) : Prop where
  name : IsQualifiedName c.name
  extensible : ¬(c.isFinal = true ∧ c.isAbstract = true)
  superclass : ∀ t, c.superclass = some t → c.isInterface = false ∧ t.problem? = none
  interfaces : ∀ t ∈ c.interfaces, t.problem? = none
  annotations : ∀ a ∈ c.annotations, IsQualifiedName a
  doc : DocAccepted c.doc
  fields : ∀ f ∈ c.fields, f.Accepted c.isInterface
  fieldNames : (c.fields.map FieldDecl.name).Nodup
  ofInterface : c.isInterface = true → c.constructors = []
  constructors : ∀ k ∈ c.constructors, k.Accepted
  methods : ∀ m ∈ c.methods, m.Accepted c.isInterface

namespace ClassDecl

theorem fieldsProblem?_eq_none_iff {c : ClassDecl} {seen : List Text} {fields : List FieldDecl} :
    c.fieldsProblem? p seen fields = none ↔ (∀ f ∈ fields, f.Accepted c.isInterface) ∧
      NewNames seen (fields.map FieldDecl.name) := by
  induction fields generalizing seen with
  | nil => simp [fieldsProblem?, newNames_nil]
  | cons f rest ih =>
    rw [fieldsProblem?, Option.orElse_eq_none, FieldDecl.problem?_eq_none_iff,
      ite_some_eq_none_iff, ih, List.forall_mem_cons, List.map_cons, newNames_cons]
    tauto

theorem superclassProblem?_eq_none_iff {c : ClassDecl} :
    c.superclassProblem? p = none ↔
      ∀ t, c.superclass = some t → c.isInterface = false ∧ t.problem? = none := by
  unfold superclassProblem?
  cases c.superclass with
  | none => simp
  | some t =>
    cases c.isInterface with
    | false => simp [Place.typeProblem?_eq_none_iff]
    | true => simp

theorem constructorsProblem?_eq_none_iff {c : ClassDecl} :
    c.constructorsProblem? p = none ↔
      (c.isInterface = true → c.constructors = []) ∧ ∀ k ∈ c.constructors, k.Accepted := by
  unfold constructorsProblem?
  cases hi : c.isInterface with
  | false => simp [ConstructorDecl.problem?_eq_none_iff]
  | true =>
    cases c.constructors with
    | nil => simp
    | cons k ks => simp

theorem problem?_eq_none_iff {c : ClassDecl} : c.problem? p = none ↔ c.Accepted := by
  have hextensible : (if c.isFinal && c.isAbstract then
        some (Diagnostic.brokenRule (.finalAbstractClass c.name)) else none) = none ↔
      ¬(c.isFinal = true ∧ c.isAbstract = true) := by
    simp
  unfold problem?
  simp only [Option.orElse_eq_none, Place.qualifiedProblem?_eq_none_iff, hextensible,
    superclassProblem?_eq_none_iff, Place.typesProblem?_eq_none_iff,
    annotationProblem?_eq_none_iff, docProblem?_eq_none_iff, fieldsProblem?_eq_none_iff,
    constructorsProblem?_eq_none_iff, List.findSome?_eq_none_iff, MethodDecl.problem?_eq_none_iff]
  constructor
  · rintro ⟨hn, he, hs, hi, ha, hd, ⟨hf, hu⟩, ⟨hk, hc⟩, hm⟩
    exact ⟨hn, he, hs, hi, ha, hd, hf, newNames_of_nodup.1 hu, hk, hc, hm⟩
  · rintro ⟨hn, he, hs, hi, ha, hd, hf, hu, hk, hc, hm⟩
    exact ⟨hn, he, hs, hi, ha, hd, ⟨hf, newNames_of_nodup.2 hu⟩, ⟨hk, hc⟩, hm⟩

end ClassDecl

/-! ### Manifests -/

namespace Manifest

/-- What validation asks of a manifest. -/
structure Accepted (m : Manifest) : Prop where
  classes : ∀ c ∈ m.classes, c.Accepted
  classNames : (m.classes.map ClassDecl.name).Nodup
  links : ∀ c ∈ m.classes, ∀ link, .member link ∈ c.docs → ∃ target, m.resolve link = .ok target

theorem classesProblem?_eq_none_iff {source : Text} {seen : List Text} {classes : List ClassDecl} :
    classesProblem? source seen classes = none ↔ (∀ c ∈ classes, c.Accepted) ∧
      NewNames seen (classes.map ClassDecl.name) := by
  induction classes generalizing seen with
  | nil => simp [classesProblem?, newNames_nil]
  | cons c rest ih =>
    rw [classesProblem?, Option.orElse_eq_none, ClassDecl.problem?_eq_none_iff,
      ite_some_eq_none_iff, ih, List.forall_mem_cons, List.map_cons, newNames_cons]
    tauto

theorem linksProblem?_eq_none_iff {source : Text} {m : Manifest} :
    m.linksProblem? source = none ↔
      ∀ c ∈ m.classes, ∀ link, .member link ∈ c.docs → ∃ target, m.resolve link = .ok target := by
  rw [linksProblem?, List.findSome?_eq_none_iff]
  constructor
  · intro h c hc link hlink
    have hnone := h _ (List.mem_flatMap.2 ⟨c, hc, hlink⟩)
    cases hr : m.resolve link with
    | ok target => exact ⟨target, rfl⟩
    | error problem => simp [hr] at hnone
  · intro h part hpart
    obtain ⟨c, hc, hpart⟩ := List.mem_flatMap.1 hpart
    cases part with
    | text s => rfl
    | link t => rfl
    | member link =>
      obtain ⟨target, ht⟩ := h c hc link hpart
      simp [ht]

/-- A manifest has no problem exactly if it is accepted, whatever text it was read from. -/
theorem problem?_eq_none_iff {source : Text} {m : Manifest} :
    m.problem? source = none ↔ m.Accepted := by
  rw [problem?, Option.orElse_eq_none, classesProblem?_eq_none_iff, linksProblem?_eq_none_iff]
  constructor
  · rintro ⟨⟨hc, hd⟩, hl⟩
    exact ⟨hc, newNames_of_nodup.1 hd, hl⟩
  · rintro ⟨hc, hd, hl⟩
    exact ⟨⟨hc, newNames_of_nodup.2 hd⟩, hl⟩

end Manifest

end JavaSource
