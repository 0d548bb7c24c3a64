import JavaSource.Proofs.OnePass
import Mathlib.Data.List.Forall2

/-!
# Modifiers of built classes

Which combinations of modifiers the building of an accepted manifest can give. Validation and
building share the rules of the language between them; three of its rules neither of them asks
for, so that a manifest has to keep these itself.
-/

namespace JavaSource

/-- The rules about modifiers that the class built for a declaration always keeps. -/
structure KeptModifiers (c : ClassDecl) (d : ClassDef) : Prop where
  abstractMethod : ∀ x ∈ d.methods, x.isAbstract = true →
    x.isStatic = false ∧ x.isFinal = false ∧ x.isDefault = false
  /-- What is abstract was declared without a body, so that no line of one is lost. -/
  abstractBody : List.Forall₂ (fun k x => x.name = k.name ∧ (x.isAbstract = true → k.body = []))
    c.methods (d.methods.drop c.constructors.length)
  constructorBody : ∀ x ∈ d.methods.take c.constructors.length, x.isAbstract = false
  defaultMethod : ∀ x ∈ d.methods, x.isDefault = true → d.kind = .interface ∧
    x.isStatic = false ∧ x.isAbstract = false ∧ x.visibility ≠ .privateAccess ∧ x.isFinal = false
  extensible : ¬(d.isAbstract = true ∧ d.isFinal = true)
  interfaceField : d.kind = .interface → ∀ f ∈ d.fields,
    f.init ≠ none ∧ (f.visibility = .publicAccess ∨ f.visibility = .packageAccess)
  constructor : ∀ x ∈ d.methods, x.isConstructor = true → d.kind = .ordinary

/-- All the rules of the language: an abstract method is also not private and stands in an abstract
class or in an interface, and an interface is not final. -/
structure LegalModifiers (c : ClassDecl) (d : ClassDef) : Prop extends KeptModifiers c d where
  abstractVisible : ∀ x ∈ d.methods, x.isAbstract = true → x.visibility ≠ .privateAccess
  abstractClass : d.kind = .ordinary → ∀ x ∈ d.methods, x.isAbstract = true → d.isAbstract = true
  interfaceOpen : d.kind = .interface → d.isFinal = false

/-- The rules that neither validation nor building asks for, said about the declaration. -/
def ClassDecl.KeepsUnchecked (c : ClassDecl) : Prop :=
  (c.isInterface = true → c.isFinal = false) ∧
  (c.isInterface = false → ∀ d ∈ c.methods, d.isAbstract = true →
    c.isAbstract = true ∧ d.visibility ≠ some .privateAccess)

/-! ### Methods and fields -/

namespace MethodDecl

variable {inInterface : Bool} {d : MethodDecl}

theorem access_eq_private_iff : d.access = .privateAccess ↔ d.visibility = some .privateAccess := by
  unfold access
  cases d.visibility with
  | none => simp
  | some v => simp

theorem buildsAbstract_ordinary : d.buildsAbstract false = d.isAbstract := by
  simp [buildsAbstract]

theorem Accepted.buildsAbstract (h : d.Accepted inInterface)
    (ha : d.buildsAbstract inInterface = true) :
    d.body = [] ∧ d.isStatic = false ∧ d.isFinal = false := by
  rcases Bool.or_eq_true_iff.1 ha with hdeclared | hempty
  · obtain ⟨hbody, hfinal, hstatic⟩ := h.overridable hdeclared
    exact ⟨hbody, hstatic, hfinal⟩
  · simp only [Bool.and_eq_true, Bool.not_eq_true', List.isEmpty_iff] at hempty
    obtain ⟨⟨hinterface, hstatic⟩, hbody⟩ := hempty
    exact ⟨hbody, hstatic, (h.implementable hinterface).1⟩

theorem Accepted.access_of_interface (h : d.Accepted true) (ha : d.buildsAbstract true = true) :
    d.access ≠ .privateAccess := by
  intro hprivate
  -- a private method of an interface needs the body that an abstract one must not have
  have hbody := (h.buildsAbstract ha).1
  exact (h.implementable rfl).2.2 (access_eq_private_iff.1 hprivate) hbody

theorem Accepted.buildsDefault (h : d.Accepted inInterface)
    (hd : d.buildsDefault inInterface = true) :
    inInterface = true ∧ d.isStatic = false ∧ d.buildsAbstract inInterface = false ∧
      d.access ≠ .privateAccess ∧ d.isFinal = false := by
  simp only [MethodDecl.buildsDefault, Bool.and_eq_true, Bool.not_eq_true', bne_iff_ne] at hd
  obtain ⟨⟨⟨habstract, hinterface⟩, hstatic⟩, haccess⟩ := hd
  exact ⟨hinterface, hstatic, habstract, haccess, (h.implementable hinterface).1⟩

end MethodDecl

/-- The modifiers of a method built for a declaration. -/
structure MethodDecl.GivesModifiers (inInterface : Bool) (d : MethodDecl) (x : Method) : Prop where
  isAbstract : x.isAbstract = d.buildsAbstract inInterface
  isDefault : x.isDefault = d.buildsDefault inInterface
  isStatic : x.isStatic = d.isStatic
  isFinal : x.isFinal = d.isFinal
  visibility : x.visibility = d.access
  isConstructor : x.isConstructor = false

theorem MethodDecl.givesModifiers_toMethod (inInterface : Bool) (d : MethodDecl) (doc : Doc) :
    d.GivesModifiers inInterface { d.toMethod inInterface with doc } := by
  simp only [toMethod, Method.withMember, Method.addArguments_eq]
  exact ⟨rfl, rfl, rfl, rfl, rfl, rfl⟩

/-- A field of an interface has a value and can be seen outside of it. -/
theorem FieldDecl.Accepted.visible_toField {f : FieldDecl} (h : f.Accepted true) (doc : Doc) :
    let x := { f.toField true with doc }
    x.init ≠ none ∧ (x.visibility = .publicAccess ∨ x.visibility = .packageAccess) := by
  obtain ⟨hprivate, hprotected⟩ := h.visible rfl
  refine ⟨fun hnone => h.valued rfl (Option.map_eq_none_iff.1 hnone), ?_⟩
  show f.visibility.getD .publicAccess = .publicAccess ∨
    f.visibility.getD .publicAccess = .packageAccess
  cases hv : f.visibility with
  | none => exact Or.inl rfl
  | some v =>
    cases v with
    | publicAccess => exact Or.inl rfl
    | protectedAccess => exact absurd hv hprotected
    | packageAccess => exact Or.inr rfl
    | privateAccess => exact absurd hv hprivate

/-! ### Classes -/

namespace Manifest

variable {m : Manifest} {c : ClassDecl}

/-- A method of a built class is a constructor of an ordinary class, with a body, or was declared as
a method. -/
theorem constructor_or_givesModifiers (h : c.Accepted) {x : Method}
    (hx : x ∈ (m.classOf c).methods) :
    (c.isInterface = false ∧ x.isAbstract = false ∧ x.isDefault = false) ∨
      ∃ d ∈ c.methods, d.GivesModifiers c.isInterface x := by
  rcases List.mem_append.1 hx with hx | hx
  · obtain ⟨k, hk, rfl⟩ := List.mem_map.1 hx
    have hordinary : c.isInterface = false := by
      refine Bool.eq_false_iff.2 fun hi => ?_
      rw [h.ofInterface hi] at hk
      exact List.not_mem_nil hk
    refine Or.inl ⟨hordinary, ?_, ?_⟩
    · simp only [ConstructorDecl.toMethod, Method.withMember, Method.addArguments_eq]
    · simp only [ConstructorDecl.toMethod, Method.withMember, Method.addArguments_eq]
  · obtain ⟨d, hd, rfl⟩ := List.mem_map.1 hx
    exact Or.inr ⟨d, hd, d.givesModifiers_toMethod _ _⟩

theorem exists_of_isAbstract (h : c.Accepted) {x : Method} (hx : x ∈ (m.classOf c).methods)
    (ha : x.isAbstract = true) :
    ∃ d ∈ c.methods, d.GivesModifiers c.isInterface x ∧ d.buildsAbstract c.isInterface = true := by
  rcases constructor_or_givesModifiers h hx with ⟨-, hconcrete, -⟩ | ⟨d, hd, hmod⟩
  · rw [hconcrete] at ha
    cases ha
  · exact ⟨d, hd, hmod, hmod.isAbstract.symm.trans ha⟩

theorem exists_of_isDefault (h : c.Accepted) {x : Method} (hx : x ∈ (m.classOf c).methods)
    (hdefault : x.isDefault = true) :
    ∃ d ∈ c.methods, d.GivesModifiers c.isInterface x ∧ d.buildsDefault c.isInterface = true := by
  rcases constructor_or_givesModifiers h hx with ⟨-, -, hplain⟩ | ⟨d, hd, hmod⟩
  · rw [hplain] at hdefault
    cases hdefault
  · exact ⟨d, hd, hmod, hmod.isDefault.symm.trans hdefault⟩

theorem exists_givesModifiers {d : MethodDecl} (hd : d ∈ c.methods) :
    ∃ x ∈ (m.classOf c).methods, d.GivesModifiers c.isInterface x :=
  ⟨_, List.mem_append_right _ (List.mem_map_of_mem hd), d.givesModifiers_toMethod _ _⟩

theorem kind_classOf_eq_interface_iff : (m.classOf c).kind = .interface ↔ c.isInterface = true := by
  show (if c.isInterface then ClassKind.interface else .ordinary) = .interface ↔ _
  cases c.isInterface <;> simp

theorem kind_classOf_eq_ordinary_iff : (m.classOf c).kind = .ordinary ↔ c.isInterface = false := by
  show (if c.isInterface then ClassKind.interface else .ordinary) = .ordinary ↔ _
  cases c.isInterface <;> simp

theorem keptModifiers_classOf (h : c.Accepted) : KeptModifiers c (m.classOf c) where
  abstractMethod := by
    intro x hx hax
    obtain ⟨d, hd, hmod, ha⟩ := exists_of_isAbstract h hx hax
    obtain ⟨-, hstatic, hfinal⟩ := (h.methods d hd).buildsAbstract ha
    have hdefault : d.buildsDefault c.isInterface = false := by
      simp [MethodDecl.buildsDefault, ha]
    exact ⟨hmod.isStatic.trans hstatic, hmod.isFinal.trans hfinal, hmod.isDefault.trans hdefault⟩
  abstractBody := by
    rw [drop_methods_classOf, List.forall₂_map_right_iff, List.forall₂_same]
    intro d hd
    refine ⟨?_, fun hax => ?_⟩
    · simp only [MethodDecl.toMethod, Method.withMember, Method.addArguments_eq]
    · have ha := (d.givesModifiers_toMethod c.isInterface (m.docOf d.doc)).isAbstract.symm.trans hax
      exact ((h.methods d hd).buildsAbstract ha).1
  constructorBody := by
    have htake : (m.classOf c).methods.take c.constructors.length =
        c.constructors.map fun k => { k.toMethod c.simpleName with doc := m.docOf k.doc } :=
      List.take_left' (by simp)
    rw [htake]
    intro x hx
    obtain ⟨k, -, rfl⟩ := List.mem_map.1 hx
    simp only [ConstructorDecl.toMethod, Method.withMember, Method.addArguments_eq]
  defaultMethod := by
    intro x hx hdx
    obtain ⟨d, hd, hmod, hdefault⟩ := exists_of_isDefault h hx hdx
    obtain ⟨hi, hstatic, habstract, haccess, hfinal⟩ := (h.methods d hd).buildsDefault hdefault
    exact ⟨kind_classOf_eq_interface_iff.2 hi, hmod.isStatic.trans hstatic,
      hmod.isAbstract.trans habstract, hmod.visibility ▸ haccess, hmod.isFinal.trans hfinal⟩
  extensible := fun hboth => h.extensible ⟨hboth.2, hboth.1⟩
  interfaceField := by
    intro hkind f hf
    have hi := kind_classOf_eq_interface_iff.1 hkind
    obtain ⟨g, hg, rfl⟩ := List.mem_map.1 hf
    have haccepted := h.fields g hg
    rw [hi] at haccepted ⊢
    exact haccepted.visible_toField (m.docOf g.doc)
  constructor := by
    intro x hx hcx
    rcases constructor_or_givesModifiers h hx with ⟨hordinary, -, -⟩ | ⟨d, -, hmod⟩
    · exact kind_classOf_eq_ordinary_iff.2 hordinary
    · rw [hmod.isConstructor] at hcx
      cases hcx

theorem legalModifiers_classOf_iff (h : c.Accepted) :
    LegalModifiers c (m.classOf c) ↔ c.KeepsUnchecked := by
  constructor
  · intro hl
    refine ⟨fun hi => hl.interfaceOpen (kind_classOf_eq_interface_iff.2 hi), fun hi d hd hda => ?_⟩
    obtain ⟨x, hx, hmod⟩ := exists_givesModifiers (m := m) hd
    have hax : x.isAbstract = true := by
      rw [hmod.isAbstract, hi, MethodDecl.buildsAbstract_ordinary, hda]
    refine ⟨hl.abstractClass (kind_classOf_eq_ordinary_iff.2 hi) x hx hax, fun hprivate => ?_⟩
    have haccess := MethodDecl.access_eq_private_iff.2 hprivate
    exact hl.abstractVisible x hx hax (hmod.visibility.trans haccess)
  · rintro ⟨hopen, hrest⟩
    refine ⟨keptModifiers_classOf h, fun x hx hax => ?_, fun hkind x hx hax => ?_, fun hkind => ?_⟩
    · obtain ⟨d, hd, hmod, hda⟩ := exists_of_isAbstract h hx hax
      rw [hmod.visibility]
      have haccepted := h.methods d hd
      -- an abstract method of a class is declared so, one of an interface need not be
      cases hi : c.isInterface with
      | true =>
        rw [hi] at hda haccepted
        exact haccepted.access_of_interface hda
      | false =>
        rw [hi, MethodDecl.buildsAbstract_ordinary] at hda
        exact fun hp => (hrest hi d hd hda).2 (MethodDecl.access_eq_private_iff.1 hp)
    · have hi := kind_classOf_eq_ordinary_iff.1 hkind
      obtain ⟨d, hd, -, hda⟩ := exists_of_isAbstract h hx hax
      rw [hi, MethodDecl.buildsAbstract_ordinary] at hda
      exact (hrest hi d hd hda).1
    · exact hopen (kind_classOf_eq_interface_iff.1 hkind)

/-- The classes built for an accepted manifest keep the rules about modifiers, less three: an
abstract method of a class may be private, the class around it may not be abstract, and an interface
may be final. A declaration that keeps these three itself is built into a legal class, and no other
is. -/
theorem units_modifiers (source : Text) (m : Manifest) (h : m.problem? source = none) :
    ∃ units, m.units = .ok units ∧ List.Forall₂ (fun c u => KeptModifiers c u.classDef ∧
      (LegalModifiers c u.classDef ↔ c.KeepsUnchecked)) m.classes units := by
  have ha := problem?_eq_none_iff.1 h
  refine ⟨_, units_eq ha, ?_⟩
  rw [List.forall₂_map_right_iff, List.forall₂_same]
  intro c hc
  have hca := ha.classes c hc
  exact ⟨keptModifiers_classOf hca, legalModifiers_classOf_iff hca⟩

/-- An interface with an abstract, a default and a private method, and a class that implements it in
part. -/
def openShapes : Manifest where
  classes :=
    [{ name := "p.Api".toList, isInterface := true
       fields := [{ name := "LIMIT".toList, type := .name "int".toList
                    init := some (.text "10".toList) }]
       methods :=
        [{ name := "ping".toList },
         { name := "again".toList, body := [.text "ping();".toList] },
         { name := "log".toList, visibility := some .privateAccess
           body := [.text "return;".toList] }] },
     { name := "p.Base".toList, isAbstract := true
       constructors := [{}]
       methods := [{ name := "run".toList, isAbstract := true
                     visibility := some .protectedAccess }] }]

theorem openShapes_legal :
    openShapes.problem? [] = none ∧ ∃ units, openShapes.units = .ok units ∧
      List.Forall₂ (fun c u => LegalModifiers c u.classDef) openShapes.classes units := by
  have h : openShapes.problem? [] = none := by decide +kernel
  obtain ⟨units, hunits, hmodifiers⟩ := units_modifiers [] openShapes h
  have hunchecked : ∀ c ∈ openShapes.classes, c.KeepsUnchecked := by
    simp [openShapes, ClassDecl.KeepsUnchecked]
  refine ⟨h, units, hunits, ?_⟩
  rw [List.forall₂_iff_get] at hmodifiers ⊢
  obtain ⟨hlength, hall⟩ := hmodifiers
  exact ⟨hlength, fun i hi hj => (hall i hi hj).2.2 (hunchecked _ (List.getElem_mem hi))⟩

/-- A class with a private abstract method, one with an abstract method that is not abstract itself,
and a final interface. -/
def closedShapes : Manifest where
  classes :=
    [{ name := "p.Hidden".toList, isAbstract := true
       methods := [{ name := "run".toList, isAbstract := true
                     visibility := some .privateAccess }] },
     { name := "p.Plain".toList
       methods := [{ name := "run".toList, isAbstract := true }] },
     { name := "p.Closed".toList, isInterface := true, isFinal := true }]

theorem closedShapes_illegal :
    closedShapes.problem? [] = none ∧ ∃ hidden plain closed,
      closedShapes.units = .ok [hidden, plain, closed] ∧
      (∃ x ∈ hidden.classDef.methods, x.isAbstract = true ∧ x.visibility = .privateAccess) ∧
      (plain.classDef.kind = .ordinary ∧ plain.classDef.isAbstract = false ∧
        ∃ x ∈ plain.classDef.methods, x.isAbstract = true) ∧
      closed.classDef.kind = .interface ∧ closed.classDef.isFinal = true := by
  have h : closedShapes.problem? [] = none := by decide +kernel
  refine ⟨h, _, _, _, units_eq (problem?_eq_none_iff.1 h), ?_, ?_, rfl, rfl⟩
  · exact ⟨_, List.mem_cons_self .., rfl, rfl⟩
  · exact ⟨rfl, rfl, _, List.mem_cons_self .., rfl⟩

end Manifest

end JavaSource
