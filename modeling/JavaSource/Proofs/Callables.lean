import JavaSource.Proofs.OnePass
import JavaSource.Proofs.WellFormed

/-!
# Constructors and methods as they are built

What a constructor or method declares is what is built for it, in the order of declaration. An
argument without a name is named after its position, by a count in validation and by the length of
the list in building; the names that validation keeps apart are the names that are built, and all
of them are identifiers.
-/

namespace JavaSource

/-! ### Names of arguments -/

theorem isIdentifierPart_of_isDigit {c : Char} (h : c.isDigit = true) :
    isIdentifierPart c = true := by
  have hlast : c.toNat ≤ 57 := (Char.isDigit_iff_toNat.1 h).2
  have hascii : c.toNat < 128 := by omega
  have hnumeric : Text.isNumeric c = true := by rw [Text.isNumeric, if_pos hascii, h]
  simp [isIdentifierPart, hnumeric]

/-- The name of an argument after its position is an identifier. -/
theorem isIdentifier_defaultArgumentName (position : Nat) :
    IsIdentifier (Method.defaultArgumentName position) := by
  have hwords : ∀ w ∈ reservedWords, w.take 3 ≠ "arg".toList := by decide
  have hreserved : isReserved (Method.defaultArgumentName position) = false := by
    refine Bool.eq_false_iff.2 fun hr => ?_
    unfold isReserved at hr
    exact hwords _ (List.contains_iff_mem.1 hr) rfl
  refine ⟨'a', 'r' :: 'g' :: Text.ofNat position, rfl, hreserved, by decide, ?_⟩
  rw [List.forall_mem_cons, List.forall_mem_cons]
  refine ⟨by decide, by decide, fun c hc => isIdentifierPart_of_isDigit ?_⟩
  exact Nat.isDigit_of_mem_toDigits (by decide) (by decide) hc

theorem ArgumentDecl.Accepted.isIdentifier_nameAt {a : ArgumentDecl} (h : a.Accepted)
    (position : Nat) : IsIdentifier (a.nameAt position) := by
  unfold nameAt
  cases hn : a.name with
  | none => exact isIdentifier_defaultArgumentName position
  | some n => exact h.name n hn

theorem map_name_argumentsFrom (position : Nat) (args : List ArgumentDecl) :
    (argumentsFrom position args).map Argument.name = argumentNames position args := by
  induction args generalizing position with
  | nil => rfl
  | cons a args ih => rw [argumentsFrom, List.map_cons, ih, argumentNames]

theorem isIdentifier_of_mem_argumentsFrom {args : List ArgumentDecl} (h : ∀ a ∈ args, a.Accepted)
    {position : Nat} {x : Argument} (hx : x ∈ argumentsFrom position args) :
    IsIdentifier x.name := by
  have hname : x.name ∈ argumentNames position args := by
    rw [← map_name_argumentsFrom]
    exact List.mem_map_of_mem hx
  rw [argumentNames_eq_mapIdx] at hname
  obtain ⟨i, hi, hn⟩ := List.mem_mapIdx.1 hname
  rw [← hn]
  exact (h _ (List.getElem_mem hi)).isIdentifier_nameAt _

/-! ### What is built -/

/-- A method is what a constructor or method declares, its modifiers and its documentation apart. -/
structure Callable.Builds (k : Callable) (x : Method) : Prop where
  arguments : x.arguments = argumentsFrom 0 k.args
  exceptions : x.exceptions = k.throws.map TypeExpr.toType
  annotations : x.annotations = k.annotations.map ClassName.ofText
  body : x.body = BodyEntry.codeOfBody k.body

/-- The arguments of a method have different names, all of them identifiers: each has the name that
it was given, or else the one of its position. -/
structure NamesArguments (args : List ArgumentDecl) (x : Method) : Prop where
  names : x.arguments.map Argument.name = args.mapIdx ArgumentDecl.nameAt
  distinct : (x.arguments.map Argument.name).Nodup
  identifiers : ∀ n ∈ x.arguments.map Argument.name, IsIdentifier n

theorem Callable.Builds.namesArguments {k : Callable} {x : Method} (h : k.Builds x)
    (hs : SignatureAccepted k.args k.throws k.annotations) : NamesArguments k.args x := by
  have hnames : x.arguments.map Argument.name = argumentNames 0 k.args := by
    rw [h.arguments, map_name_argumentsFrom]
  refine ⟨?_, ?_, ?_⟩
  · rw [hnames, argumentNames_eq_mapIdx]
    simp only [Nat.zero_add]
  · rw [hnames]
    exact hs.distinct
  · intro n hn
    obtain ⟨a, ha, rfl⟩ := List.mem_map.1 hn
    rw [h.arguments] at ha
    exact isIdentifier_of_mem_argumentsFrom hs.argument ha

namespace Manifest

variable {m : Manifest} {c : ClassDecl}

/-- The methods of a built class are built for its constructors and methods, one for each. -/
theorem builds_classOf (c : ClassDecl) :
    List.Forall₂ Callable.Builds c.callables (m.classOf c).methods := by
  refine List.rel_append ?_ ?_
  · rw [List.forall₂_map_left_iff, List.forall₂_map_right_iff, List.forall₂_same]
    intro k _
    constructor <;>
      simp only [ConstructorDecl.toMethod, ConstructorDecl.callable, Method.withMember,
        Method.addArguments_eq, List.nil_append, List.length_nil]
  · rw [List.forall₂_map_left_iff, List.forall₂_map_right_iff, List.forall₂_same]
    intro d _
    constructor <;>
      simp only [MethodDecl.toMethod, MethodDecl.callable, Method.withMember,
        Method.addArguments_eq, List.nil_append, List.length_nil]

/-- What every constructor and method of an accepted class has in common with what is built for it
holds along the methods of the built class. -/
theorem forall₂_callables (h : c.Accepted) {R : Callable → Method → Prop}
    (hR : ∀ k x, SignatureAccepted k.args k.throws k.annotations → k.Builds x → R k x) :
    List.Forall₂ R c.callables (m.classOf c).methods := by
  have hbuilt : List.Forall₂
      (fun k x => SignatureAccepted k.args k.throws k.annotations ∧ k.Builds x)
      c.callables (m.classOf c).methods :=
    (List.forall₂_and_left _ _).2 ⟨fun k hk => (h.callable hk).1, builds_classOf c⟩
  exact hbuilt.imp fun k x hkx => hR k x hkx.1 hkx.2

/-- Every constructor and method of an accepted manifest is built with arguments that have different
names, each an identifier. -/
theorem units_argument_names (source : Text) (m : Manifest) (h : m.problem? source = none) :
    ∃ units, m.units = .ok units ∧ List.Forall₂ (fun c u =>
      List.Forall₂ (fun k x => NamesArguments k.args x) c.callables u.classDef.methods)
      m.classes units := by
  have ha := problem?_eq_none_iff.1 h
  exact exists_units_forall₂ ha fun c hc =>
    forall₂_callables (ha.classes c hc) fun _ _ hs hx => hx.namesArguments hs

/-- A class with arguments whose names are those of other positions. -/
def mixedArguments : Manifest where
  classes :=
    [{ name := "p.A".toList
       constructors := [{ args :=
        [{ type := .name "int".toList }, { name := some "arg3".toList, type := .name "int".toList },
         { type := .name "long".toList },
         { name := some "arg1".toList, type := .name "q.B[]".toList }] }]
       methods := [{ name := "run".toList, args :=
        [{ name := some "arg0".toList, type := .name "int".toList },
         { type := .name "q.B".toList }] }] }]

theorem mixedArguments_named :
    mixedArguments.problem? [] = none ∧ ∃ u k x, mixedArguments.units = .ok [u] ∧
      u.classDef.methods = [k, x] ∧
      k.arguments.map Argument.name =
        ["arg0".toList, "arg3".toList, "arg2".toList, "arg1".toList] ∧
      (k.arguments.map Argument.name).Nodup ∧
      x.arguments.map Argument.name = ["arg0".toList, "arg1".toList] ∧
      ∀ n ∈ x.arguments.map Argument.name, IsIdentifier n := by
  have h : mixedArguments.problem? [] = none := by decide +kernel
  obtain ⟨units, hunits, hnamed⟩ := units_argument_names [] mixedArguments h
  obtain ⟨u, rest, hmethods, hrest, rfl⟩ := List.forall₂_cons_left_iff.1 hnamed
  obtain rfl := List.forall₂_nil_left_iff.1 hrest
  obtain ⟨k, others, hk, hothers, hall⟩ := List.forall₂_cons_left_iff.1 hmethods
  obtain ⟨x, rest, hx, hnone, rfl⟩ := List.forall₂_cons_left_iff.1 hothers
  obtain rfl := List.forall₂_nil_left_iff.1 hnone
  refine ⟨h, u, k, x, hunits, hall, ?_, hk.distinct, ?_, hx.identifiers⟩
  · rw [hk.names]
    decide +kernel
  · rw [hx.names]
    decide +kernel

end Manifest

end JavaSource
