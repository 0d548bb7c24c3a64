import JavaSource.Proofs.Callables
import JavaSource.Proofs.TypeGrammar

/-!
# Types in the clauses of a class

The language wants classes behind `extends`, `implements` and `throws`. Validation reads the types
there as it reads the type of a field or an argument, where arrays and primitive types are at home
too, so that a clause is as good as its declaration: every expression gives the type that it would
give elsewhere, and this is a class exactly if the expression is the name of one.
-/

namespace JavaSource

/-! ### Class types -/

namespace JavaType

/-- Whether a type is a class, with or without arguments. -/
def isClassType : JavaType → Bool
  | primitive _ => false
  | named _ => true
  | array _ => false
  | generic _ _ => true

theorem isClassType_arrays_iff {n : Nat} {t : JavaType} :
    (arrays n t).isClassType = true ↔ n = 0 ∧ t.isClassType = true := by
  cases n with
  | zero => simp [arrays]
  | succ n => simp [arrays, isClassType]

end JavaType

namespace TypeExpr

/-- Between the blanks around it, the text of an expression is a name. -/
def NamesClass (t : TypeExpr) : Prop := IsQualifiedName (Text.trim t.raw)

/-- A type is built for an expression, and is a class exactly if the expression is the name of
one. -/
structure Gives (t : TypeExpr) (ty : JavaType) : Prop where
  build : t.build = .ok ty
  isClassType_iff : ty.isClassType = true ↔ t.NamesClass

theorem isClassType_toType_iff {t : TypeExpr} (h : t.problem? = none) :
    t.toType.isClassType = true ↔ t.NamesClass := by
  constructor
  · intro hclass
    obtain ⟨gaps, hreads, -⟩ := t.reads_base
    rcases isBase_of_problem? h with ⟨p, hp⟩ | hname
    · rw [hp] at hreads
      rw [toType_of_primitive hreads, JavaType.isClassType_arrays_iff] at hclass
      exact absurd hclass.2 Bool.false_ne_true
    · rw [toType_of_reference hreads hname, JavaType.isClassType_arrays_iff] at hclass
      rw [List.eq_nil_of_length_eq_zero hclass.1, reads_nil_iff] at hreads
      unfold NamesClass
      rw [hreads]
      exact hname
  · intro hname
    -- a name reads as a base without any pairs behind it
    have hreads : Reads t.raw (Text.trim t.raw) [] := reads_nil_iff.2 rfl
    rw [toType_of_reference hreads hname, JavaType.isClassType_arrays_iff]
    refine ⟨rfl, ?_⟩
    split
    · rfl
    · rfl

theorem gives_toType {t : TypeExpr} (h : t.problem? = none) : t.Gives t.toType :=
  ⟨build_eq h, isClassType_toType_iff h⟩

theorem forall₂_gives {ts : List TypeExpr} (h : ∀ t ∈ ts, t.problem? = none) :
    List.Forall₂ Gives ts (ts.map toType) := by
  rw [List.forall₂_map_right_iff, List.forall₂_same]
  intro t ht
  exact gives_toType (h t ht)

theorem isClassType_iff_of_gives {ts : List TypeExpr} {types : List JavaType}
    (h : List.Forall₂ Gives ts types) :
    (∀ ty ∈ types, ty.isClassType = true) ↔ ∀ t ∈ ts, t.NamesClass := by
  induction h with
  | nil => simp
  | cons hhead _ ih => rw [List.forall_mem_cons, List.forall_mem_cons, ih, hhead.isClassType_iff]

end TypeExpr

/-! ### Clauses -/

/-- The types that are written behind `extends`, `implements` and `throws`. -/
def ClassDef.clauseTypes (d : ClassDef) : List JavaType :=
  d.superclass.toList ++ d.interfaces ++ d.methods.flatMap Method.exceptions

def ClassDecl.clauseTypes (c : ClassDecl) : List TypeExpr :=
  c.superclass.toList ++ c.interfaces ++ c.callables.flatMap Callable.throws

/-- Every clause of a class has the types that its declaration gives, in their order. -/
structure GivesClauses (c : ClassDecl) (d : ClassDef) : Prop where
  superclass : List.Forall₂ TypeExpr.Gives c.superclass.toList d.superclass.toList
  interfaces : List.Forall₂ TypeExpr.Gives c.interfaces d.interfaces
  exceptions : List.Forall₂ (fun k x => List.Forall₂ TypeExpr.Gives k.throws x.exceptions)
    c.callables d.methods

theorem GivesClauses.clauseTypes {c : ClassDecl} {d : ClassDef} (h : GivesClauses c d) :
    List.Forall₂ TypeExpr.Gives c.clauseTypes d.clauseTypes :=
  List.rel_append (List.rel_append h.superclass h.interfaces)
    (List.rel_flatMap h.exceptions fun _ _ hthrows => hthrows)

namespace Manifest

variable {m : Manifest} {c : ClassDecl}

theorem givesClauses_classOf (h : c.Accepted) : GivesClauses c (m.classOf c) where
  superclass := by
    have hsuperclass : (m.classOf c).superclass.toList =
        c.superclass.toList.map TypeExpr.toType := by
      show (c.superclass.map TypeExpr.toType).toList = _
      cases c.superclass <;> rfl
    rw [hsuperclass]
    exact TypeExpr.forall₂_gives fun t ht => (h.superclass t (Option.mem_toList.1 ht)).2
  interfaces := TypeExpr.forall₂_gives h.interfaces
  exceptions := forall₂_callables h fun _ x hs hx => by
    rw [hx.exceptions]
    exact TypeExpr.forall₂_gives hs.exception

/-- Every clause of the classes built for an accepted manifest has the types that its declaration
gives. All of them are classes exactly if every text that is declared there is a name. -/
theorem units_clause_types (source : Text) (m : Manifest) (h : m.problem? source = none) :
    ∃ units, m.units = .ok units ∧ List.Forall₂ (fun c u => GivesClauses c u.classDef ∧
      ((∀ ty ∈ u.classDef.clauseTypes, ty.isClassType = true) ↔
        ∀ t ∈ c.clauseTypes, t.NamesClass)) m.classes units := by
  have ha := problem?_eq_none_iff.1 h
  refine exists_units_forall₂ ha fun c hc => ?_
  have hgives := givesClauses_classOf (m := m) (ha.classes c hc)
  exact ⟨hgives, TypeExpr.isClassType_iff_of_gives hgives.clauseTypes⟩

/-- A class with classes in all its clauses, and an interface that extends another one. -/
def classClauses : Manifest where
  classes :=
    [{ name := "p.A".toList
       superclass := some (.table " q.Base ".toList [.name "byte[]".toList])
       interfaces := [.name "p.I".toList]
       constructors := [{ throws := [.name "java.io.IOException\t".toList] }]
       methods := [{ name := "run".toList, throws := [.name "q.Failure".toList] }] },
     { name := "p.I".toList, isInterface := true
       interfaces := [.table "java.util.List".toList [.name "p.A".toList]] }]

theorem classClauses_class_types :
    classClauses.problem? [] = none ∧ ∃ units, classClauses.units = .ok units ∧
      ∀ u ∈ units, ∀ ty ∈ u.classDef.clauseTypes, ty.isClassType = true := by
  have h : classClauses.problem? [] = none := by decide +kernel
  obtain ⟨units, hunits, hclauses⟩ := units_clause_types [] classClauses h
  have hnames : ∀ c ∈ classClauses.classes, ∀ t ∈ c.clauseTypes,
      qualifiedNameProblem? (Text.trim t.raw) = none := by decide +kernel
  refine ⟨h, units, hunits, ?_⟩
  rw [List.forall₂_iff_get] at hclauses
  obtain ⟨hlength, hall⟩ := hclauses
  intro u hu
  obtain ⟨i, hi, rfl⟩ := List.getElem_of_mem hu
  have hdeclared := hnames _ (List.getElem_mem (hlength ▸ hi))
  refine (hall i (hlength ▸ hi) hi).2.2 fun t ht => ?_
  exact qualifiedNameProblem?_eq_none_iff.1 (hdeclared t ht)

/-- A class and an interface with primitive types and arrays in their clauses. -/
def primitiveClauses : Manifest where
  classes :=
    [{ name := "p.A".toList
       superclass := some (.name "int".toList)
       interfaces := [.name "long".toList, .table "q.C []".toList [.name "q.B".toList]]
       constructors := [{ throws := [.name " byte [][] ".toList] }]
       methods := [{ name := "run".toList, throws := [.name "boolean".toList] }] },
     { name := "p.I".toList, isInterface := true, interfaces := [.name "q.B[]".toList] }]

theorem primitiveClauses_no_class_types :
    primitiveClauses.problem? [] = none ∧ ∃ a i, primitiveClauses.units = .ok [a, i] ∧
      (a.classDef.clauseTypes.length = 5 ∧ i.classDef.clauseTypes.length = 1) ∧
      (∀ ty ∈ a.classDef.clauseTypes ++ i.classDef.clauseTypes, ty.isClassType = false) ∧
      a.classDef.head ClassName.qualified =
        "public class A extends int implements long, q.C<q.B>[]".toList ∧
      (a.classDef.methods.map fun x => x.signature ClassName.qualified) =
        ["public A() throws byte[][]".toList, "public void run() throws boolean".toList] ∧
      i.classDef.head ClassName.qualified = "public interface I extends q.B[]".toList := by
  have h : primitiveClauses.problem? [] = none := by decide +kernel
  refine ⟨h, _, _, units_eq (problem?_eq_none_iff.1 h), ⟨rfl, rfl⟩, ?_, ?_, ?_, ?_⟩
  · decide +kernel
  · decide +kernel
  · decide +kernel
  · decide +kernel

end Manifest

end JavaSource
