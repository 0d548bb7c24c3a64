import JavaSource.Proofs.LinkRoundTrip
import JavaSource.Proofs.WellFormed

/-!
# Erasure of texts and of types

A link is resolved by texts: type arguments and blanks are dropped from what is declared, and the
rest is compared. What a comment shows for it is erased from the types that were built. The two
come to the same for every accepted expression, so that every reference in a comment shows the very
texts by which its method was found.
-/

namespace JavaSource

def ClassDef.docs (d : ClassDef) : Doc :=
  d.doc ++ d.fields.flatMap Field.doc ++ d.methods.flatMap Method.doc

/-- The argument types that a reference shows, with all classes in full. -/
def MemberRef.shownArgs (r : MemberRef) : List Text := r.args.map JavaType.qualified

/-- How a part of a declared comment appears in the built one. A link appears as a reference that
shows the erased argument types of the method that was picked, and these are the ones that the link
itself gives, if it gives any. -/
inductive Appears (m : Manifest) : DocPart → DocFragment → Prop
  | text {s : Text} : Appears m (.text s) (.text s)
  | type {t : TypeExpr} {ty : JavaType} : t.build = .ok ty → Appears m (.link t) (.typeLink ty)
  | member {link : Text} {l : MemberLink} {t : MemberTarget} {r : MemberRef} :
      MemberLink.ofText? link = some l → m.resolve link = .ok t →
      Manifest.pick t.classIndex t.classDecl l = .ok t →
      r.shownArgs = t.method.erasedArgs → (∀ args, l.args = some args → r.shownArgs = args) →
      Appears m (.member link) (.memberLink r)

/-- References to the methods of a built class show the texts that links to their declarations are
compared with, and so do all references in its comments. -/
structure ErasuresAgree (m : Manifest) (c : ClassDecl) (d : ClassDef) : Prop where
  methods : List.Forall₂ (fun k x => (x.memberRef d.name).shownArgs = k.erasedArgs)
    c.methods (d.methods.drop c.constructors.length)
  docs : List.Forall₂ (Appears m) c.docs d.docs

theorem MethodDecl.shownArgs_memberRef {k : MethodDecl} {inInterface : Bool}
    (h : k.Accepted inInterface) (owner : ClassName) (doc : Doc) :
    (({ k.toMethod inInterface with doc } : Method).memberRef owner).shownArgs = k.erasedArgs := by
  have hbuilt : (k.toMethod inInterface).arguments.map Argument.type =
      k.args.map fun a => a.type.toType := by
    simp only [toMethod, Method.withMember, Method.addArguments_eq, List.nil_append,
      map_type_argumentsFrom]
  have hshown : (({ k.toMethod inInterface with doc } : Method).memberRef owner).shownArgs =
      ((k.toMethod inInterface).arguments.map Argument.type).map fun t => t.erasure.qualified := by
    simp only [MemberRef.shownArgs, Method.memberRef, List.map_map, Function.comp_def]
  rw [hshown, hbuilt, List.map_map]
  refine List.map_congr_left fun a ha => ?_
  exact TypeExpr.qualified_erasure_toType (h.signature.argument a ha).type

namespace Manifest

variable {m : Manifest} {c : ClassDecl}

theorem appears_fragmentOf (h : m.Accepted) (hc : c ∈ m.classes) {part : DocPart}
    (hpart : part ∈ c.docs) : Appears m part (m.fragmentOf part) := by
  cases part with
  | text s => exact .text
  | link t => exact .type (TypeExpr.build_eq ((h.classes c hc).link hpart))
  | member link =>
    obtain ⟨t, ht⟩ := h.links c hc link hpart
    obtain ⟨l, hl, -, hpick⟩ := exists_pick_of_resolve ht
    obtain ⟨-, -, -, hfits, -⟩ := pick_eq_ok_iff.1 hpick
    have hshown : t.memberRef.shownArgs = t.method.erasedArgs :=
      MethodDecl.shownArgs_memberRef (accepted_of_resolve h ht).2 _ _
    have hfragment : m.fragmentOf (.member link) = .memberLink t.memberRef := by
      simp only [fragmentOf, ht]
    rw [hfragment]
    refine .member hl ht hpick hshown fun args hargs => ?_
    exact hshown.trans ((MemberLink.fits_iff.1 hfits).2 args hargs)

theorem docs_classOf : (m.classOf c).docs = c.docs.map m.fragmentOf := by
  simp only [ClassDef.docs, ClassDecl.docs, classOf, docOf, List.map_append, List.map_flatMap,
    List.flatMap_append, List.flatMap_map, List.append_assoc]

theorem erasuresAgree_classOf (h : m.Accepted) (hc : c ∈ m.classes) :
    ErasuresAgree m c (m.classOf c) where
  methods := by
    rw [drop_methods_classOf, List.forall₂_map_right_iff, List.forall₂_same]
    intro k hk
    exact MethodDecl.shownArgs_memberRef ((h.classes c hc).methods k hk) _ _
  docs := by
    rw [docs_classOf, List.forall₂_map_right_iff, List.forall₂_same]
    intro part hpart
    exact appears_fragmentOf h hc hpart

/-- Every accepted expression is built, and the erasure of the type in full is the erased text of
the expression. So the references in the comments of an accepted manifest show the texts that their
links were compared with. -/
theorem erasures_agree :
    (∀ t : TypeExpr, t.problem? = none →
      ∃ ty, t.build = .ok ty ∧ ty.erasure.qualified = t.erasedName) ∧
    ∀ (source : Text) (m : Manifest), m.problem? source = none →
      ∃ units, m.units = .ok units ∧
        List.Forall₂ (fun c u => ErasuresAgree m c u.classDef) m.classes units := by
  refine ⟨fun t h => ⟨_, TypeExpr.build_eq h, TypeExpr.qualified_erasure_toType h⟩, ?_⟩
  intro source m h
  have ha := problem?_eq_none_iff.1 h
  exact exists_units_forall₂ ha fun c hc => erasuresAgree_classOf ha hc

/-- A list of arrays, with blanks in front of its brackets. -/
def spacedList : TypeExpr :=
  .table " java.util.List\t[] []".toList [.name "q.B []".toList]

def overloadReader : ClassDecl where
  name := "p.A".toList
  doc := [.text "Reads ".toList, .member " q.B#put( java.util.List[][],,int [ ] )".toList]

def overloadTarget : ClassDecl where
  name := "q.B".toList
  constructors := [{}]
  methods :=
    [{ name := "put".toList, args := [{ type := .name "int".toList }] },
     { name := "put".toList
       args := [{ type := spacedList }, { type := .name "int []".toList }] }]

def overloadsRead : Manifest where
  classes := [overloadReader, overloadTarget]

theorem overloadsRead_shown :
    (spacedList.problem? = none ∧ ∃ ty, spacedList.build = .ok ty ∧
      ty.erasure.qualified = "java.util.List[][]".toList) ∧
    overloadsRead.problem? [] = none ∧ ∃ u v, overloadsRead.units = .ok [u, v] ∧
      ∃ r, .memberLink r ∈ u.classDef.docs ∧
        r.shownArgs = ["java.util.List[][]".toList, "int[]".toList] := by
  have hlist : spacedList.problem? = none := by decide +kernel
  have herased : spacedList.erasedName = "java.util.List[][]".toList := by decide +kernel
  have h : overloadsRead.problem? [] = none := by decide +kernel
  obtain ⟨htypes, hmanifests⟩ := erasures_agree
  obtain ⟨ty, hbuilt, hqualified⟩ := htypes spacedList hlist
  obtain ⟨units, hunits, hagree⟩ := hmanifests [] overloadsRead h
  have hagree : List.Forall₂ (fun c u => ErasuresAgree overloadsRead c u.classDef)
      [overloadReader, overloadTarget] units := hagree
  obtain ⟨u, rest, hreader, hrest, rfl⟩ := List.forall₂_cons_left_iff.1 hagree
  obtain ⟨v, rest, -, hnil, rfl⟩ := List.forall₂_cons_left_iff.1 hrest
  obtain rfl := List.forall₂_nil_left_iff.1 hnil
  refine ⟨⟨hlist, ty, hbuilt, hqualified.trans herased⟩, h, u, v, hunits, ?_⟩
  have hdocs : List.Forall₂ (Appears overloadsRead)
      [.text "Reads ".toList, .member " q.B#put( java.util.List[][],,int [ ] )".toList]
      u.classDef.docs := hreader.docs
  obtain ⟨first, others, -, hothers, hall⟩ := List.forall₂_cons_left_iff.1 hdocs
  obtain ⟨second, rest, hsecond, -, rfl⟩ := List.forall₂_cons_left_iff.1 hothers
  cases hsecond with
  | @member _ l t r hl ht hpick hshown hargs =>
    have hread : MemberLink.ofText? " q.B#put( java.util.List[][],,int [ ] )".toList =
        some ⟨"q.B".toList, "put".toList,
          some ["java.util.List[][]".toList, "int[]".toList]⟩ := by decide +kernel
    rw [hread] at hl
    refine ⟨r, ?_, hargs _ (congrArg MemberLink.args (Option.some.inj hl)).symm⟩
    rw [hall]
    exact List.mem_cons_of_mem _ (List.mem_cons_self ..)

end Manifest

end JavaSource
