import JavaSource.Part
import JavaSource.Proofs.FirstClaim

/-!
# Names that are settled

A part is written with names of the classes that it mentions and with no others. Once it has
claimed them, each is short or not for good: whatever is claimed later, the part is written the
same.
-/

namespace JavaSource

variable {f g : Naming}

/-! ### What a layout takes from a naming -/

theorem JavaType.map_text_congr {ts : List JavaType}
    (h : ∀ c ∈ ts.flatMap JavaType.classNames, f c = g c) : ts.map (text f) = ts.map (text g) :=
  List.map_congr_left fun t ht => t.text_congr fun c hc => h c (List.mem_flatMap.2 ⟨t, ht, hc⟩)

theorem MemberRef.text_congr {m : MemberRef} (h : ∀ c ∈ m.classNames, f c = g c) :
    m.text f = m.text g := by
  have howner := h m.owner (List.mem_cons_self ..)
  have hargs := JavaType.map_text_congr fun c hc => h c (List.mem_cons_of_mem _ hc)
  simp only [text, howner, hargs]

theorem DocFragment.layout_congr {d : DocFragment} (h : ∀ c ∈ d.classNames, f c = g c) :
    d.layout f = d.layout g := by
  cases d with
  | text s => rfl
  | typeLink t => simp only [layout, t.text_congr h]
  | memberLink m => simp only [layout, MemberRef.text_congr h]

theorem Doc.layout_congr {d : Doc} (h : ∀ c ∈ classNames d, f c = g c) :
    layout f d = layout g d := by
  have hbody : d.flatMap (DocFragment.layout f) = d.flatMap (DocFragment.layout g) :=
    List.flatMap_congr fun fragment hd =>
      DocFragment.layout_congr fun c hc => h c (List.mem_flatMap.2 ⟨fragment, hd, hc⟩)
  unfold layout
  rw [hbody]

namespace Code

mutual

theorem layoutOfFragment_congr :
    (fragment : CodeFragment) → (∀ c ∈ classNamesOfFragment fragment, f c = g c) →
      layoutOfFragment f fragment = layoutOfFragment g fragment
  | .text _, _ => rfl
  | .type t, h => by
    have ht := t.text_congr (f := f) (g := g) h
    simp only [layoutOfFragment, ht]
  | .indented body, h => by
    have hbody := layout_congr body h
    simp only [layoutOfFragment, hbody]

theorem layout_congr :
    (code : List CodeFragment) → (∀ c ∈ classNames code, f c = g c) →
      layout f code = layout g code
  | [], _ => rfl
  | fragment :: rest, h => by
    rw [classNames, List.forall_mem_append] at h
    rw [layout, layout, layoutOfFragment_congr fragment h.1, layout_congr rest h.2]

end

end Code

theorem annotationLines_congr {annotations : List ClassName} (h : ∀ c ∈ annotations, f c = g c) :
    annotationLines f annotations = annotationLines g annotations :=
  List.map_congr_left fun c hc => by rw [h c hc]

theorem Field.layout_congr {d : Field} (h : ∀ c ∈ d.classNames, f c = g c) :
    d.layout f = d.layout g := by
  simp only [classNames, List.forall_mem_append] at h
  obtain ⟨⟨htype, hinit⟩, hdoc⟩ := h
  have hhead : d.head f = d.head g := by
    unfold head
    rw [d.type.text_congr htype]
  unfold layout
  rw [Doc.layout_congr hdoc, hhead]
  cases hd : d.init with
  | none => rfl
  | some code =>
    rw [hd] at hinit
    simp only [Code.layout_congr code hinit]

namespace Method

theorem signature_congr {m : Method}
    (h : ∀ c ∈ (m.returnType.toList ++ m.arguments.map Argument.type ++ m.exceptions).flatMap
      JavaType.classNames, f c = g c) : m.signature f = m.signature g := by
  simp only [List.flatMap_append, List.forall_mem_append] at h
  obtain ⟨⟨hreturn, hargs⟩, hexceptions⟩ := h
  have hlead : m.returnLead f = m.returnLead g := by
    unfold returnLead
    cases hr : m.returnType with
    | none => rfl
    | some t =>
      simp only [hr, Option.toList_some, List.flatMap_cons, List.flatMap_nil,
        List.append_nil] at hreturn
      simp only [t.text_congr hreturn]
  have harguments : m.arguments.map (argumentText f) = m.arguments.map (argumentText g) := by
    refine List.map_congr_left fun a ha => ?_
    have hmem : a.type ∈ m.arguments.map Argument.type := List.mem_map_of_mem ha
    have ha := a.type.text_congr fun c hc => hargs c (List.mem_flatMap.2 ⟨_, hmem, hc⟩)
    simp only [argumentText, ha]
  have hthrows : m.throwsClause f = m.throwsClause g := by
    unfold throwsClause
    rw [JavaType.map_text_congr hexceptions]
  unfold signature
  rw [hlead, harguments, hthrows]

theorem layout_congr {m : Method} (h : ∀ c ∈ m.classNames, f c = g c) :
    m.layout f = m.layout g := by
  simp only [classNames, List.forall_mem_append] at h
  obtain ⟨⟨⟨hsignature, hbody⟩, hannotations⟩, hdoc⟩ := h
  unfold layout
  rw [Doc.layout_congr hdoc, annotationLines_congr hannotations, signature_congr hsignature,
    Code.layout_congr m.body hbody]

end Method

namespace ClassDef

theorem head_congr {d : ClassDef}
    (h : ∀ c ∈ (d.superclass.toList ++ d.interfaces).flatMap JavaType.classNames, f c = g c) :
    d.head f = d.head g := by
  simp only [List.flatMap_append, List.forall_mem_append] at h
  obtain ⟨hsuperclass, hinterfaces⟩ := h
  have hextends : d.extendsClause f = d.extendsClause g := by
    unfold extendsClause
    cases hs : d.superclass with
    | none => rfl
    | some t =>
      simp only [hs, Option.toList_some, List.flatMap_cons, List.flatMap_nil,
        List.append_nil] at hsuperclass
      simp only [t.text_congr hsuperclass]
  unfold head interfacesClause
  rw [hextends, JavaType.map_text_congr hinterfaces]

theorem methodsLayout_congr (opensBody : Bool) {ms : List Method}
    (h : ∀ c ∈ ms.flatMap Method.classNames, f c = g c) :
    methodsLayout f opensBody ms = methodsLayout g opensBody ms := by
  induction ms generalizing opensBody with
  | nil => rfl
  | cons m ms ih =>
    rw [List.flatMap_cons, List.forall_mem_append] at h
    rw [methodsLayout, methodsLayout, Method.layout_congr h.1, ih false h.2]

theorem layout_congr {d : ClassDef} (h : ∀ c ∈ d.classNames, f c = g c) :
    d.layout f = d.layout g := by
  simp only [classNames, List.forall_mem_append] at h
  obtain ⟨⟨⟨⟨hhead, hannotations⟩, hdoc⟩, hfields⟩, hmethods⟩ := h
  have hfields : d.fields.flatMap (Field.layout f) = d.fields.flatMap (Field.layout g) :=
    List.flatMap_congr fun field hf =>
      Field.layout_congr fun c hc => hfields c (List.mem_flatMap.2 ⟨field, hf, hc⟩)
  unfold layout members
  rw [Doc.layout_congr hdoc, annotationLines_congr hannotations, head_congr hhead, hfields,
    methodsLayout_congr _ hmethods]

end ClassDef

/-- The layout of a part takes from a naming only the classes that the part mentions. -/
theorem Part.layout_congr {p : Part} (h : ∀ c ∈ p.classNames, f c = g c) :
    p.layout f = p.layout g := by
  cases p with
  | code c => exact Code.layout_congr c h
  | doc d => exact Doc.layout_congr h
  | field d => exact Field.layout_congr h
  | method m => exact Method.layout_congr h
  | classDef c => exact ClassDef.layout_congr h

/-! ### Claims after the claims of a part -/

namespace Imports

/-- A class that was claimed is written the same after any further claims. -/
theorem AfterClaims.name_claimAll {r : Imports} {ns : List ClassName} (h : AfterClaims r ns)
    (cs : List ClassName) {c : ClassName} (hc : c ∈ ns) : (r.claimAll cs).name c = r.name c := by
  simp only [name, h.isShort_claimAll cs hc]

theorem afterClaims_collect (package : Option Text) (ops : List Op) (p : Part) :
    AfterClaims (p.collect (run package ops)) (claimed ops ++ p.classNames) :=
  (afterClaims_run package ops).claimAll p.classNames

end Imports

/-- Whatever was claimed before a part claims its names, claiming them once more changes nothing,
and no later claim or registration changes the text of the part, at any depth. -/
theorem Part.text_settled (package : Option Text) (ops : List Imports.Op) (p : Part) :
    let r := p.collect (Imports.run package ops)
    p.collect r = r ∧
      ∀ (more : List Imports.Op) (indent : Indent) (depth : Nat),
        p.text (more.foldl Imports.perform r) indent depth = p.text r indent depth := by
  have hclaims := Imports.afterClaims_collect package ops p
  have hmentioned : p.classNames ⊆ Imports.claimed ops ++ p.classNames :=
    List.subset_append_right _ _
  refine ⟨hclaims.claimAll_eq_of_subset hmentioned, fun more indent depth => ?_⟩
  have hnames : ∀ c ∈ p.classNames,
      (more.foldl Imports.perform (p.collect (Imports.run package ops))).name c =
        (p.collect (Imports.run package ops)).name c := by
    intro c hc
    rw [Imports.foldl_perform]
    exact hclaims.name_claimAll _ (hmentioned hc)
  unfold text
  rw [layout_congr hnames]

end JavaSource
