import JavaSource.Proofs.ImportExactness

/-!
# Bare names

A file writes some classes by their bare simple names: the first that claims such a name, and any
class of the default package, which has no other name. Where these are two classes, the file
writes both alike. In `java.lang` no import line tells which class a bare name means, and it is
taken by what the file mentions first, unless the file's own package declares the name.
-/

namespace JavaSource

open Piece Imports

/-! ### Classes that are written alike -/

theorem ClassName.dot_mem_qualified {c : ClassName} (h : c.qualifier ≠ []) : '.' ∈ c.qualified := by
  simp [qualified, h]

namespace CompilationUnit

variable {u : CompilationUnit} {c d : ClassName}

/-- The class is written by its simple name. -/
def WritesBare (u : CompilationUnit) (c : ClassName) : Prop :=
  c.qualifier = [] ∨ IsFirst u.claims c

theorem name_of_writesBare (h : u.WritesBare c) : u.imports.name c = c.simple := by
  by_cases hq : c.qualifier = []
  · simp [Imports.name, hq]
  · rw [name_eq u hq, if_pos (h.resolve_left hq)]

theorem name_of_not_writesBare (h : ¬u.WritesBare c) :
    c.qualifier ≠ [] ∧ u.imports.name c = c.qualified := by
  have hq : c.qualifier ≠ [] := fun hq => h (Or.inl hq)
  have hfirst : ¬IsFirst u.claims c := fun hc => h (Or.inr hc)
  exact ⟨hq, by rw [name_eq u hq, if_neg hfirst]⟩

theorem name_eq_name_iff (hc : '.' ∉ c.simple) (hd : '.' ∉ d.simple) (hne : c ≠ d) :
    u.imports.name c = u.imports.name d ↔
      c.simple = d.simple ∧ u.WritesBare c ∧ u.WritesBare d := by
  by_cases hbc : u.WritesBare c
  · by_cases hbd : u.WritesBare d
    · simp only [name_of_writesBare hbc, name_of_writesBare hbd, hbc, hbd, and_true]
    · obtain ⟨hq, hname⟩ := name_of_not_writesBare hbd
      simp only [name_of_writesBare hbc, hname, hbd, and_false, iff_false]
      -- a bare name holds no dot, and a full one does
      exact fun h => hc (h ▸ ClassName.dot_mem_qualified hq)
  · obtain ⟨hqc, hname⟩ := name_of_not_writesBare hbc
    simp only [hname, hbc, false_and, and_false, iff_false]
    by_cases hbd : u.WritesBare d
    · rw [name_of_writesBare hbd]
      exact fun h => hd (h ▸ ClassName.dot_mem_qualified hqc)
    · obtain ⟨hqd, hname'⟩ := name_of_not_writesBare hbd
      rw [hname']
      -- full names tell their classes apart
      exact fun h => hne (ClassName.eq_of_qualified_eq hc hd hqc hqd h)

/-- Of two classes with one bare name, one is of the default package and the other claimed the
name first. -/
theorem writesBare_both_iff (hs : c.simple = d.simple) (hne : c ≠ d) :
    u.WritesBare c ∧ u.WritesBare d ↔
      c.qualifier = [] ∧ IsFirst u.claims d ∨ d.qualifier = [] ∧ IsFirst u.claims c := by
  have hqualifiers : ¬(c.qualifier = [] ∧ d.qualifier = []) := by
    rintro ⟨hc, hd⟩
    cases c
    cases d
    simp_all
  have hfirst : ¬(IsFirst u.claims c ∧ IsFirst u.claims d) := fun h => hne (h.1.eq h.2 hs)
  unfold WritesBare
  tauto

theorem written_eq_name {indent : Indent} {w : Text} (h : (c, w) ∈ named (u.classPieces indent)) :
    w = u.imports.name c := by
  rcases mem_named_classPieces h with h | ⟨-, h⟩
  · obtain ⟨rfl, rfl⟩ := Prod.mk.inj h
    exact (name_of_writesBare (Or.inr (isFirst_own u))).symm
  · exact h

/-- A file writes two different classes alike exactly if they share the simple name, one of them is
of the default package, and the other claimed the name first. What is written is what stands in the
file, a slash inside a comment apart. -/
theorem written_alike_iff (indent : Indent) (u : CompilationUnit) :
    u.render indent = Layout.render indent (u.headerLayout ++ u.packageLayout) ++ u.importsText ++
      textAll (u.classPieces indent) ∧
    (∀ c w inComment, inComment = false ∨ '/' ∉ w → (Piece.name c w inComment).text = w) ∧
    ∀ s t w v inComment inComment',
      .name (ClassName.ofText s) w inComment ∈ u.classPieces indent →
      .name (ClassName.ofText t) v inComment' ∈ u.classPieces indent →
      ClassName.ofText s ≠ ClassName.ofText t →
      (w = v ↔ (ClassName.ofText s).simple = (ClassName.ofText t).simple ∧
        ((ClassName.ofText s).qualifier = [] ∧ IsFirst u.claims (ClassName.ofText t) ∨
          (ClassName.ofText t).qualifier = [] ∧ IsFirst u.claims (ClassName.ofText s))) := by
  refine ⟨render_eq indent u, ?_, ?_⟩
  · intro c w inComment h
    cases inComment with
    | false => rfl
    | true => exact commentText_eq_self false (h.resolve_left (by decide))
  · intro s t w v b b' hw hv hne
    have hws := written_eq_name (mem_named.2 ⟨b, hw⟩)
    have hvt := written_eq_name (mem_named.2 ⟨b', hv⟩)
    rw [hws, hvt, name_eq_name_iff (ClassName.dot_not_mem_simple_ofText s)
      (ClassName.dot_not_mem_simple_ofText t) hne]
    refine and_congr_right fun hs => ?_
    exact writesBare_both_iff hs hne

/-- A class of the default package with a field of another one, under whose simple name a class of a
package is imported. -/
def importedNamesake : CompilationUnit where
  classDef :=
    { name := .ofText "Main".toList
      superclass := some (.named (.ofText "q.Foo".toList))
      fields := [{ name := "a".toList, type := .named (.ofText "Foo".toList) }] }

/-- The same class, which mentions the class of the default package first. -/
def namesakeFirst : CompilationUnit where
  classDef :=
    { name := .ofText "Main".toList
      superclass := some (.named (.ofText "Foo".toList))
      fields := [{ name := "a".toList, type := .named (.ofText "q.Foo".toList) }] }

theorem namesakeFirst_written :
    ∃ w v, .name (.ofText "Foo".toList) w false ∈ namesakeFirst.classPieces .standard ∧
      .name (.ofText "q.Foo".toList) v false ∈ namesakeFirst.classPieces .standard ∧ w ≠ v := by
  have hfoo : .name (.ofText "Foo".toList) "Foo".toList false ∈
      namesakeFirst.classPieces .standard := by decide +kernel
  have hqFoo : .name (.ofText "q.Foo".toList) "q.Foo".toList false ∈
      namesakeFirst.classPieces .standard := by decide +kernel
  have halike := (written_alike_iff .standard namesakeFirst).2.2 _ _ _ _ _ _ hfoo hqFoo (by decide)
  refine ⟨_, _, hfoo, hqFoo, fun h => ?_⟩
  exact absurd (halike.1 h) (by decide +kernel)

theorem importedNamesake_written :
    importedNamesake.render .standard = ("import q.Foo;\n\npublic class Main extends Foo \x7b\n" ++
      "    private Foo a;\n\x7d\n").toList ∧
    ∃ w, .name (.ofText "Foo".toList) w false ∈ importedNamesake.classPieces .standard ∧
      .name (.ofText "q.Foo".toList) w false ∈ importedNamesake.classPieces .standard ∧
      ClassName.ofText "Foo".toList ≠ ClassName.ofText "q.Foo".toList := by
  refine ⟨by decide +kernel, "Foo".toList, ?_⟩
  decide +kernel

end CompilationUnit

/-! ### Classes of `java.lang` -/

/-- The class of `java.lang` with a simple name. -/
def ClassName.inLang (simple : Text) : ClassName := ⟨"java.lang".toList, simple⟩

namespace CompilationUnit

variable {u : CompilationUnit}

/-- The text of the file holds the simple name for the class of `java.lang`. -/
def BareLang (u : CompilationUnit) (indent : Indent) (simple : Text) : Prop :=
  ∃ w inComment, .name (.inLang simple) w inComment ∈ u.classPieces indent ∧
    (Piece.name (.inLang simple) w inComment).text = simple

theorem isFirst_inLang_iff (hpackage : u.package ≠ "java.lang".toList) (simple : Text) :
    IsFirst u.claims (.inLang simple) ↔
      firstWith u.classDef.classNames simple = some (.inLang simple) ∧
        ClassName.mk u.package simple ∉ u.locals := by
  have hlocal : ClassName.mk u.package simple ∈ u.locals ↔
      simple = u.classDef.name.simple ∨ simple ∈ u.peers := by
    rw [mem_locals_iff]
    exact and_iff_right rfl
  -- what the own package is known to hold claims before all that the class mentions
  show firstWith u.claims simple = some (.inLang simple) ↔ _
  rw [claims_eq, firstWith_append, firstWith_locals, hlocal]
  by_cases hs : simple = u.classDef.name.simple ∨ simple ∈ u.peers
  · have hne : ClassName.mk u.package simple ≠ .inLang simple :=
      fun he => hpackage (congrArg ClassName.qualifier he)
    simp [hs, hne]
  · simp [hs]

theorem bareLang_iff (h : u.WritesAll) (hslash : ∀ c ∈ u.claims, '/' ∉ c.simple ∧ '/' ∉ c.qualified)
    (hpackage : u.package ≠ "java.lang".toList) (indent : Indent) (simple : Text) :
    u.BareLang indent simple ↔ firstWith u.classDef.classNames simple = some (.inLang simple) ∧
      ClassName.mk u.package simple ∉ u.locals := by
  have hlang : (ClassName.inLang simple).qualifier ≠ [] := by
    show "java.lang".toList ≠ []
    decide
  have hforeign : ClassName.inLang simple ∉ u.locals :=
    fun hm => hpackage (qualifier_of_mem_locals hm).symm
  rw [← isFirst_inLang_iff hpackage]
  constructor
  · rintro ⟨w, b, hm, hw⟩
    rw [text_of_mem_classPieces hslash hm] at hw
    rcases written_of_mem (mem_named.2 ⟨b, hm⟩) hlang with ⟨-, hc⟩ | ⟨hfull, -⟩
    · exact hc
    · exact absurd (hw.symm.trans hfull) (ClassName.simple_ne_qualified hlang)
  · intro hc
    have hmentioned : ClassName.inLang simple ∈ u.classDef.classNames :=
      (List.mem_append.1 (claims_eq u ▸ hc.mem)).resolve_left hforeign
    have hm := (mem_named_classPieces_iff h indent (.inLang simple, simple)).2
      (Or.inr ⟨hmentioned, by rw [name_eq u hlang, if_pos hc]; rfl⟩)
    obtain ⟨b, hb⟩ := mem_named.1 hm
    exact ⟨simple, b, hb, text_of_mem_classPieces hslash hb⟩

end CompilationUnit

namespace Manifest

variable {m : Manifest}

/-- The classes that are visible in a unit without an import are those that the manifest declares
in its package. -/
theorem mem_locals_unitOf {c : ClassDecl} (hc : c ∈ m.classes) (simple : Text) :
    ClassName.mk (m.unitOf c).package simple ∈ (m.unitOf c).locals ↔
      ∃ d ∈ m.classes, ClassName.ofText d.name = ⟨(m.unitOf c).package, simple⟩ := by
  constructor
  · intro h
    rcases List.mem_cons.1 h with hown | hpeer
    · exact ⟨c, hc, hown.symm⟩
    · obtain ⟨s, hs, he⟩ := List.mem_map.1 hpeer
      obtain ⟨d, hd, rfl⟩ := List.mem_map.1 hs
      obtain ⟨hd, hpeer⟩ := List.mem_filter.1 hd
      simp only [Bool.and_eq_true, decide_eq_true_iff] at hpeer
      refine ⟨d, hd, ?_⟩
      rw [← he]
      show ClassName.mk d.package d.simpleName = ClassName.mk c.package d.simpleName
      rw [hpeer.1]
  · rintro ⟨d, hd, he⟩
    rw [← he]
    by_cases hname : d.name = c.name
    · rw [hname]
      exact List.mem_cons_self ..
    · have hpackage : d.package = c.package := congrArg ClassName.qualifier he
      have hpeer : d.simpleName ∈ m.peers c := by
        refine List.mem_map_of_mem (List.mem_filter.2 ⟨hd, ?_⟩)
        simp [hpackage, hname]
      refine List.mem_cons_of_mem _ (List.mem_map.2 ⟨d.simpleName, hpeer, ?_⟩)
      show ClassName.mk c.package d.simpleName = ClassName.mk d.package d.simpleName
      rw [hpackage]

/-- In a unit of an accepted manifest a class of `java.lang` stands by its simple name exactly if it
is the first with this name that the class of the unit mentions, and the manifest declares no class
with this name in the package of the unit. A class of that package that is only mentioned has to
come first. -/
theorem bareLang_units_iff (source : Text) (m : Manifest) (units : List CompilationUnit)
    (h : m.problem? source = none) (hunits : m.units = .ok units) :
    ∀ u ∈ units, u.package ≠ "java.lang".toList → ∀ indent simple,
      u.BareLang indent simple ↔
        firstWith u.classDef.classNames simple = some (.inLang simple) ∧
          ∀ d ∈ m.classes, ClassName.ofText d.name ≠ ⟨u.package, simple⟩ := by
  have ha := problem?_eq_none_iff.1 h
  have hbuilt : units = m.classes.map m.unitOf := Except.ok.inj (hunits.symm.trans (units_eq ha))
  intro u hu hpackage indent simple
  obtain ⟨c, hc, rfl⟩ := List.mem_map.1 (hbuilt ▸ hu)
  have hslash := fun d hd => (proper_claims ha hc d hd).slash_not_mem
  rw [CompilationUnit.bareLang_iff (writesAll_unitOf ha hc) hslash hpackage, mem_locals_unitOf hc]
  simp only [not_exists, not_and, ne_eq]

/-- A class that throws a class of `java.lang`, next to a declared class with its simple name. -/
def declaredNamesake : Manifest where
  classes :=
    [{ name := "p.Error".toList },
     { name := "p.Svc".toList
       methods := [{ name := "run".toList, throws := [.name "java.lang.Error".toList] }] }]

theorem declaredNamesake_not_bare :
    declaredNamesake.problem? [] = none ∧ ∃ units, declaredNamesake.units = .ok units ∧
      ∀ u ∈ units, ¬u.BareLang .standard "Error".toList := by
  have h : declaredNamesake.problem? [] = none := by decide +kernel
  have hunits := units_eq (problem?_eq_none_iff.1 h)
  have hpackage : ∀ u ∈ declaredNamesake.classes.map declaredNamesake.unitOf,
      u.package = ['p'] := by decide +kernel
  refine ⟨h, _, hunits, fun u hu hbare => ?_⟩
  have hlang : u.package ≠ "java.lang".toList := by
    rw [hpackage u hu]
    decide
  have hiff := bareLang_units_iff [] declaredNamesake _ h hunits u hu hlang .standard "Error".toList
  refine (hiff.1 hbare).2 _ (List.mem_cons_self ..) ?_
  rw [hpackage u hu]
  decide

/-- A class that throws a class of `java.lang` and one of its own package with one simple name. -/
def thrownNamesakes : Manifest where
  classes :=
    [{ name := "p.Svc".toList
       methods :=
        [{ name := "run".toList
           throws := [.name "java.lang.Error".toList, .name "p.Error".toList] }] }]

theorem thrownNamesakes_bare :
    thrownNamesakes.problem? [] = none ∧ ∃ u, thrownNamesakes.units = .ok [u] ∧
      u.package = ['p'] ∧ ClassName.mk ['p'] "Error".toList ∈ u.classDef.classNames ∧
      u.BareLang .standard "Error".toList ∧
      u.render .standard = ("package p;\n\npublic class Svc \x7b\n" ++
        "    public void run() throws Error, p.Error \x7b\n    \x7d\n\x7d\n").toList := by
  have h : thrownNamesakes.problem? [] = none := by decide +kernel
  refine ⟨h, _, units_eq (problem?_eq_none_iff.1 h), rfl, by decide +kernel, ?_, by decide +kernel⟩
  exact ⟨"Error".toList, false, by decide +kernel, rfl⟩

end Manifest

end JavaSource
