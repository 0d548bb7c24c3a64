import JavaSource.Proofs.BuiltNames
import JavaSource.Proofs.ImportSoundness

/-!
# Imports are exact

A unit of an accepted manifest writes every class that it mentions in some text. So it imports
exactly the classes of other packages that stand in it by their simple names, and what it writes in
full are exactly the classes that found their simple name taken.
-/

namespace JavaSource

open Piece Imports

/-- A filter that takes nothing of the first list keeps the order of the second. -/
theorem filter_eraseDups_append {α : Type} [BEq α] [LawfulBEq α] {p : α → Bool} {as : List α}
    (h : ∀ a ∈ as, p a = false) (l : List α) :
    (as ++ l).eraseDups.filter p = l.eraseDups.filter p := by
  -- from the end of the list, where a class that was there before changes nothing
  induction l using List.reverseRecOn with
  | nil =>
    rw [List.append_nil, List.eraseDups_nil, List.filter_nil, List.filter_eq_nil_iff]
    intro a ha
    simp [h a (List.mem_eraseDups.1 ha)]
  | append_singleton l x ih =>
    rw [← List.append_assoc]
    by_cases hl : x ∈ l
    · rw [eraseDups_concat_of_mem hl, eraseDups_concat_of_mem (List.mem_append_right _ hl), ih]
    · rw [eraseDups_concat_of_not_mem hl, List.filter_append, ← ih]
      by_cases ha : x ∈ as
      · rw [eraseDups_concat_of_mem (List.mem_append_left _ ha)]
        simp [h x ha]
      · have hx : x ∉ as ++ l := fun hm => (List.mem_append.1 hm).elim ha hl
        rw [eraseDups_concat_of_not_mem hx, List.filter_append]

/-! ### Units that write all they mention -/

namespace CompilationUnit

variable {u : CompilationUnit}

/-- A unit that writes every class that it mentions, and each in some text. -/
structure WritesAll (u : CompilationUnit) : Prop where
  simple : ∀ c ∈ u.claims, c.simple ≠ []
  methods : ∀ m ∈ u.classDef.methods, m.FullyWritten

theorem mem_claims_of_classNames {c : ClassName} (h : c ∈ u.classDef.classNames) : c ∈ u.claims :=
  List.mem_append_right _ h

theorem isFirst_of_mem_locals {c : ClassName} (h : c ∈ u.locals) : IsFirst u.claims c := by
  obtain ⟨hq, hs⟩ := mem_locals_iff.1 h
  unfold IsFirst
  rw [firstWith_claims_of_local u hs, ← hq]

theorem name_ne_nil {c : ClassName} (h : c.simple ≠ []) : u.imports.name c ≠ [] := by
  unfold Imports.name
  split
  · exact h
  · unfold ClassName.qualified
    split
    · exact h
    · simp

theorem mem_named_classPieces_iff (h : u.WritesAll) (indent : Indent) (p : ClassName × Text) :
    p ∈ named (u.classPieces indent) ↔ p = (u.classDef.name, u.classDef.name.simple) ∨
      p.1 ∈ u.classDef.classNames ∧ p.2 = u.imports.name p.1 := by
  have hnames : ∀ q : ClassName × Text, q ∈ PieceLayout.namesAll
      (u.classDef.pieceLayout u.imports.name) ↔
        q = (u.classDef.name, u.classDef.name.simple) ∨
          q.1 ∈ u.classDef.classNames ∧ q.2 = u.imports.name q.1 := by
    intro q
    rw [ClassDef.mem_namesAll_pieceLayout, ClassDef.mem_writtenNames h.methods]
  unfold classPieces
  rw [PieceLayout.named_pieces indent, hnames]
  intro q hq
  rcases (hnames q).1 hq with rfl | ⟨hc, hw⟩
  · exact h.simple _ (List.mem_append_left _ (List.mem_cons_self ..))
  · rw [hw]
    exact name_ne_nil (h.simple _ (mem_claims_of_classNames hc))

/-- An import line stands for a class that is written by its simple name, and for each such class
that needs one there is a line. -/
theorem mem_importLines_iff_written (h : u.WritesAll) (indent : Indent) (c : ClassName) :
    c ∈ u.imports.importLines ↔ c.qualifier ≠ [] ∧ c.qualifier ≠ "java.lang".toList ∧
      c.qualifier ≠ u.package ∧ (c, c.simple) ∈ named (u.classPieces indent) := by
  rw [mem_importLines_iff]
  constructor
  · rintro ⟨hc, hq, hlang, hpackage⟩
    refine ⟨hq, hlang, hpackage, (mem_named_classPieces_iff h indent _).2 (Or.inr ⟨?_, ?_⟩)⟩
    · rcases List.mem_append.1 (claims_eq u ▸ hc.mem) with hm | hm
      · exact absurd (qualifier_of_mem_locals hm) hpackage
      · exact hm
    · show c.simple = u.imports.name c
      rw [name_eq u hq, if_pos hc]
  · rintro ⟨hq, hlang, hpackage, hm⟩
    rcases written_of_mem hm hq with ⟨-, hc⟩ | ⟨hw, -⟩
    · exact ⟨hc, hq, hlang, hpackage⟩
    · exact absurd hw (ClassName.simple_ne_qualified hq)

theorem mem_conflicts_iff_written (h : u.WritesAll) (indent : Indent) {c : ClassName}
    (hq : c.qualifier ≠ []) :
    (c, c.qualified) ∈ named (u.classPieces indent) ↔ c ∈ u.imports.conflicts := by
  rw [(afterClaims_imports u).mem_conflicts]
  constructor
  · intro hm
    rcases written_of_mem hm hq with ⟨hw, -⟩ | ⟨-, hc⟩
    · exact absurd hw.symm (ClassName.simple_ne_qualified hq)
    · refine ⟨?_, hc⟩
      rcases (mem_named_classPieces_iff h indent _).1 hm with he | ⟨hm, -⟩
      · exact absurd (isFirst_own u) ((Prod.mk.inj he).1 ▸ hc)
      · exact mem_claims_of_classNames hm
  · rintro ⟨hm, hc⟩
    rcases List.mem_append.1 (claims_eq u ▸ hm) with hm | hm
    · exact absurd (isFirst_of_mem_locals hm) hc
    · refine (mem_named_classPieces_iff h indent _).2 (Or.inr ⟨hm, ?_⟩)
      show c.qualified = u.imports.name c
      rw [name_eq u hq, if_neg hc]

/-- No class of the file's own package needs an import line. -/
theorem importLines_eq_mentioned (u : CompilationUnit) :
    u.imports.importLines = u.classDef.classNames.eraseDups.filter fun c =>
      IsFirst u.claims c ∧ u.imports.needsImport c = true := by
  have hlines := (afterClaims_imports u).importLines_eq
  rw [claims_eq, filter_eraseDups_append, ← claims_eq] at hlines
  · exact hlines
  · intro c hc
    have hpackage := qualifier_of_mem_locals hc
    simp [needsImport_iff, hpackage]

/-- The import lines come in the order in which the class first mentions their classes. -/
theorem importLines_eq_filter (h : u.WritesAll) (indent : Indent) :
    u.imports.importLines = u.classDef.classNames.eraseDups.filter fun c =>
      c.qualifier ≠ [] ∧ c.qualifier ≠ "java.lang".toList ∧ c.qualifier ≠ u.package ∧
        (c, c.simple) ∈ named (u.classPieces indent) := by
  rw [importLines_eq_mentioned]
  refine List.filter_congr fun c _ => decide_eq_decide.2 ?_
  rw [needsImport_iff, ← mem_importLines_iff, mem_importLines_iff_written h indent]

theorem nodup_simple_importLines (u : CompilationUnit) :
    (u.imports.importLines.map ClassName.simple).Nodup :=
  ((afterClaims_imports u).nodup_owners).sublist (List.filter_sublist.map _)

/-- Without dots in simple names no two import lines read the same. -/
theorem nodup_importText (h : ∀ c ∈ u.claims, '.' ∉ c.simple) :
    (u.imports.importLines.map importText).Nodup := by
  have hnodup : u.imports.importLines.Nodup := (nodup_simple_importLines u).of_map _
  refine hnodup.map_on ?_
  intro c hc d hd he
  obtain ⟨hfc, hqc, -⟩ := (mem_importLines_iff u c).1 hc
  obtain ⟨hfd, hqd, -⟩ := (mem_importLines_iff u d).1 hd
  refine ClassName.eq_of_qualified_eq (h c hfc.mem) (h d hfd.mem) hqc hqd ?_
  unfold importText at he
  exact List.append_cancel_left (List.append_cancel_right he)

/-- Without slashes in its names a file reads, inside comments too, as they were written. -/
theorem text_of_mem_classPieces (h : ∀ c ∈ u.claims, '/' ∉ c.simple ∧ '/' ∉ c.qualified)
    {indent : Indent} {c : ClassName} {w : Text} {inComment : Bool}
    (hm : .name c w inComment ∈ u.classPieces indent) : (Piece.name c w inComment).text = w := by
  have hw : '/' ∉ w := by
    rcases mem_named_classPieces (mem_named.2 ⟨inComment, hm⟩) with he | ⟨hc, he⟩
    · obtain ⟨-, rfl⟩ := Prod.mk.inj he
      exact (h _ (List.mem_append_left _ (List.mem_cons_self ..))).1
    · have hslash := h c (mem_claims_of_classNames (ClassDef.classNames_of_mem_writtenNames hc))
      have hname : w = u.imports.name c := he
      rw [hname, Imports.name]
      split
      · exact hslash.1
      · exact hslash.2
  cases inComment with
  | false => rfl
  | true => exact commentText_eq_self false hw

end CompilationUnit

/-! ### Units of accepted manifests -/

/-- A built method hides no class: a constructor has no return type, and a method that is built
without a body declares none. -/
theorem MethodDecl.fullyWritten_toMethod {inInterface : Bool} {d : MethodDecl}
    (h : d.Accepted inInterface) (doc : Doc) :
    ({ d.toMethod inInterface with doc } : Method).FullyWritten := by
  simp only [Method.FullyWritten, toMethod, Method.withMember, Method.addArguments_eq]
  refine ⟨fun hc => absurd hc Bool.false_ne_true, fun ha => ?_⟩
  have hbody : d.body = [] := by
    unfold buildsAbstract at ha
    rcases Bool.or_eq_true_iff.1 ha with ha | ha
    · exact (h.overridable ha).1
    · exact List.isEmpty_iff.1 (Bool.and_eq_true_iff.1 ha).2
  rw [hbody]
  rfl

theorem ConstructorDecl.fullyWritten_toMethod (k : ConstructorDecl) (className : Text) (doc : Doc) :
    ({ k.toMethod className with doc } : Method).FullyWritten := by
  simp only [Method.FullyWritten, toMethod, Method.withMember, Method.addArguments_eq]
  exact ⟨fun _ => trivial, fun ha => absurd ha Bool.false_ne_true⟩

namespace Manifest

theorem writesAll_unitOf {m : Manifest} (h : m.Accepted) {d : ClassDecl} (hd : d ∈ m.classes) :
    (m.unitOf d).WritesAll := by
  refine ⟨fun c hc => (proper_claims h hd c hc).simple_ne_nil, fun x hx => ?_⟩
  rcases List.mem_append.1 hx with hx | hx
  · obtain ⟨k, -, rfl⟩ := List.mem_map.1 hx
    exact k.fullyWritten_toMethod _ _
  · obtain ⟨k, hk, rfl⟩ := List.mem_map.1 hx
    exact MethodDecl.fullyWritten_toMethod ((h.classes d hd).methods k hk) _

/-- In each unit of an accepted manifest names read as they were written. The import lines differ,
also in their simple names, and are those of the classes of other packages that the text of the
class names by their simple names, in the order in which the class first mentions them. Named in
full are the conflicts and no other class. -/
theorem import_lines_exact (source : Text) (m : Manifest) (units : List CompilationUnit)
    (h : m.problem? source = none) (hunits : m.units = .ok units) :
    ∀ u ∈ units, ∀ indent,
      u.render indent = Layout.render indent (u.headerLayout ++ u.packageLayout) ++
        u.importsText ++ textAll (u.classPieces indent) ∧
      (∀ c w inComment, .name c w inComment ∈ u.classPieces indent →
        (Piece.name c w inComment).text = w) ∧
      (u.imports.importLines.map CompilationUnit.importText).Nodup ∧
      (u.imports.importLines.map ClassName.simple).Nodup ∧
      (∀ c, c ∈ u.imports.importLines ↔ c.qualifier ≠ [] ∧ c.qualifier ≠ "java.lang".toList ∧
        c.qualifier ≠ u.package ∧ (c, c.simple) ∈ named (u.classPieces indent)) ∧
      u.imports.importLines = (u.classDef.classNames.eraseDups.filter fun c =>
        c.qualifier ≠ [] ∧ c.qualifier ≠ "java.lang".toList ∧ c.qualifier ≠ u.package ∧
          (c, c.simple) ∈ named (u.classPieces indent)) ∧
      ∀ c, c.qualifier ≠ [] →
        ((c, c.qualified) ∈ named (u.classPieces indent) ↔ c ∈ u.imports.conflicts) := by
  have ha := problem?_eq_none_iff.1 h
  intro u hu indent
  have hbuilt : units = m.classes.map m.unitOf := by
    have he := hunits.symm.trans (units_eq ha)
    injection he
  obtain ⟨d, hd, rfl⟩ := List.mem_map.1 (hbuilt ▸ hu)
  have hw := writesAll_unitOf ha hd
  refine ⟨CompilationUnit.render_eq indent _, ?_, ?_,
    CompilationUnit.nodup_simple_importLines _, ?_,
    CompilationUnit.importLines_eq_filter hw indent, ?_⟩
  · exact fun c w b => CompilationUnit.text_of_mem_classPieces fun c hc =>
      (proper_claims ha hd c hc).slash_not_mem
  · exact CompilationUnit.nodup_importText fun c hc =>
      (proper_claims ha hd c hc).dot_not_mem_simple
  · exact CompilationUnit.mem_importLines_iff_written hw indent
  · exact fun c hq => CompilationUnit.mem_conflicts_iff_written hw indent hq

/-- A class that mentions two classes with one simple name, one of them twice. -/
def crowdedName : Manifest where
  classes :=
    [{ name := "p.A".toList
       superclass := some (.name "q.Item".toList)
       fields :=
        [{ name := "first".toList, type := .name "r.Item".toList },
         { name := "second".toList, type := .name "q.Item".toList }] }]

theorem crowdedName_import_lines :
    crowdedName.problem? [] = none ∧ crowdedName.units = .ok (crowdedName.classes.map crowdedName.unitOf) ∧
      ∀ u ∈ crowdedName.classes.map crowdedName.unitOf,
        u.imports.importLines = [ClassName.ofText "q.Item".toList] ∧
        u.imports.conflicts = [ClassName.ofText "r.Item".toList] ∧
        (ClassName.ofText "q.Item".toList, "Item".toList) ∈ named (u.classPieces .standard) ∧
        (ClassName.ofText "r.Item".toList, "r.Item".toList) ∈ named (u.classPieces .standard) := by
  have h : crowdedName.problem? [] = none := by decide +kernel
  have hunits := units_eq (problem?_eq_none_iff.1 h)
  refine ⟨h, hunits, fun u hu => ?_⟩
  obtain ⟨-, -, -, -, hlines, -, hfull⟩ :=
    import_lines_exact [] crowdedName _ h hunits u hu .standard
  have himports : ∀ v ∈ crowdedName.classes.map crowdedName.unitOf,
      v.imports.importLines = [ClassName.ofText "q.Item".toList] := by decide +kernel
  have hconflicts : ∀ v ∈ crowdedName.classes.map crowdedName.unitOf,
      v.imports.conflicts = [ClassName.ofText "r.Item".toList] := by decide +kernel
  refine ⟨himports u hu, hconflicts u hu, ?_, ?_⟩
  · have hq : ClassName.ofText "q.Item".toList ∈ u.imports.importLines := by
      rw [himports u hu]
      exact List.mem_singleton.2 rfl
    exact ((hlines _).1 hq).2.2.2
  · have hr : ClassName.ofText "r.Item".toList ∈ u.imports.conflicts := by
      rw [hconflicts u hu]
      exact List.mem_singleton.2 rfl
    exact (hfull _ (by decide +kernel)).2 hr

end Manifest

end JavaSource
