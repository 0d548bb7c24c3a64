import JavaSource.Proofs.ClassPieces
import JavaSource.Proofs.FirstClaim

/-!
# What a short name means

A file writes a class by its simple name only if the reader of the file finds that class under
this name: by the one import line with the name, in the file's own package or in `java.lang`,
with nothing nearer in the way. The names of a file are those of its class in pieces.
-/

namespace JavaSource

open Piece Imports

theorem ClassName.simple_ne_qualified {c : ClassName} (h : c.qualifier ≠ []) :
    c.simple ≠ c.qualified := by
  intro he
  have hlength := congrArg List.length he
  simp only [ClassName.qualified, List.isEmpty_iff, h, if_false, List.length_append,
    List.length_cons] at hlength
  omega

namespace CompilationUnit

variable {u : CompilationUnit} {c : ClassName}

theorem afterClaims_imports (u : CompilationUnit) : AfterClaims u.imports u.claims :=
  (afterClaims_forPackage u.package).claimAll u.claims

theorem needsImport_iff (u : CompilationUnit) (c : ClassName) :
    u.imports.needsImport c = true ↔
      c.qualifier ≠ [] ∧ c.qualifier ≠ "java.lang".toList ∧ c.qualifier ≠ u.package := by
  have hstart := needsImport_start_iff (some u.package) c
  simp only [implicitPackages, List.mem_cons, List.not_mem_nil, or_false, not_or] at hstart
  rw [← hstart]
  simp only [needsImport, imports, implicit_claimAll, start]

theorem mem_importLines_iff (u : CompilationUnit) (c : ClassName) :
    c ∈ u.imports.importLines ↔ IsFirst u.claims c ∧
      c.qualifier ≠ [] ∧ c.qualifier ≠ "java.lang".toList ∧ c.qualifier ≠ u.package := by
  rw [importLines, List.mem_filter, (afterClaims_imports u).mem_owners, needsImport_iff]

/-- A class with a qualifier is written by its simple name exactly if it was the first to claim
it. -/
theorem name_eq (u : CompilationUnit) (h : c.qualifier ≠ []) :
    u.imports.name c = if IsFirst u.claims c then c.simple else c.qualified := by
  have hempty : c.qualifier.isEmpty = false := by simp [h]
  simp only [Imports.name, hempty, Bool.false_or, (afterClaims_imports u).isShort_iff]

/-! ### Names of the file's own package -/

/-- The classes that are visible in the file before any import: its own and its peers. -/
def locals (u : CompilationUnit) : List ClassName :=
  u.classDef.name :: u.peers.map (ClassName.mk u.package)

theorem claims_eq (u : CompilationUnit) : u.claims = u.locals ++ u.classDef.classNames := rfl

theorem mem_locals_iff :
    c ∈ u.locals ↔
      c.qualifier = u.package ∧ (c.simple = u.classDef.name.simple ∨ c.simple ∈ u.peers) := by
  constructor
  · intro h
    rcases List.mem_cons.1 h with rfl | h
    · exact ⟨rfl, Or.inl rfl⟩
    · obtain ⟨s, hs, rfl⟩ := List.mem_map.1 h
      exact ⟨rfl, Or.inr hs⟩
  · rintro ⟨hq, hs⟩
    have hc : c = ⟨u.package, c.simple⟩ := by rw [← hq]
    rw [hc]
    rcases hs with hs | hs
    · rw [hs]
      exact List.mem_cons_self ..
    · exact List.mem_cons_of_mem _ (List.mem_map.2 ⟨c.simple, hs, rfl⟩)

theorem qualifier_of_mem_locals (h : c ∈ u.locals) : c.qualifier = u.package :=
  (mem_locals_iff.1 h).1

/-- All local classes share the qualifier, so a simple name alone settles which of them is the first
to bear it. -/
theorem firstWith_locals (u : CompilationUnit) (s : Text) :
    firstWith u.locals s =
      if s = u.classDef.name.simple ∨ s ∈ u.peers then some ⟨u.package, s⟩ else none := by
  cases hf : firstWith u.locals s with
  | none =>
    have hnone := firstWith_eq_none_iff.1 hf
    refine (if_neg fun hs => ?_).symm
    exact hnone ⟨u.package, s⟩ (mem_locals_iff.2 ⟨rfl, hs⟩) rfl
  | some d =>
    obtain ⟨hd, hs⟩ := mem_of_firstWith hf
    obtain ⟨hq, hlocal⟩ := mem_locals_iff.1 hd
    rw [hs] at hlocal
    rw [if_pos hlocal, ← hq, ← hs]

theorem firstWith_claims_of_local (u : CompilationUnit) {s : Text}
    (h : s = u.classDef.name.simple ∨ s ∈ u.peers) :
    firstWith u.claims s = some ⟨u.package, s⟩ := by
  rw [claims_eq, firstWith_append, firstWith_locals, if_pos h, Option.some_or]

theorem isFirst_own (u : CompilationUnit) : IsFirst u.claims u.classDef.name := by
  simp [IsFirst, firstWith, claims]

/-- A simple name of the file's own package is short for no other class. -/
theorem qualifier_of_isFirst (hc : IsFirst u.claims c)
    (h : c.simple = u.classDef.name.simple ∨ c.simple ∈ u.peers) : c.qualifier = u.package := by
  have hcd := Option.some.inj (hc.symm.trans (firstWith_claims_of_local u h))
  rw [hcd]

/-! ### Short names -/

/-- In the file, the simple name of a class means this class. -/
structure Resolves (u : CompilationUnit) (c : ClassName) : Prop where
  imported : c.qualifier ≠ "java.lang".toList → c.qualifier ≠ u.package →
    u.imports.importLines.filter (fun d => d.simple = c.simple) = [c] ∧
      c.simple ≠ u.classDef.name.simple ∧ c.simple ∉ u.peers
  ofPackage : c.qualifier = u.package → ∀ d ∈ u.imports.importLines, d.simple ≠ c.simple
  ofLang : c.qualifier = "java.lang".toList → c.qualifier ≠ u.package →
    (∀ d ∈ u.imports.importLines, d.simple ≠ c.simple) ∧
      c.simple ≠ u.classDef.name.simple ∧ c.simple ∉ u.peers

theorem filter_importLines (hc : c ∈ u.imports.importLines) :
    u.imports.importLines.filter (fun d => d.simple = c.simple) = [c] := by
  have hfirst := ((mem_importLines_iff u c).1 hc).1
  have hall : ∀ d ∈ u.imports.importLines.filter (fun d => d.simple = c.simple), d = c := by
    intro d hd
    obtain ⟨hd, hs⟩ := List.mem_filter.1 hd
    exact ((mem_importLines_iff u d).1 hd).1.eq hfirst (by simpa using hs)
  have hnodup : u.imports.importLines.Nodup := by
    rw [(afterClaims_imports u).importLines_eq]
    exact (nodup_eraseDups _).filter _
  refine List.perm_singleton.1 ((List.perm_ext_iff_of_nodup (hnodup.filter _)
    (List.nodup_singleton c)).2 fun d => ?_)
  rw [List.mem_singleton]
  constructor
  · exact hall d
  · rintro rfl
    exact List.mem_filter.2 ⟨hc, by simp⟩

theorem resolves_of_isFirst (hc : IsFirst u.claims c) (hq : c.qualifier ≠ []) : u.Resolves c := by
  have hforeign : c.qualifier ≠ u.package →
      c.simple ≠ u.classDef.name.simple ∧ c.simple ∉ u.peers := by
    intro hp
    exact ⟨fun h => hp (qualifier_of_isFirst hc (Or.inl h)),
      fun h => hp (qualifier_of_isFirst hc (Or.inr h))⟩
  have hother : ¬u.imports.needsImport c = true →
      ∀ d ∈ u.imports.importLines, d.simple ≠ c.simple := by
    intro hn d hd hs
    have hdc : d = c := ((mem_importLines_iff u d).1 hd).1.eq hc hs
    exact hn ((needsImport_iff u c).2 (hdc ▸ ((mem_importLines_iff u d).1 hd).2))
  refine ⟨?_, ?_, ?_⟩
  · intro hlang hpackage
    exact ⟨filter_importLines ((mem_importLines_iff u c).2 ⟨hc, hq, hlang, hpackage⟩),
      hforeign hpackage⟩
  · intro hpackage
    exact hother fun hn => ((needsImport_iff u c).1 hn).2.2 hpackage
  · intro hlang hpackage
    exact ⟨hother fun hn => ((needsImport_iff u c).1 hn).2.1 hlang, hforeign hpackage⟩

/-- A file writes a class with a qualifier short if the class was the first with its simple name,
and in full otherwise. -/
theorem written_of_mem {indent : Indent} {w : Text} (hm : (c, w) ∈ named (u.classPieces indent))
    (hq : c.qualifier ≠ []) :
    w = c.simple ∧ IsFirst u.claims c ∨ w = c.qualified ∧ ¬IsFirst u.claims c := by
  rcases mem_named_classPieces hm with h | ⟨-, h⟩
  · obtain ⟨rfl, rfl⟩ := Prod.mk.inj h
    exact Or.inl ⟨rfl, isFirst_own u⟩
  · have hw : w = u.imports.name c := h
    rw [name_eq u hq] at hw
    by_cases hc : IsFirst u.claims c
    · rw [if_pos hc] at hw
      exact Or.inl ⟨hw, hc⟩
    · rw [if_neg hc] at hw
      exact Or.inr ⟨hw, hc⟩

/-- A file reads as its front, its import lines and its class in pieces, and whatever a naming
decides about the text of the class is in the names among these pieces. Each class with a qualifier
is written in full, or by its simple name, and then this name means the class in the file. No simple
name is written for two such classes. -/
theorem written_names_resolve (indent : Indent) (u : CompilationUnit) :
    u.render indent = Layout.render indent (u.headerLayout ++ u.packageLayout) ++ u.importsText ++
      textAll (u.classPieces indent) ∧
    (∀ naming : Naming, naming u.classDef.name = u.classDef.name.simple →
      Layout.render indent (u.classDef.layout naming) = textAll (PieceLayout.pieces indent
        (PieceLayout.renamedAll naming (u.classDef.pieceLayout u.imports.name)))) ∧
    (∀ c w inComment, .name c w inComment ∈ u.classPieces indent → c.qualifier ≠ [] →
      w = c.qualified ∨ w = c.simple ∧ u.Resolves c) ∧
    ∀ c d w inComment inComment', .name c w inComment ∈ u.classPieces indent →
      .name d w inComment' ∈ u.classPieces indent → c.qualifier ≠ [] → d.qualifier ≠ [] →
      w = c.simple → w = d.simple → c = d := by
  refine ⟨render_eq indent u, ?_, ?_, ?_⟩
  · intro naming hown
    have htidy := u.classDef.tidyAll_pieceLayout naming
    rw [ClassDef.renamedAll_pieceLayout _ naming u.classDef hown, PieceLayout.textAll_pieces indent
      htidy, ClassDef.plainAll_pieceLayout]
  · intro c w b hm hq
    rcases written_of_mem (mem_named.2 ⟨b, hm⟩) hq with ⟨hw, hc⟩ | ⟨hw, -⟩
    · exact Or.inr ⟨hw, resolves_of_isFirst hc hq⟩
    · exact Or.inl hw
  · have hfirst : ∀ c w b, .name c w b ∈ u.classPieces indent → c.qualifier ≠ [] →
        w = c.simple → IsFirst u.claims c := by
      intro c w b hm hq hw
      rcases written_of_mem (mem_named.2 ⟨b, hm⟩) hq with ⟨-, hc⟩ | ⟨hfull, -⟩
      · exact hc
      · exact absurd (hw.symm.trans hfull) (ClassName.simple_ne_qualified hq)
    intro c d w b b' hmc hmd hqc hqd hwc hwd
    exact (hfirst c w b hmc hqc hwc).eq (hfirst d w b' hmd hqd hwd) (hwc.symm.trans hwd)

/-- A class whose comment links to a class with a star and a slash in its name. -/
def starredLink : CompilationUnit where
  classDef :=
    { name := ClassName.ofText "p.A".toList
      doc := [.typeLink (.named (ClassName.ofText "q.X*/Y".toList))] }

/-- Inside a comment a name can read neither in full nor as its simple name: the slash behind the
star is replaced there. -/
theorem starredLink_written :
    starredLink.render .standard = ("package p;\n\nimport q.X*/Y;\n\n/**\n * \x7b@link X*&#47;Y\x7d\n" ++
      " */\npublic class A \x7b\n\x7d\n").toList ∧
    ∃ c w inComment, .name c w inComment ∈ starredLink.classPieces .standard ∧
      c.qualifier ≠ [] ∧ (Piece.name c w inComment).text ≠ c.qualified ∧
      (Piece.name c w inComment).text ≠ c.simple := by
  refine ⟨by decide +kernel, ?_⟩
  refine ⟨ClassName.ofText "q.X*/Y".toList, "X*/Y".toList, true, ?_⟩
  decide +kernel

end CompilationUnit

end JavaSource
