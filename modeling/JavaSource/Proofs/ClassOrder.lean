import JavaSource.Output
import JavaSource.Proofs.ImportExactness
import Mathlib.Data.List.InsertIdx

/-!
# Order and neighbours of classes

The file of a class depends on the other classes of its manifest only through the methods to which
its links lead and through the simple names of its own package. Both are sets: links look a class up
by its name, and all names of a package are claimed for that package, in whatever order. So neither
the order of the classes shows in a file, nor a class of another package.
-/

namespace JavaSource

open Imports

/-! ### Peers as a set -/

namespace CompilationUnit

/-- Units of one class and header whose peers are the same up to order and repetition. -/
structure SameUpToPeers (u v : CompilationUnit) : Prop where
  classDef : u.classDef = v.classDef
  header : u.header = v.header
  peers : ∀ s, s ∈ u.peers ↔ s ∈ v.peers

namespace SameUpToPeers

variable {u v : CompilationUnit}

theorem package (h : SameUpToPeers u v) : u.package = v.package := by
  unfold CompilationUnit.package
  rw [h.classDef]

theorem firstWith_claims (h : SameUpToPeers u v) (s : Text) :
    firstWith u.claims s = firstWith v.claims s := by
  rw [claims_eq, claims_eq, firstWith_append, firstWith_append, firstWith_locals,
    firstWith_locals, h.classDef, h.package]
  simp only [h.peers s]

theorem isFirst_iff (h : SameUpToPeers u v) (c : ClassName) :
    IsFirst u.claims c ↔ IsFirst v.claims c := by
  unfold IsFirst
  rw [h.firstWith_claims]

theorem name_imports (h : SameUpToPeers u v) : u.imports.name = v.imports.name := by
  funext c
  have hshort : u.imports.isShort c = v.imports.isShort c := by
    rw [Bool.eq_iff_iff, (afterClaims_imports u).isShort_iff, (afterClaims_imports v).isShort_iff]
    exact h.isFirst_iff c
  unfold Imports.name
  rw [hshort]

theorem importLines (h : SameUpToPeers u v) : u.imports.importLines = v.imports.importLines := by
  rw [importLines_eq_mentioned, importLines_eq_mentioned, h.classDef]
  refine List.filter_congr fun c _ => decide_eq_decide.2 ?_
  rw [h.isFirst_iff, needsImport_iff, needsImport_iff, h.package]

/-- The order in which peers are listed shows neither in the path of a file nor in its text. -/
theorem outputFile (h : SameUpToPeers u v) (indent : Indent) :
    u.outputFile indent = v.outputFile indent := by
  have hpath : u.path = v.path := by
    unfold path
    rw [h.package, h.classDef]
  have hlayout : u.layout = v.layout := by
    unfold layout headerLayout packageLayout importsLayout
    rw [h.header, h.package, h.importLines, h.classDef, h.name_imports]
  unfold CompilationUnit.outputFile render
  rw [hpath, hlayout]

end SameUpToPeers

end CompilationUnit

/-! ### Links in a larger manifest -/

namespace Manifest

variable {m m' : Manifest}

theorem findClass?_eq_some {name : Text} {i : Nat} {c : ClassDecl}
    (h : m.findClass? name = some (i, c)) : m.classes[i]? = some c ∧ c.name = name := by
  obtain ⟨q, hq, hqi⟩ := Option.map_eq_some_iff.1 h
  obtain ⟨rfl, rfl⟩ := Prod.mk.inj hqi
  refine ⟨List.mem_zipIdx_iff_getElem?.1 (List.mem_of_find?_eq_some hq), ?_⟩
  simpa using List.find?_some hq

theorem exists_findClass? (hd : (m.classes.map ClassDecl.name).Nodup) {c : ClassDecl}
    (hc : c ∈ m.classes) : ∃ i, m.findClass? c.name = some (i, c) := by
  cases hf : m.findClass? c.name with
  | none =>
    obtain ⟨i, hi⟩ := List.mem_iff_getElem?.1 hc
    have hnone := List.find?_eq_none.1 (Option.map_eq_none_iff.1 hf) (c, i)
      (List.mem_zipIdx_iff_getElem?.2 hi)
    simp at hnone
  | some found =>
    -- The first class with the name is the only one, as names are distinct.
    obtain ⟨i, d⟩ := found
    obtain ⟨hi, hname⟩ := findClass?_eq_some hf
    have hdc : d = c := List.inj_on_of_nodup_map hd (List.mem_of_getElem? hi) hc hname
    exact ⟨i, by rw [hdc]⟩

theorem pick_eq_ok {i : Nat} (j : Nat) {c : ClassDecl} {l : MemberLink} {t : MemberTarget}
    (h : pick i c l = .ok t) : pick j c l = .ok { t with classIndex := j } := by
  unfold pick at h ⊢
  split at h
  · simp at h
  · next hmethods =>
    rw [if_neg hmethods]
    split at h
    · simp at h
    · cases h
      rfl
    · simp at h

/-- A link keeps its target where classes with other names are added or the order is changed. -/
theorem resolve_of_subset (hsub : m.classes ⊆ m'.classes)
    (hd : (m'.classes.map ClassDecl.name).Nodup) {link : Text} {t : MemberTarget}
    (h : m.resolve link = .ok t) : ∃ i, m'.resolve link = .ok { t with classIndex := i } := by
  unfold resolve at h
  cases hl : MemberLink.ofText? link with
  | none => simp [hl] at h
  | some l =>
    cases hc : m.findClass? l.className with
    | none => simp [hl, hc] at h
    | some found =>
      obtain ⟨i, c⟩ := found
      simp only [hl, hc] at h
      obtain ⟨hi, hname⟩ := findClass?_eq_some hc
      obtain ⟨j, hj⟩ := exists_findClass? hd (hsub (List.mem_of_getElem? hi))
      refine ⟨j, ?_⟩
      simp only [resolve, hl, ← hname, hj]
      exact pick_eq_ok j h

theorem docOf_of_subset (hsub : m.classes ⊆ m'.classes)
    (hd : (m'.classes.map ClassDecl.name).Nodup) {doc : List DocPart}
    (hl : ∀ link, .member link ∈ doc → ∃ target, m.resolve link = .ok target) :
    m'.docOf doc = m.docOf doc := by
  refine List.map_congr_left fun part hpart => ?_
  cases part with
  | text s => rfl
  | link t => rfl
  | member link =>
    obtain ⟨target, htarget⟩ := hl link hpart
    obtain ⟨i, hi⟩ := resolve_of_subset hsub hd htarget
    simp only [fragmentOf, htarget, hi]
    rfl

theorem classOf_of_subset (h : m.Accepted) (hsub : m.classes ⊆ m'.classes)
    (hd : (m'.classes.map ClassDecl.name).Nodup) {c : ClassDecl} (hc : c ∈ m.classes) :
    m'.classOf c = m.classOf c := by
  have hdoc : ∀ doc : List DocPart, doc ⊆ c.docs → m'.docOf doc = m.docOf doc :=
    fun doc hdocs => docOf_of_subset hsub hd fun link hlink => h.links c hc link (hdocs hlink)
  have hclass := hdoc c.doc c.doc_subset_docs
  have hfield : ∀ f ∈ c.fields, m'.docOf f.doc = m.docOf f.doc :=
    fun f hf => hdoc f.doc (ClassDecl.fieldDoc_subset_docs hf)
  have hconstructor : ∀ k ∈ c.constructors, m'.docOf k.doc = m.docOf k.doc :=
    fun k hk => hdoc k.doc (ClassDecl.constructorDoc_subset_docs hk)
  have hmethod : ∀ d ∈ c.methods, m'.docOf d.doc = m.docOf d.doc :=
    fun d hd => hdoc d.doc (ClassDecl.methodDoc_subset_docs hd)
  have hdocs : m'.docsOf c = m.docsOf c := by
    unfold docsOf
    rw [hclass, List.map_congr_left hfield, List.map_congr_left hconstructor,
      List.map_congr_left hmethod]
  rw [← withDocs_eq, ← withDocs_eq, hdocs]

/-! ### Manifests with the same files -/

/-- Each class that stands in both manifests has the same file, in its path and its text. -/
def SameFiles (m m' : Manifest) (units units' : List CompilationUnit) : Prop :=
  ∀ (i j : Nat) (c : ClassDecl), m.classes[i]? = some c → m'.classes[j]? = some c →
    ∃ u u', units[i]? = some u ∧ units'[j]? = some u' ∧ u'.path = u.path ∧
      u'.render m'.settings.indent = u.render m.settings.indent

theorem sameFiles_of_outputFile (h : ∀ c ∈ m.classes,
      (m'.unitOf c).outputFile m'.settings.indent = (m.unitOf c).outputFile m.settings.indent) :
    SameFiles m m' (m.classes.map m.unitOf) (m'.classes.map m'.unitOf) := by
  intro i j c hi hj
  have hfile := h c (List.mem_of_getElem? hi)
  refine ⟨m.unitOf c, m'.unitOf c, ?_, ?_, ?_, ?_⟩
  · rw [List.getElem?_map, hi, Option.map_some]
  · rw [List.getElem?_map, hj, Option.map_some]
  · exact congrArg OutputFile.path hfile
  · exact congrArg OutputFile.content hfile

/-! ### Another order -/

theorem Accepted.of_perm (h : m.Accepted) (hp : m'.classes.Perm m.classes) : m'.Accepted := by
  have hnames : (m'.classes.map ClassDecl.name).Nodup :=
    (hp.map ClassDecl.name).nodup_iff.2 h.classNames
  refine ⟨fun c hc => h.classes c (hp.mem_iff.1 hc), hnames, ?_⟩
  intro c hc link hlink
  obtain ⟨target, htarget⟩ := h.links c (hp.mem_iff.1 hc) link hlink
  obtain ⟨i, hi⟩ := resolve_of_subset hp.symm.subset hnames htarget
  exact ⟨_, hi⟩

theorem sameUpToPeers_of_perm (h : m.Accepted) (hs : m'.settings = m.settings)
    (hp : m'.classes.Perm m.classes) {c : ClassDecl} (hc : c ∈ m.classes) :
    (m'.unitOf c).SameUpToPeers (m.unitOf c) where
  classDef := classOf_of_subset h hp.symm.subset (h.of_perm hp).classNames hc
  header := congrArg Settings.header hs
  peers := by
    intro s
    have hpeers : (m'.peers c).Perm (m.peers c) := (hp.filter _).map _
    exact hpeers.mem_iff

/-- The classes of an accepted manifest may be declared in any order: the manifest stays accepted,
and each class keeps its file. -/
theorem files_of_perm (source : Text) (m m' : Manifest) (h : m.problem? source = none)
    (hs : m'.settings = m.settings) (hp : m'.classes.Perm m.classes) :
    (∀ source', m'.problem? source' = none) ∧
      ∃ units units', m.units = .ok units ∧ m'.units = .ok units' ∧
        SameFiles m m' units units' := by
  have ha := problem?_eq_none_iff.1 h
  have ha' := ha.of_perm hp
  refine ⟨fun source' => problem?_eq_none_iff.2 ha', _, _, units_eq ha, units_eq ha', ?_⟩
  refine sameFiles_of_outputFile fun c hc => ?_
  rw [hs]
  exact (sameUpToPeers_of_perm ha hs hp hc).outputFile _

/-- A class between peers that take the simple names of the classes it mentions. -/
def crowdedPackage : Manifest where
  classes :=
    [{ name := "p.A".toList
       doc := [.member "q.B#run".toList]
       fields :=
        [{ name := "label".toList, type := .name "java.lang.String".toList },
         { name := "item".toList, type := .name "q.Item".toList }] },
     { name := "p.String".toList },
     { name := "p.Item".toList },
     { name := "q.B".toList, methods := [{ name := "run".toList }] }]

theorem crowdedPackage_reversed :
    crowdedPackage.problem? [] = none ∧
      { crowdedPackage with classes := crowdedPackage.classes.reverse }.problem? [] = none ∧
      ∃ units units', crowdedPackage.units = .ok units ∧
        { crowdedPackage with classes := crowdedPackage.classes.reverse }.units = .ok units' ∧
        ∃ u u', units[0]? = some u ∧ units'[3]? = some u' ∧ u'.path = u.path ∧
          u'.render .standard = u.render .standard := by
  have h : crowdedPackage.problem? [] = none := by decide +kernel
  obtain ⟨haccepted, units, units', hunits, hunits', hfiles⟩ := files_of_perm [] crowdedPackage
    { crowdedPackage with classes := crowdedPackage.classes.reverse } h rfl (List.reverse_perm _)
  exact ⟨h, haccepted [], units, units', hunits, hunits', hfiles 0 3 _ rfl rfl⟩

/-! ### A class of another package -/

/-- The manifest with one more class at a position. -/
def insert (m : Manifest) (position : Nat) (d : ClassDecl) : Manifest :=
  { m with classes := m.classes.insertIdx position d }

theorem filter_insertIdx_of_not {α : Type} {p : α → Bool} {a : α} (ha : p a = false)
    (l : List α) (position : Nat) : (l.insertIdx position a).filter p = l.filter p := by
  induction l generalizing position with
  | nil =>
    cases position with
    | zero => simp [ha]
    | succ n => rfl
  | cons b l ih =>
    cases position with
    | zero => simp [ha]
    | succ n => rw [List.insertIdx_succ_cons, List.filter_cons, List.filter_cons, ih]

theorem unitOf_insert (h : m.Accepted) {position : Nat} {d : ClassDecl}
    (h' : (m.insert position d).Accepted) {c : ClassDecl} (hc : c ∈ m.classes)
    (hd : c.package ≠ d.package) : (m.insert position d).unitOf c = m.unitOf c := by
  have hclass : (m.insert position d).classOf c = m.classOf c :=
    classOf_of_subset h (List.subset_insertIdx _ _ _) h'.classNames hc
  have hpeers : (m.insert position d).peers c = m.peers c := by
    unfold peers
    refine congrArg (List.map ClassDecl.simpleName) (filter_insertIdx_of_not ?_ _ _)
    simp [Ne.symm hd]
  unfold unitOf
  rw [hclass, hpeers]
  rfl

/-- A class of a package in which the manifest declares none may be added anywhere: all units stay
as they were, and so do their files. -/
theorem units_insert_foreign (source source' : Text) (m : Manifest) (position : Nat)
    (d : ClassDecl) (hposition : position ≤ m.classes.length) (h : m.problem? source = none)
    (hd : ∀ c ∈ m.classes, c.package ≠ d.package)
    (h' : (m.insert position d).problem? source' = none) :
    ∃ units u, m.units = .ok units ∧
      (m.insert position d).units = .ok (units.insertIdx position u) ∧
      position ≤ units.length ∧
      SameFiles m (m.insert position d) units (units.insertIdx position u) := by
  have ha := problem?_eq_none_iff.1 h
  have ha' := problem?_eq_none_iff.1 h'
  have hunit : ∀ c ∈ m.classes, (m.insert position d).unitOf c = m.unitOf c :=
    fun c hc => unitOf_insert ha ha' hc (hd c hc)
  have hunits : (m.insert position d).classes.map (m.insert position d).unitOf =
      (m.classes.map m.unitOf).insertIdx position ((m.insert position d).unitOf d) := by
    rw [← List.map_congr_left hunit]
    exact List.map_insertIdx ..
  refine ⟨m.classes.map m.unitOf, (m.insert position d).unitOf d, units_eq ha, ?_, ?_, ?_⟩
  · rw [units_eq ha', hunits]
  · rw [List.length_map]
    exact hposition
  · rw [← hunits]
    exact sameFiles_of_outputFile fun c hc => congrArg _ (hunit c hc)

/-- A class with simple names that the classes of `crowdedPackage` mention. -/
def foreignClass : ClassDecl where
  name := "r.Item".toList
  doc := [.member "q.B#run".toList]
  methods := [{ name := "run".toList }]

theorem crowdedPackage_insert_foreignClass :
    1 ≤ crowdedPackage.classes.length ∧ crowdedPackage.problem? [] = none ∧
      (∀ c ∈ crowdedPackage.classes, c.package ≠ foreignClass.package) ∧
      (crowdedPackage.insert 1 foreignClass).problem? [] = none ∧
      ∃ units u, crowdedPackage.units = .ok units ∧
        (crowdedPackage.insert 1 foreignClass).units = .ok (units.insertIdx 1 u) ∧
        SameFiles crowdedPackage (crowdedPackage.insert 1 foreignClass) units
          (units.insertIdx 1 u) := by
  have hposition : 1 ≤ crowdedPackage.classes.length := by decide
  have h : crowdedPackage.problem? [] = none := by decide +kernel
  have hd : ∀ c ∈ crowdedPackage.classes, c.package ≠ foreignClass.package := by decide +kernel
  have h' : (crowdedPackage.insert 1 foreignClass).problem? [] = none := by decide +kernel
  obtain ⟨units, u, hunits, hunits', -, hfiles⟩ :=
    units_insert_foreign [] [] crowdedPackage 1 foreignClass hposition h hd h'
  exact ⟨hposition, h, hd, h', units, u, hunits, hunits', hfiles⟩

end Manifest

end JavaSource
