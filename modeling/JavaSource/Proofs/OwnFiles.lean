import JavaSource.CommandLine.Run
import JavaSource.Proofs.FilePaths
import JavaSource.Proofs.OnePass
import JavaSource.Proofs.SavedFiles

/-!
# Every class has its own file

On a storage that keeps the bytes of its files by place and refuses no write, the files of an
accepted manifest all hold their texts when they have been saved, nothing else has changed, and
saving them once more finds nothing to do.
-/

namespace JavaSource

/-! ### Places -/

/-- Where a path leads: from the top directory or not, and through which names. -/
structure FilePlace where
  rooted : Bool
  names : List Text
deriving DecidableEq

namespace FilePlace

/-- The names of a path that are looked up. -/
def namesOf (path : Text) : List Text :=
  (Text.split '/' path).filter fun name => !Disk.isIdle name

def ofPath (path : Text) : FilePlace := ⟨path.head? = some '/', namesOf path⟩

theorem namesOf_append (a b : Text) : namesOf (a ++ '/' :: b) = namesOf a ++ namesOf b := by
  simp [namesOf, Text.split_append]

/-- A path below another adds its names. -/
theorem namesOf_appendPathPart {base path : Text} (h : path.head? ≠ some '/') :
    namesOf (appendPathPart base path) = namesOf base ++ namesOf path := by
  rcases eq_or_ne base [] with rfl | hbase
  · have hempty : appendPathPart [] path = path := by simp [appendPathPart]
    rw [hempty]
    rfl
  obtain ⟨front, hfront, hadded⟩ := exists_front_appendPathPart hbase
  rw [hadded path h, namesOf_append]
  rcases hfront with rfl | rfl
  · rfl
  · have hdropped : namesOf (front ++ ['/']) = namesOf front := by
      rw [namesOf_append]
      exact List.append_nil _
    rw [hdropped]

variable {path : Text}

theorem head?_ne_slash_of_split (h : ∀ w ∈ Text.split '/' path, IsEntryName w) :
    path.head? ≠ some '/' := by
  intro hslash
  obtain ⟨rest, rfl⟩ := List.head?_eq_some_iff.1 hslash
  have hempty : [] ∈ Text.split '/' ('/' :: rest) := by simp [Text.split]
  exact (h [] hempty).ne_nil rfl

/-- Names that lead to entries are all looked up. -/
theorem namesOf_eq_split (h : ∀ w ∈ Text.split '/' path, IsEntryName w) :
    namesOf path = Text.split '/' path := by
  refine List.filter_eq_self.2 fun w hw => ?_
  have hentry := h w hw
  simp [Disk.isIdle, hentry.ne_nil, hentry.ne_dot]

/-- A path of names that lead to entries adds all of them. -/
theorem namesOf_appendPathPart_of_split {base : Text}
    (h : ∀ w ∈ Text.split '/' path, IsEntryName w) :
    namesOf (appendPathPart base path) = namesOf base ++ Text.split '/' path := by
  rw [namesOf_appendPathPart (head?_ne_slash_of_split h), namesOf_eq_split h]

end FilePlace

/-- The place of a file below a directory. -/
def OutputFile.place (base : Text) (f : OutputFile) : FilePlace :=
  .ofPath (appendPathPart base f.path)

/-! ### Maps of files -/

abbrev FileMap := FilePlace → Option (List UInt8)

namespace FileMap

def storage : Storage (StateM FileMap) where
  read? path := return (← getThe FileMap) (.ofPath path)
  write path content :=
    modifyGet fun files : FileMap => (true, Function.update files (.ofPath path) (some content))

theorem keeps_storage : storage.Keeps FilePlace.ofPath id where
  read := fun _ _ => rfl
  unchanged := fun _ _ => rfl
  written := fun _ _ _ _ => rfl
  refused := by
    intro path content files hrefused
    cases hrefused

theorem save?_ne_none (path content : Text) (files : FileMap) :
    (storage.save? path content files).1 ≠ none := by
  rw [Storage.save?_eq]
  split
  · exact Option.some_ne_none _
  · exact Option.some_ne_none _

/-- Saving files always succeeds: all of them are put into the map. -/
theorem saveAll?_eq (base : Text) (files : List OutputFile) (before : FileMap) :
    storage.saveAll? base files {} before =
      (some ⟨KeyedFiles.pathsAt (OutputFile.place base) false before files,
        KeyedFiles.pathsAt (OutputFile.place base) true before files⟩,
        KeyedFiles.putAll (OutputFile.place base) before files) := by
  rcases keeps_storage.saveAll?_cases base files {} before with
    ⟨after, hsaved, hput⟩ | ⟨_, f, _, _, now, after, -, -, hrefused, -⟩
  · have hafter : after = KeyedFiles.putAll (OutputFile.place base) before files := hput
    rw [hsaved, hafter]
    rfl
  · exact absurd (congrArg Prod.fst hrefused) (save?_ne_none _ f.content now)

/-- Files that all hold their texts are reported as unchanged, and nothing is written. -/
theorem saveAll?_of_eq {base : Text} {files : List OutputFile} {now : FileMap}
    (h : ∀ f ∈ files, now (f.place base) = some (Text.toUtf8 f.content)) :
    storage.saveAll? base files {} now = (some ⟨[], files.map OutputFile.path⟩, now) := by
  have hholds : ∀ f ∈ files, KeyedFiles.holds (OutputFile.place base) now f = true :=
    fun f hf => KeyedFiles.holds_iff.2 (h f hf)
  rw [saveAll?_eq, KeyedFiles.pathsAt_of_holds hholds, KeyedFiles.pathsAt_of_holds hholds,
    KeyedFiles.putAll_of_holds hholds]
  rfl

end FileMap

/-! ### Manifests -/

namespace Manifest

variable {m : Manifest}

theorem split_path_unitOf (h : m.Accepted) {c : ClassDecl} (hc : c ∈ m.classes) :
    Text.split '/' (m.unitOf c).path = (ClassName.ofText c.name).fileNames :=
  CompilationUnit.split_path rfl (h.classes c hc).name

theorem isEntryName_of_mem_split_path (h : m.Accepted) {c : ClassDecl} (hc : c ∈ m.classes)
    {w : Text} (hw : w ∈ Text.split '/' (m.unitOf c).path) : IsEntryName w := by
  rw [split_path_unitOf h hc] at hw
  exact ClassName.isEntryName_of_mem_fileNames (h.classes c hc).name hw

/-- Where one path begins with all names of another, both are of the same class. -/
theorem name_eq_of_prefix_path (h : m.Accepted) {c d : ClassDecl} (hc : c ∈ m.classes)
    (hd : d ∈ m.classes)
    (hp : Text.split '/' (m.unitOf c).path <+: Text.split '/' (m.unitOf d).path) :
    c.name = d.name := by
  rw [split_path_unitOf h hc, split_path_unitOf h hd] at hp
  exact ClassName.eq_of_prefix_fileNames (h.classes c hc).name (h.classes d hd).name hp

theorem pairwise_name_ne (h : m.Accepted) : m.classes.Pairwise fun c d => c.name ≠ d.name :=
  List.pairwise_map.1 h.classNames

theorem pairwise_not_prefix_path (h : m.Accepted) :
    (m.classes.map m.unitOf).Pairwise fun u v =>
      ¬Text.split '/' u.path <+: Text.split '/' v.path ∧
        ¬Text.split '/' v.path <+: Text.split '/' u.path := by
  refine List.pairwise_map.2 ((pairwise_name_ne h).imp_of_mem fun {c d} hc hd hne => ?_)
  exact ⟨fun hp => hne (name_eq_of_prefix_path h hc hd hp),
    fun hp => hne (name_eq_of_prefix_path h hd hc hp).symm⟩

theorem nodup_places (h : m.Accepted) (base : Text) :
    ((CommandLine.outputFiles m (m.classes.map m.unitOf)).map (OutputFile.place base)).Nodup := by
  rw [CommandLine.outputFiles, List.map_map, List.map_map]
  refine List.pairwise_map.2 ((pairwise_name_ne h).imp_of_mem fun {c d} hc hd hne heq => hne ?_)
  have hnames : FilePlace.namesOf (appendPathPart base (m.unitOf c).path) =
      FilePlace.namesOf (appendPathPart base (m.unitOf d).path) :=
    congrArg FilePlace.names heq
  rw [FilePlace.namesOf_appendPathPart_of_split fun w => isEntryName_of_mem_split_path h hc,
    FilePlace.namesOf_appendPathPart_of_split fun w => isEntryName_of_mem_split_path h hd] at hnames
  exact name_eq_of_prefix_path h hc hd (List.append_cancel_left hnames ▸ List.prefix_rfl)

/-- The paths of the units of an accepted manifest are made of the package segments and the simple
name of their classes, and none leads to or through the file of another. So the files that a
preview shows can all be saved below any directory: each of them holds its text, no other place
has changed, and saving them again only finds them unchanged. -/
theorem units_own_files (source : Text) (m : Manifest) (h : m.problem? source = none) :
    ∃ units, m.units = .ok units ∧
      (units.map fun u => u.classDef.name) = (m.classes.map fun c => .ofText c.name) ∧
      (units.map CompilationUnit.path).Nodup ∧
      (units.Pairwise fun u v => ¬Text.split '/' u.path <+: Text.split '/' v.path ∧
        ¬Text.split '/' v.path <+: Text.split '/' u.path) ∧
      (∀ u ∈ units,
        Text.split '/' u.path =
            packageSegments u.package ++ [u.classDef.name.simple ++ ".java".toList] ∧
          ∀ w ∈ Text.split '/' u.path, w ≠ [] ∧ w ≠ ['.'] ∧ w ≠ ['.', '.']) ∧
      ∀ (base : Text) (before : FileMap), ∃ report after,
        FileMap.storage.saveAll? base (CommandLine.outputFiles m units) {} before =
            (some report, after) ∧
          (∀ f ∈ CommandLine.outputFiles m units,
            after (f.place base) = some (Text.toUtf8 f.content)) ∧
          (∀ place, (∀ f ∈ CommandLine.outputFiles m units, f.place base ≠ place) →
            after place = before place) ∧
          FileMap.storage.saveAll? base (CommandLine.outputFiles m units) {} after =
            (some ⟨[], units.map CompilationUnit.path⟩, after) := by
  have ha := problem?_eq_none_iff.1 h
  have hapart := pairwise_not_prefix_path ha
  refine ⟨m.classes.map m.unitOf, units_eq ha, ?_, ?_, hapart, ?_, ?_⟩
  · rw [List.map_map]
    rfl
  · refine List.pairwise_map.2 (hapart.imp fun {u v} hp heq => hp.1 ?_)
    exact heq ▸ List.prefix_rfl
  · refine List.forall_mem_map.2 fun c hc => ⟨split_path_unitOf ha hc, fun w hw => ?_⟩
    have hentry := isEntryName_of_mem_split_path ha hc hw
    exact ⟨hentry.ne_nil, hentry.ne_dot, hentry.ne_dots⟩
  · intro base before
    have hsame : ∀ f ∈ CommandLine.outputFiles m (m.classes.map m.unitOf),
        KeyedFiles.putAll (OutputFile.place base) before
          (CommandLine.outputFiles m (m.classes.map m.unitOf)) (f.place base) =
            some (Text.toUtf8 f.content) :=
      fun f hf => KeyedFiles.putAll_of_nodup (nodup_places ha base) hf
    refine ⟨_, _, FileMap.saveAll?_eq base _ before, hsame, ?_, ?_⟩
    · intro place hplace
      exact KeyedFiles.putAll_of_forall_ne hplace
    · rw [FileMap.saveAll?_of_eq hsame]
      simp [CommandLine.outputFiles, CompilationUnit.outputFile, Function.comp_def]

/-- Classes whose names are alike: a class is named like the package of another. -/
def nestedNames : Manifest where
  classes := [{ name := "A".toList }, { name := "p.A".toList }, { name := "p.A.B".toList }]

/-- An older file of a class, and a file that is none of a class. -/
def olderFiles : FileMap := fun place =>
  if place.names = ["out".toList, "p".toList, "A.java".toList] then some []
  else if place.names = ["out".toList, "notes".toList] then some [33]
  else none

theorem nestedNames_own_files :
    nestedNames.problem? [] = none ∧ ∃ units report after, nestedNames.units = .ok units ∧
      FileMap.storage.saveAll? "out".toList (CommandLine.outputFiles nestedNames units) {}
          olderFiles = (some report, after) ∧
      after ⟨false, ["out".toList, "notes".toList]⟩ = some [33] ∧
      FileMap.storage.saveAll? "out".toList (CommandLine.outputFiles nestedNames units) {} after =
        (some ⟨[], ["A.java".toList, "p/A.java".toList, "p/A/B.java".toList]⟩, after) := by
  have h : nestedNames.problem? [] = none := by decide +kernel
  obtain ⟨units, hunits, hnames, -, -, -, hsaving⟩ := units_own_files [] nestedNames h
  obtain ⟨report, after, hsaved, -, hframe, hagain⟩ := hsaving "out".toList olderFiles
  have hpaths : units.map CompilationUnit.path =
      ["A.java".toList, "p/A.java".toList, "p/A/B.java".toList] := by
    have hofNames : units.map CompilationUnit.path = (units.map fun u => u.classDef.name).map
        fun c => appendPathPart (packageDir c.qualifier) (c.simple ++ ".java".toList) := by
      rw [List.map_map]
      rfl
    rw [hofNames, hnames]
    decide +kernel
  have hplaces : ∀ path ∈ units.map CompilationUnit.path,
      FilePlace.ofPath (appendPathPart "out".toList path) ≠
        ⟨false, ["out".toList, "notes".toList]⟩ := by
    rw [hpaths]
    decide +kernel
  have hnotes := hframe ⟨false, ["out".toList, "notes".toList]⟩
    (List.forall_mem_map.2 fun u hu => hplaces u.path (List.mem_map_of_mem hu))
  have holder : olderFiles ⟨false, ["out".toList, "notes".toList]⟩ = some [33] := by
    decide +kernel
  exact ⟨h, units, report, after, hunits, hsaved, hnotes.trans holder, hpaths ▸ hagain⟩

end Manifest

end JavaSource
