import JavaSource.Proofs.SourceSearch
import JavaSource.Proofs.WrittenFiles

/-!
# Source files of a manifest

Files whose paths keep apart are saved below an empty directory one after the other. After each of
them the directory holds exactly those that were saved, and directories on the way to them. So when
all units of a manifest are saved, a search for source files finds just their paths.
-/

namespace JavaSource

namespace Disk

variable {disk disk' : Disk} {base front path content : Text} {names : List Text} {a b : Address}
  {done : List Address}

/-! ### The directory at a path -/

/-- The address of the directory that a path leads to. -/
def dirAddress? (disk : Disk) (path : Text) : Option Address :=
  match (disk.locate path).bind fun p => disk.enter p.1 p.2 with
  | .ok (.inside trail) => some (addressOf trail)
  | _ => none

theorem leadsTo_of_dirAddress? (h : disk.dirAddress? path = some a) :
    IsPath (Text.split '/' path) ∧ LeadsTo disk (Text.split '/' path) a := by
  unfold dirAddress? at h
  split at h
  · next trail hbind =>
    obtain rfl := Option.some.inj h
    cases hlocate : disk.locate path with
    | error obstacle =>
      rw [hlocate] at hbind
      cases hbind
    | ok found =>
      obtain ⟨here, name⟩ := found
      rw [hlocate] at hbind
      obtain ⟨trail', rfl, henters⟩ := enter_eq_inside_iff.1 hbind
      obtain ⟨names, hsplit, hpath, hfollow⟩ := isPath_of_locate hlocate
      rw [hsplit]
      exact ⟨hpath, trail, follow_concat_eq_inside_iff.2 ⟨trail', hfollow, henters⟩, rfl⟩
  · cases h

/-- A text that stands in front of a slash in every path below a base. -/
structure IsFront (base front : Text) : Prop where
  ne_nil : front ≠ []
  zero_not_mem : '\x00' ∉ front
  head?_ne : front.head? ≠ some '/'
  append : ∀ path, path.head? ≠ some '/' → appendPathPart base path = front ++ '/' :: path

theorem exists_front (h : disk.dirAddress? base = some a) :
    ∃ front, IsFront base front ∧ LeadsTo disk (Text.split '/' front) a := by
  obtain ⟨hpath, hleads⟩ := leadsTo_of_dirAddress? h
  have hne := hpath.ne_nil
  have hzero := hpath.zero_not_mem
  have hhead := hpath.head?_ne
  rw [Text.join_split] at hne hzero hhead
  obtain ⟨front, hbase, happend⟩ := exists_front_appendPathPart hne
  rcases hbase with rfl | rfl
  · exact ⟨base, ⟨hne, hzero, hhead, happend⟩, hleads⟩
  · have hfront : front ≠ [] := by
      rintro rfl
      exact hhead rfl
    refine ⟨front, ⟨hfront, fun hm => hzero (List.mem_append_left _ hm), ?_, happend⟩, ?_⟩
    · rwa [List.head?_append_of_ne_nil _ hfront] at hhead
    · -- the empty name behind the slash stays in the directory
      rw [Text.split_append] at hleads
      obtain ⟨trail', hconcat, rfl⟩ := hleads
      obtain ⟨trail, hfollow, henters⟩ := follow_concat_eq_inside_iff.1 hconcat
      cases henters with
      | stay _ _ _ => exact ⟨_, hfollow, rfl⟩
      | down _ _ _ hrelative _ _ => cases hrelative

/-! ### One file below a base -/

/-- A path of names that entries can have if they are not too wide. -/
structure IsFilePath (path : Text) : Prop where
  isEntryName : ∀ w ∈ Text.split '/' path, IsEntryName w
  zero_not_mem : ∀ w ∈ Text.split '/' path, '\x00' ∉ w

/-- A path below a base that is not too wide, and none of its names is. -/
structure Fits (base path : Text) : Prop where
  width_le : Text.width (appendPathPart base path) ≤ maxPathWidth
  widths_le : ∀ w ∈ Text.split '/' path, Text.width w ≤ maxNameWidth

instance (base path : Text) : Decidable (Fits base path) :=
  decidable_of_iff (Text.width (appendPathPart base path) ≤ maxPathWidth ∧
      ∀ w ∈ Text.split '/' path, Text.width w ≤ maxNameWidth)
    ⟨fun h => ⟨h.1, h.2⟩, fun h => ⟨h.1, h.2⟩⟩

theorem IsFront.isPath (h : IsFront base front) (hpath : IsFilePath path)
    (hwidth : Text.width (appendPathPart base path) ≤ maxPathWidth) :
    IsPath (Text.split '/' front ++ Text.split '/' path) := by
  rw [h.append path (FilePlace.head?_ne_slash_of_split hpath.isEntryName)] at hwidth
  rw [← Text.split_append]
  have hzero : '\x00' ∉ path := by
    intro hm
    rw [← Text.join_split '/' path] at hm
    rcases Text.mem_of_mem_join hm with hsep | ⟨w, hw, hmem⟩
    · simp at hsep
    · exact hpath.zero_not_mem w hw hmem
  refine isPath_split (by simp) ?_ hwidth ?_
  · simp [h.zero_not_mem, hzero]
  · rw [List.head?_append_of_ne_nil _ h.ne_nil]
    exact h.head?_ne

theorem IsFilePath.isFileName (h : IsFilePath path)
    (hwidths : ∀ w ∈ Text.split '/' path, Text.width w ≤ maxNameWidth) :
    ∀ w ∈ Text.split '/' path, isFileName w = true := by
  exact fun w hw => isFileName_iff.2 ⟨h.isEntryName w hw, h.zero_not_mem w hw, hwidths w hw⟩

/-- Where nothing stands yet, a file below a base is saved if and only if it fits. -/
theorem IsFront.save?_cases (h : IsFront base front)
    (hleads : LeadsTo disk (Text.split '/' front) a) (hpath : IsFilePath path)
    (hfree : ∀ ds, ds <+: Text.split '/' path →
      ∀ content, kindAt disk (a ++ ds) ≠ some (.file content))
    (hnone : kindAt disk (a ++ Text.split '/' path) = none) (content : Text) :
    (Fits base path ∧ ∃ disk', disk.save? (appendPathPart base path) content =
        (some .written, disk') ∧
      Placed disk disk' a (Text.split '/' path) (Text.toUtf8 content)) ∨
    ¬Fits base path ∧ (disk.save? (appendPathPart base path) content).1 = none := by
  have hhead := FilePlace.head?_ne_slash_of_split hpath.isEntryName
  have hjoin : appendPathPart base path =
      Text.join ['/'] (Text.split '/' front ++ Text.split '/' path) := by
    rw [← Text.split_append, Text.join_split, h.append path hhead]
  have hisPath := h.isPath hpath
  have hentry := hpath.isEntryName
  have hfileNames := hpath.isFileName
  obtain ⟨dirs, name, hsplit⟩ : ∃ dirs name, Text.split '/' path = dirs ++ [name] :=
    (List.eq_nil_or_concat' _).resolve_left (Text.split_ne_nil '/' path)
  rw [hsplit, ← List.append_assoc] at hnone hjoin
  rw [hsplit] at hfree hisPath hentry hfileNames ⊢
  rw [← List.append_assoc] at hisPath
  by_cases hfits : Fits base path
  · refine Or.inl ⟨hfits, ?_⟩
    have hwidths := hfits.widths_le
    rw [hsplit] at hwidths
    rw [hjoin]
    exact save?_new (hisPath hfits.width_le) hleads (hfileNames hwidths)
      (fun ds hds => hfree ds (hds.trans (List.prefix_append dirs [name]))) hnone content
  · refine Or.inr ⟨hfits, Option.eq_none_iff_forall_ne_some.2 fun outcome houtcome => hfits ?_⟩
    have hsaved : disk.save? (appendPathPart base path) content = (some outcome, _) :=
      Prod.ext houtcome rfl
    obtain ⟨b, hreaches, -⟩ := holds_of_save? hsaved
    have hwidth := hreaches.width_le
    refine ⟨hwidth, ?_⟩
    rw [hjoin] at hsaved
    rw [hsplit]
    exact widths_le_of_save? (hisPath hwidth) hleads
      (fun d hd => hentry d (List.mem_append_left _ hd)) hnone hsaved

/-! ### Many files below a base -/

/-- Below the address stand files at exactly the given ones, and directories on the way to them. -/
structure OnlyFiles (disk : Disk) (a : Address) (done : List Address) : Prop where
  file_iff : ∀ b, (∃ content, kindAt disk (a ++ b) = some (.file content)) ↔ b ∈ done
  dir : ∀ b, b ≠ [] → kindAt disk (a ++ b) = some .dir → ∃ c ∈ done, b <+: c
  isTree : IsTree disk

/-- Neither address leads to or through the other. -/
def Apart (b c : Address) : Prop := ¬b <+: c ∧ ¬c <+: b

theorem onlyFiles_nil (htree : IsTree disk) (h : find? a disk = some (.dir [])) :
    OnlyFiles disk a [] where
  file_iff := by
    intro b
    rw [kindAt_append h]
    rcases eq_or_ne b [] with rfl | hb
    · simp [kindAt_nil]
    · simp [kindAt_empty hb]
  dir := by
    intro b hb hdir
    rw [kindAt_append h, kindAt_empty hb] at hdir
    cases hdir
  isTree := htree

theorem OnlyFiles.ne_file (h : OnlyFiles disk a done) (hapart : ∀ c ∈ done, Apart c names)
    {ds : Address} (hds : ds <+: names) (content : List UInt8) :
    kindAt disk (a ++ ds) ≠ some (.file content) :=
  fun hfile => (hapart ds ((h.file_iff ds).1 ⟨content, hfile⟩)).1 hds

theorem OnlyFiles.kindAt_eq_none (h : OnlyFiles disk a done) (hne : names ≠ [])
    (hapart : ∀ c ∈ done, Apart c names) : kindAt disk (a ++ names) = none := by
  cases hkind : kindAt disk (a ++ names) with
  | none => rfl
  | some kind =>
    cases kind with
    | file content => exact absurd hkind (h.ne_file hapart List.prefix_rfl content)
    | dir =>
      obtain ⟨c, hc, hprefix⟩ := h.dir names hne hkind
      exact absurd hprefix (hapart c hc).2

/-- A file that is saved apart from the others is one more. -/
theorem OnlyFiles.concat {content : List UInt8} (h : OnlyFiles disk a done)
    (hapart : ∀ c ∈ done, Apart c names) (hplaced : Placed disk disk' a names content) :
    OnlyFiles disk' a (done ++ [names]) where
  file_iff := by
    intro b
    rw [List.mem_append, List.mem_singleton]
    by_cases hprefix : b <+: names
    · rcases eq_or_ne b names with rfl | hne
      · simp [hplaced.file]
      · have hnew : b ∉ done := fun hb => (hapart b hb).1 hprefix
        simp [hplaced.dir b hprefix hne, hnew, hne]
    · have hne : b ≠ names := fun heq => hprefix (heq ▸ List.prefix_rfl)
      rw [hplaced.other hprefix, h.file_iff]
      simp [hne]
  dir := by
    intro b hb hdir
    by_cases hprefix : b <+: names
    · exact ⟨names, by simp, hprefix⟩
    · rw [hplaced.other hprefix] at hdir
      obtain ⟨c, hc, hbc⟩ := h.dir b hb hdir
      exact ⟨c, List.mem_append_left _ hc, hbc⟩
  isTree := hplaced.isTree h.isTree

/-- Files whose paths keep apart are all saved if each of them fits, and otherwise the run ends
without a report. -/
theorem IsFront.saveAll?_cases (hfront : IsFront base front) (files : List OutputFile)
    (report : WriteReport) (hleads : LeadsTo disk (Text.split '/' front) a)
    (honly : OnlyFiles disk a done) (hpaths : ∀ f ∈ files, IsFilePath f.path)
    (hdone : ∀ c ∈ done, ∀ f ∈ files, Apart c (Text.split '/' f.path))
    (hfiles : files.Pairwise fun f g => Apart (Text.split '/' f.path) (Text.split '/' g.path)) :
    (∃ report' after, storage.saveAll? base files report disk = (some report', after) ∧
      (∀ f ∈ files, Fits base f.path) ∧
      LeadsTo after (Text.split '/' front) a ∧
      OnlyFiles after a (done ++ files.map fun f => Text.split '/' f.path)) ∨
    (storage.saveAll? base files report disk).1 = none ∧ ∃ f ∈ files, ¬Fits base f.path := by
  -- Along the files: a saved one is one more that is done, and one that does not fit ends the run.
  induction files generalizing disk done report with
  | nil => exact Or.inl ⟨report, disk, rfl, by simp, hleads, by simpa using honly⟩
  | cons f files ih =>
    obtain ⟨hpath, hpaths⟩ := List.forall_mem_cons.1 hpaths
    obtain ⟨hf, hfiles⟩ := List.pairwise_cons.1 hfiles
    have hapart : ∀ c ∈ done, Apart c (Text.split '/' f.path) := fun c hc =>
      hdone c hc f (List.mem_cons_self ..)
    have hnone := honly.kindAt_eq_none (Text.split_ne_nil '/' f.path) hapart
    rcases hfront.save?_cases hleads hpath (fun ds hds => honly.ne_file hapart hds) hnone
      f.content with ⟨hfits, disk₁, hsaved, hplaced⟩ | ⟨hunfit, hfailed⟩
    · have hdone₁ : ∀ c ∈ done ++ [Text.split '/' f.path], ∀ g ∈ files,
          Apart c (Text.split '/' g.path) := by
        refine List.forall_mem_append.2 ⟨fun c hc g hg => ?_, by simpa using hf⟩
        exact hdone c hc g (List.mem_cons_of_mem _ hg)
      rw [Storage.saveAll?_cons_some hsaved, List.map_cons, List.append_cons]
      rcases ih (report.add f.path .written) (hleads.mono fun b hb => hplaced.keeps hnone hb)
        (honly.concat hapart hplaced) hpaths hdone₁ hfiles with
        ⟨report', after, hrun, hall, hrest⟩ | ⟨hrun, g, hg, hunfit⟩
      · exact Or.inl ⟨report', after, hrun, List.forall_mem_cons.2 ⟨hfits, hall⟩, hrest⟩
      · exact Or.inr ⟨hrun, g, List.mem_cons_of_mem _ hg, hunfit⟩
    · refine Or.inr ⟨?_, f, List.mem_cons_self .., hunfit⟩
      rw [Storage.saveAll?_cons_none (Prod.ext hfailed rfl)]

theorem OnlyFiles.perm_sources (h : OnlyFiles disk a done) (hnodup : done.Nodup)
    (hsource : ∀ b ∈ done, isSource b = true) {top : Disk} (htop : find? a disk = some (.dir top)) :
    (sources top).Perm done := by
  have htree := h.isTree.find? htop
  refine (List.perm_ext_iff_of_nodup (nodup_sources htree) hnodup).2 fun b => ?_
  have hfile : (∃ content, read? b top = some content) ↔ b ∈ done := by
    simp only [read?_eq_some_iff, ← kindAt_append htop]
    exact h.file_iff b
  rw [mem_sources_iff htree, hfile]
  exact and_iff_left_of_imp (hsource b)

end Disk

namespace Manifest

variable {m : Manifest}

/-! ### The files of units -/

theorem isFilePath_unitOf (h : m.Accepted) {c : ClassDecl} (hc : c ∈ m.classes) :
    Disk.IsFilePath (m.unitOf c).path where
  isEntryName := fun _ hw => isEntryName_of_mem_split_path h hc hw
  zero_not_mem := by
    intro w hw hm
    rw [split_path_unitOf h hc, ClassName.fileNames, List.mem_append, List.mem_singleton] at hw
    have hname := (h.classes c hc).name
    have hsegment {v : Text} (hv : IsIdentifier v) : '\x00' ∉ v := fun hzero =>
      absurd (hv.isIdentifierPart_of_mem hzero) (by decide)
    rcases hw with hw | rfl
    · exact hsegment (ClassName.isIdentifier_of_mem_packageSegments hname hw) hm
    · rcases List.mem_append.1 hm with hm | hm
      · exact hsegment (hname _ (ClassName.simple_mem_split c.name)) hm
      · exact absurd hm (by decide)

theorem isSource_unitOf (h : m.Accepted) {c : ClassDecl} (hc : c ∈ m.classes) :
    Disk.isSource (Text.split '/' (m.unitOf c).path) = true := by
  rw [split_path_unitOf h hc]
  exact Disk.isSource_iff.2
    ⟨_, _, ClassName.simple_ofText_ne_nil (h.classes c hc).name, rfl⟩

/-- The units of an accepted manifest are all saved below an empty directory, where a search finds
just their paths, or one of them does not fit. -/
theorem saveAll?_units (h : m.Accepted) {disk : Disk} {base : Text} {a : Address}
    (hdisk : Disk.IsTree disk) (hbase : disk.dirAddress? base = some a)
    (hempty : Disk.find? a disk = some (.dir [])) :
    (∃ report after top,
      disk.saveAll? base (CommandLine.outputFiles m (m.classes.map m.unitOf)) =
          (some report, after) ∧
        (∀ u ∈ m.classes.map m.unitOf, Disk.Fits base u.path) ∧
        Disk.find? a after = some (.dir top) ∧ Disk.IsTree top ∧
        ((Disk.sources top).map Disk.pathOfAddress).Perm
          ((m.classes.map m.unitOf).map CompilationUnit.path)) ∨
    (disk.saveAll? base (CommandLine.outputFiles m (m.classes.map m.unitOf))).1 = none ∧
      ∃ u ∈ m.classes.map m.unitOf, ¬Disk.Fits base u.path := by
  obtain ⟨front, hfront, hleads⟩ := Disk.exists_front hbase
  have honly := Disk.onlyFiles_nil hdisk hempty
  have hapart : (m.classes.map m.unitOf).Pairwise fun u v =>
      Disk.Apart (Text.split '/' u.path) (Text.split '/' v.path) := pairwise_not_prefix_path h
  have hpaths : ∀ u ∈ m.classes.map m.unitOf, Disk.IsFilePath u.path :=
    List.forall_mem_map.2 fun c hc => isFilePath_unitOf h hc
  have hsource : ∀ u ∈ m.classes.map m.unitOf, Disk.isSource (Text.split '/' u.path) = true :=
    List.forall_mem_map.2 fun c hc => isSource_unitOf h hc
  generalize m.classes.map m.unitOf = units at hapart hpaths hsource ⊢
  have hnodup : (units.map fun u => Text.split '/' u.path).Nodup := by
    refine List.pairwise_map.2 (hapart.imp fun {u v} huv heq => huv.1 ?_)
    exact heq ▸ List.prefix_rfl
  rcases hfront.saveAll?_cases (CommandLine.outputFiles m units) {} hleads honly
    (List.forall_mem_map.2 hpaths) (by simp) (List.pairwise_map.2 hapart) with
    ⟨report, after, hrun, hfits, hafter, hfiles⟩ | ⟨hrun, f, hf, hunfit⟩
  · obtain ⟨top, htop⟩ := Disk.kindAt_eq_dir_iff.1 hafter.kindAt
    rw [List.nil_append, CommandLine.outputFiles, List.map_map] at hfiles
    have hfound := hfiles.perm_sources hnodup (List.forall_mem_map.2 hsource) htop
    refine Or.inl ⟨report, after, top, hrun, fun u hu => ?_, htop,
      hfiles.isTree.find? htop, ?_⟩
    · exact hfits _ (List.mem_map_of_mem hu)
    have hmapped := hfound.map Disk.pathOfAddress
    rw [List.map_map] at hmapped
    refine hmapped.trans (List.Perm.of_eq (List.map_congr_left fun u _ => ?_))
    exact Text.join_split '/' u.path
  · obtain ⟨u, hu, rfl⟩ := List.mem_map.1 hf
    exact Or.inr ⟨hrun, u, hu, hunfit⟩

/-- In any tree the search for source files ends after as many steps as there are directories, and
returns in strictly ascending order exactly the addresses of files named by something with `.java`
behind it. An accepted manifest has units, and where a path leads to an empty directory, these are
all saved below it if and only if none of their paths and names is too wide. Afterwards the search
below this directory finds exactly the paths of the units. -/
theorem sources_exactly_once (disk : Disk) (hdisk : Disk.IsTree disk) :
    (Disk.Search.step^[Disk.countDirsBelow disk + 1] (.start disk)).pending = [] ∧
      (Disk.sources disk).Pairwise (· < ·) ∧
      (∀ a, a ∈ Disk.sources disk ↔ (∃ content, Disk.read? a disk = some content) ∧
        ∃ dirs stem, stem ≠ [] ∧ a = dirs ++ [stem ++ ".java".toList]) ∧
      ∀ (source : Text) (m : Manifest), m.problem? source = none → ∃ units, m.units = .ok units ∧
        ∀ base a, disk.dirAddress? base = some a → Disk.find? a disk = some (.dir []) →
          ((disk.saveAll? base (CommandLine.outputFiles m units)).1 ≠ none ↔
            ∀ u ∈ units, Disk.Fits base u.path) ∧
          ∀ report after,
            disk.saveAll? base (CommandLine.outputFiles m units) = (some report, after) →
            ∃ top, Disk.find? a after = some (.dir top) ∧ Disk.IsTree top ∧
              ((Disk.sources top).map Disk.pathOfAddress).Perm
                (units.map CompilationUnit.path) := by
  refine ⟨?_, Disk.pairwise_sources hdisk, fun a => ?_, fun source m h => ?_⟩
  · rw [← Disk.Search.unread_start, Disk.Search.iterate_step_unread]
  · rw [Disk.mem_sources_iff hdisk, Disk.isSource_iff]
  · have ha := problem?_eq_none_iff.1 h
    refine ⟨m.classes.map m.unitOf, units_eq ha, fun base a hbase hempty => ?_⟩
    rcases saveAll?_units ha hdisk hbase hempty with
      ⟨report, after, top, hrun, hfits, hfound⟩ | ⟨hrun, u, hu, hunfit⟩
    · rw [hrun]
      refine ⟨by simpa using hfits, fun report' after' heq => ?_⟩
      obtain rfl := (Prod.mk.inj heq).2
      exact ⟨top, hfound⟩
    · refine ⟨⟨fun hsaved => absurd hrun hsaved, fun hall => absurd (hall u hu) hunfit⟩,
        fun report after heq => ?_⟩
      rw [heq] at hrun
      cases hrun

/-- An empty directory, a source file beside it, and two files that are none. -/
def olderDisk : Disk :=
  [("out".toList, .dir [("gen".toList, .dir []), ("Old.java".toList, .file [33]),
    (".java".toList, .file [])]), ("java".toList, .file [])]

theorem isTree_olderDisk : Disk.IsTree olderDisk := by
  refine .intro _ (by decide) fun name entries h => ?_
  obtain ⟨rfl, rfl⟩ : name = "out".toList ∧ entries = _ := by simpa [olderDisk] using h
  refine .intro _ (by decide) fun name entries h => ?_
  obtain ⟨rfl, rfl⟩ : name = "gen".toList ∧ entries = [] := by simpa using h
  exact Disk.isTree_nil

theorem olderDisk_sources :
    ["out".toList, "Old.java".toList] ∈ Disk.sources olderDisk ∧
      ∃ units report after top, nestedNames.units = .ok units ∧
        olderDisk.saveAll? "out/gen/".toList (CommandLine.outputFiles nestedNames units) =
          (some report, after) ∧
        Disk.find? ["out".toList, "gen".toList] after = some (.dir top) ∧
        ((Disk.sources top).map Disk.pathOfAddress).Perm
          ["A.java".toList, "p/A.java".toList, "p/A/B.java".toList] := by
  obtain ⟨-, -, hmem, hsaving⟩ := sources_exactly_once olderDisk isTree_olderDisk
  refine ⟨(hmem _).2 ⟨⟨[33], by decide⟩, ["out".toList], "Old".toList, by decide, by decide⟩, ?_⟩
  have h : nestedNames.problem? [] = none := by decide +kernel
  obtain ⟨units, hunits, hsaved⟩ := hsaving [] nestedNames h
  have hpaths : units.map CompilationUnit.path =
      ["A.java".toList, "p/A.java".toList, "p/A/B.java".toList] := by
    rw [units_eq (problem?_eq_none_iff.1 h)] at hunits
    rw [← Except.ok.inj hunits]
    decide +kernel
  obtain ⟨hiff, hfound⟩ := hsaved "out/gen/".toList ["out".toList, "gen".toList]
    (by decide +kernel) (by rfl)
  have hfits : ∀ path ∈ units.map CompilationUnit.path, Disk.Fits "out/gen/".toList path := by
    rw [hpaths]
    decide +kernel
  obtain ⟨report, hreport⟩ := Option.ne_none_iff_exists'.1
    (hiff.2 fun u hu => hfits u.path (List.mem_map_of_mem hu))
  obtain ⟨top, htop, -, hperm⟩ := hfound report _ (Prod.ext hreport rfl)
  exact ⟨units, report, _, top, hunits, Prod.ext hreport rfl, htop, hpaths ▸ hperm⟩

end Manifest

end JavaSource
