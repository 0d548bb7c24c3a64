import JavaSource.Proofs.DiskWrites
import JavaSource.Proofs.OwnFiles

/-!
# Files that are read back

On any disk, making directories leaves what stands there, and saving a file changes what stands at
one address, where the file is read back. Files whose paths differ below a directory have addresses
that differ, so when all of them have been saved, each of them is read back.
-/

namespace JavaSource.Disk

variable {disk disk' after : Disk} {base path content : Text} {names front : List Text}
  {name : Text} {a b : Address}

/-! ### Places of paths -/

/-- The last name of the path is looked up for what stands at the address. -/
def Reaches (disk : Disk) (path : Text) (a : Address) : Prop :=
  ∃ names name b, Text.split '/' path = names ++ [name] ∧ IsPath (names ++ [name]) ∧
    LeadsTo disk names b ∧ a = b ++ [name]

theorem Reaches.mono (h : Reaches disk path a)
    (hkeep : ∀ b, kindAt disk b = some .dir → kindAt disk' b = some .dir) :
    Reaches disk' path a := by
  obtain ⟨names, name, b, hsplit, hpath, hleads, ha⟩ := h
  exact ⟨names, name, b, hsplit, hpath, hleads.mono hkeep, ha⟩

theorem Reaches.readPath? (h : Reaches disk path a) {bytes : List UInt8}
    (hfile : kindAt disk a = some (.file bytes)) : disk.readPath? path = some bytes := by
  obtain ⟨names, name, b, hsplit, hpath, hleads, rfl⟩ := h
  rw [← Text.join_split '/' path, hsplit]
  exact (readPath?_eq_some_iff hpath).2 ⟨b, hleads, hfile⟩

theorem Reaches.width_le (h : Reaches disk path a) : Text.width path ≤ maxPathWidth := by
  obtain ⟨names, name, b, hsplit, hpath, -, -⟩ := h
  rw [← Text.join_split '/' path, hsplit]
  exact hpath.width_le

theorem reaches_of_locate {trail : List (Text × Disk)}
    (h : disk.locate path = .ok (.inside trail, name)) :
    Reaches disk path (addressOf trail ++ [name]) ∧
      find? (addressOf trail) disk = some (.dir (disk.entriesAt trail)) := by
  obtain ⟨names, hsplit, hpath, hfollow⟩ := isPath_of_locate h
  exact ⟨⟨names, name, addressOf trail, hsplit, hpath, ⟨trail, hfollow, rfl⟩, rfl⟩,
    (isTrail_of_follow hfollow).find?⟩

/-! ### Disks that only get more -/

/-- What stands on a disk stands on the other one, too. -/
def Extends (disk disk' : Disk) : Prop :=
  ∀ a kind, kindAt disk a = some kind → kindAt disk' a = some kind

theorem Extends.refl (disk : Disk) : Extends disk disk := fun _ _ h => h

theorem Extends.trans {disk₁ : Disk} (h : Extends disk disk₁) (h' : Extends disk₁ disk') :
    Extends disk disk' :=
  fun a kind hkind => h' a kind (h a kind hkind)

/-- A change at a path is the change of a directory where its last name is looked up. -/
theorem exists_of_updatePath? {change : Text → Disk → Option Disk}
    (h : disk.updatePath? change path = some disk') :
    ∃ a name entries entries', Reaches disk path (a ++ [name]) ∧
      find? a disk = some (.dir entries) ∧ change name entries = some entries' ∧
      update (change name) a disk = some disk' := by
  unfold updatePath? at h
  split at h
  · next trail name hlocate =>
    obtain ⟨hreaches, hentries⟩ := reaches_of_locate hlocate
    obtain ⟨entries', hchange⟩ := (exists_update_iff hentries).1 ⟨disk', h⟩
    exact ⟨addressOf trail, name, _, entries', hreaches, hentries, hchange, h⟩
  · cases h

theorem extends_of_makeDir (h : disk.makeDir path = .ok disk') : Extends disk disk' := by
  unfold makeDir at h
  split at h
  · cases h
  · next hmade =>
    cases h
    obtain ⟨a, name, entries, entries', -, hentries, hadd, hupdate⟩ := exists_of_updatePath? hmade
    have hset := (sets_addDir name).setAt hupdate
    have hnone : kindAt disk (a ++ [name]) = none := by
      obtain ⟨-, hlookup, -⟩ := addDir_eq_some_iff.1 hadd
      rw [kindAt_append hentries]
      exact Option.map_eq_none_iff.2 hlookup
    intro b kind hkind
    rw [hset.other fun hb => by simp [hb, hnone] at hkind]
    exact hkind
  · cases h

theorem extends_makeDirs (paths : List Text) (disk : Disk) :
    Extends disk (makeDirs paths disk).2 := by
  induction paths generalizing disk with
  | nil => exact .refl disk
  | cons path above ih =>
    have habove := ih disk
    unfold makeDirs
    split
    · next hmade => exact extends_of_makeDir hmade
    · split
      · next hfailed =>
        rw [hfailed] at habove
        exact habove
      · next disk₁ hready =>
        rw [hready] at habove
        split
        · next hmade => exact habove.trans (extends_of_makeDir hmade)
        · exact habove
    · exact .refl disk

/-! ### One file -/

/-- A disk that holds a file at an address where no directory stood, and elsewhere what stood there
before. -/
structure Holds (disk disk' : Disk) (a : Address) (bytes : List UInt8) : Prop where
  ne_dir : kindAt disk a ≠ some .dir
  file : kindAt disk' a = some (.file bytes)
  rest : ∀ b kind, b ≠ a → kindAt disk b = some kind → kindAt disk' b = some kind

variable {bytes : List UInt8}

theorem Holds.keepsDir (h : Holds disk disk' a bytes) (hdir : kindAt disk b = some .dir) :
    kindAt disk' b = some .dir :=
  h.rest b .dir (fun hb => h.ne_dir (hb ▸ hdir)) hdir

theorem Holds.of_extends {disk₁ : Disk} (h : Holds disk₁ disk' a bytes)
    (hextends : Extends disk disk₁) : Holds disk disk' a bytes where
  ne_dir := fun hdir => h.ne_dir (hextends a .dir hdir)
  file := h.file
  rest := fun b kind hb hkind => h.rest b kind hb (hextends b kind hkind)

theorem SetAt.holds (h : SetAt disk disk' a (.file bytes)) (hne : kindAt disk a ≠ some .dir) :
    Holds disk disk' a bytes :=
  ⟨hne, h.self, fun _ _ hb hkind => (h.other hb).trans hkind⟩

theorem holds_of_updatePath?
    (h : disk.updatePath? (fun name => putFile name bytes) path = some disk') :
    ∃ a, Reaches disk path a ∧ Holds disk disk' a bytes := by
  obtain ⟨a, name, entries, entries', hreaches, hentries, hput, hupdate⟩ := exists_of_updatePath? h
  have hne : kindAt disk (a ++ [name]) ≠ some .dir := by
    intro hdir
    obtain ⟨sub, hsub⟩ := kindAt_eq_dir_iff.1 hdir
    rw [find?_append hentries] at hsub
    exact (putFile_eq_some_iff.1 hput).2.1 sub hsub
  exact ⟨a ++ [name], hreaches, ((sets_putFile name bytes).setAt hupdate).holds hne⟩

theorem holds_of_readPath? (h : disk.readPath? path = some bytes) :
    ∃ a, Reaches disk path a ∧ Holds disk disk a bytes := by
  unfold readPath? at h
  split at h
  · next trail name hlocate =>
    obtain ⟨hreaches, hentries⟩ := reaches_of_locate hlocate
    have hfile : kindAt disk (addressOf trail ++ [name]) = some (.file bytes) := by
      rw [kindAt_append hentries]
      exact read?_eq_some_iff.1 h
    exact ⟨_, hreaches, by simp [hfile], hfile, fun _ _ _ hkind => hkind⟩
  · cases h

theorem holds_of_save? {outcome : WriteOutcome}
    (h : disk.save? path content = (some outcome, disk')) :
    ∃ a, Reaches disk' path a ∧ Holds disk disk' a (Text.toUtf8 content) := by
  rcases read_or_put_of_save? h with ⟨hread, rfl⟩ | ⟨disk₁, hready, hput⟩
  · exact holds_of_readPath? hread
  · have hmade := extends_makeDirs (parents path) disk
    rw [hready] at hmade
    obtain ⟨a, hreaches, hholds⟩ := holds_of_updatePath? hput
    exact ⟨a, hreaches.mono fun b hb => hholds.keepsDir hb, hholds.of_extends hmade⟩

/-! ### Many files below a base -/

/-- The names that stand in front of those of every path below a base. -/
def IsBaseFront (base : Text) (front : List Text) : Prop :=
  ∀ path, path.head? ≠ some '/' →
    Text.split '/' (appendPathPart base path) = front ++ Text.split '/' path

theorem exists_isBaseFront (base : Text) : ∃ front, IsBaseFront base front := by
  rcases eq_or_ne base [] with rfl | hbase
  · exact ⟨[], fun path _ => by simp [appendPathPart]⟩
  · obtain ⟨front, -, happend⟩ := exists_front_appendPathPart hbase
    refine ⟨Text.split '/' front, fun path hpath => ?_⟩
    rw [happend path hpath, Text.split_append]

/-- A path below a base leads to its own names below the directory to which the base leads. -/
theorem IsBaseFront.exists_of_reaches (hfront : IsBaseFront base front)
    (hpath : ∀ w ∈ Text.split '/' path, IsEntryName w)
    (h : Reaches disk (appendPathPart base path) b) :
    ∃ a, LeadsTo disk front a ∧ b = a ++ Text.split '/' path := by
  obtain ⟨names, name, c, hsplit, -, hleads, rfl⟩ := h
  rw [hfront path (FilePlace.head?_ne_slash_of_split hpath)] at hsplit
  obtain ⟨dirs, last, hdirs⟩ := (List.eq_nil_or_concat' (Text.split '/' path)).resolve_left
    (Text.split_ne_nil '/' path)
  rw [hdirs, ← List.append_assoc] at hsplit
  obtain ⟨rfl, hlast⟩ := List.append_inj' hsplit rfl
  rw [hdirs] at hpath
  obtain ⟨a, hbase, rfl, -⟩ := hleads.split fun d hd => hpath d (List.mem_append_left _ hd)
  refine ⟨a, hbase, ?_⟩
  rw [hdirs, hlast, List.append_assoc]

theorem exists_of_saveAll?_cons {f : OutputFile} {files : List OutputFile}
    {report report' : WriteReport}
    (h : storage.saveAll? base (f :: files) report disk = (some report', after)) :
    ∃ outcome disk₁, disk.save? (appendPathPart base f.path) f.content = (some outcome, disk₁) ∧
      storage.saveAll? base files (report.add f.path outcome) disk₁ = (some report', after) := by
  cases hsave : disk.save? (appendPathPart base f.path) f.content with
  | mk saved disk₁ =>
    cases saved with
    | none =>
      rw [Storage.saveAll?_cons_none hsave] at h
      cases h
    | some outcome =>
      rw [Storage.saveAll?_cons_some hsave] at h
      exact ⟨outcome, disk₁, rfl, h⟩

/-- A run over files keeps all directories, and what stands at other addresses than its own. -/
theorem IsBaseFront.saveAll?_keeps (hfront : IsBaseFront base front) {files : List OutputFile}
    {report report' : WriteReport}
    (hpaths : ∀ f ∈ files, ∀ w ∈ Text.split '/' f.path, IsEntryName w)
    (hleads : LeadsTo disk front a)
    (h : storage.saveAll? base files report disk = (some report', after)) :
    (∀ b, kindAt disk b = some .dir → kindAt after b = some .dir) ∧
      ∀ b kind, (∀ f ∈ files, b ≠ a ++ Text.split '/' f.path) →
        kindAt disk b = some kind → kindAt after b = some kind := by
  induction files generalizing disk report with
  | nil =>
    obtain rfl : disk = after := (Prod.mk.inj h).2
    exact ⟨fun _ hdir => hdir, fun _ _ _ hkind => hkind⟩
  | cons f files ih =>
    obtain ⟨hpath, hpaths⟩ := List.forall_mem_cons.1 hpaths
    obtain ⟨outcome, disk₁, hsave, hrun⟩ := exists_of_saveAll?_cons h
    obtain ⟨b, hreaches, hholds⟩ := holds_of_save? hsave
    obtain ⟨a', hleads', rfl⟩ := hfront.exists_of_reaches hpath hreaches
    have hleads₁ : LeadsTo disk₁ front a := hleads.mono fun c hc => hholds.keepsDir hc
    obtain rfl := hleads₁.unique hleads'
    obtain ⟨hdirs, hrest⟩ := ih hpaths hleads₁ hrun
    refine ⟨fun c hc => hdirs c (hholds.keepsDir hc), fun c kind hc hkind => ?_⟩
    obtain ⟨hne, hothers⟩ := List.forall_mem_cons.1 hc
    exact hrest c kind hothers (hholds.rest c kind hne hkind)

/-- When files with distinct names have been saved, each of them is read back. -/
theorem IsBaseFront.readPath?_of_saveAll? (hfront : IsBaseFront base front)
    {files : List OutputFile} {report report' : WriteReport}
    (hpaths : ∀ f ∈ files, ∀ w ∈ Text.split '/' f.path, IsEntryName w)
    (hdistinct : files.Pairwise fun f g => Text.split '/' f.path ≠ Text.split '/' g.path)
    (h : storage.saveAll? base files report disk = (some report', after)) :
    ∀ f ∈ files, after.readPath? (appendPathPart base f.path) = some (Text.toUtf8 f.content) := by
  induction files generalizing disk report with
  | nil => simp
  | cons f files ih =>
    obtain ⟨hpath, hpaths⟩ := List.forall_mem_cons.1 hpaths
    obtain ⟨hf, hdistinct⟩ := List.pairwise_cons.1 hdistinct
    obtain ⟨outcome, disk₁, hsave, hrun⟩ := exists_of_saveAll?_cons h
    refine List.forall_mem_cons.2 ⟨?_, ih hpaths hdistinct hrun⟩
    obtain ⟨b, hreaches, hholds⟩ := holds_of_save? hsave
    obtain ⟨a, hleads, rfl⟩ := hfront.exists_of_reaches hpath hreaches
    obtain ⟨hdirs, hrest⟩ := hfront.saveAll?_keeps hpaths hleads hrun
    -- the others have addresses of their own, so that the first one stays
    have hkept := hrest _ _ (fun g hg heq => hf g hg (List.append_cancel_left heq)) hholds.file
    exact (hreaches.mono hdirs).readPath? hkept

end JavaSource.Disk

namespace JavaSource.Manifest

/-- When the units of an accepted manifest have been saved, the file of each holds its text. -/
theorem readPath?_of_saveAll? {m : Manifest} (h : m.Accepted) {disk after : Disk} {base : Text}
    {report : WriteReport}
    (hsaved : disk.saveAll? base (CommandLine.outputFiles m (m.classes.map m.unitOf)) =
      (some report, after)) :
    ∀ u ∈ m.classes.map m.unitOf,
      after.readPath? (appendPathPart base u.path) =
        some (Text.toUtf8 (u.render m.settings.indent)) := by
  obtain ⟨front, hfront⟩ := Disk.exists_isBaseFront base
  have hpaths : ∀ u ∈ m.classes.map m.unitOf, ∀ w ∈ Text.split '/' u.path, IsEntryName w :=
    List.forall_mem_map.2 fun c hc w => isEntryName_of_mem_split_path h hc
  have hdistinct : (m.classes.map m.unitOf).Pairwise fun u v =>
      Text.split '/' u.path ≠ Text.split '/' v.path := by
    refine (pairwise_not_prefix_path h).imp fun {u v} hapart heq => hapart.1 ?_
    exact heq ▸ List.prefix_rfl
  intro u hu
  exact hfront.readPath?_of_saveAll? (List.forall_mem_map.2 hpaths) (List.pairwise_map.2 hdistinct)
    hsaved _ (List.mem_map_of_mem hu)

end JavaSource.Manifest
