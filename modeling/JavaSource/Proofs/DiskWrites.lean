import JavaSource.Disk.Storage
import JavaSource.Proofs.DiskPaths
import JavaSource.Proofs.SavedFiles

/-!
# New files below a directory

A file whose path adds names to those of a directory is saved together with the directories that are
missing on its way, and nothing else changes. It is not saved where its path or one of the added
names is too wide.
-/

namespace JavaSource.Disk

variable {disk disk' : Disk} {names dirs more : List Text} {name : Text} {a b : Address}

/-! ### Changes at a path -/

theorem updatePath?_eq_some_iff (hpath : IsPath (names ++ [name]))
    {change : Text → Disk → Option Disk} :
    disk.updatePath? change (Text.join ['/'] (names ++ [name])) = some disk' ↔
      ∃ a, LeadsTo disk names a ∧ update (change name) a disk = some disk' := by
  constructor
  · intro h
    unfold updatePath? at h
    split at h
    · next trail last hlocate =>
      obtain ⟨hfollow, rfl⟩ := hpath.locate_eq_inside_iff.1 hlocate
      exact ⟨addressOf trail, ⟨trail, hfollow, rfl⟩, h⟩
    · cases h
  · intro ⟨_, ⟨trail, hfollow, haddress⟩, h⟩
    subst haddress
    have hlocate := hpath.locate_eq_inside_iff.2 ⟨hfollow, rfl⟩
    simp only [updatePath?, hlocate, h]

theorem readPath?_eq_some_iff (hpath : IsPath (names ++ [name])) {content : List UInt8} :
    disk.readPath? (Text.join ['/'] (names ++ [name])) = some content ↔
      ∃ a, LeadsTo disk names a ∧ kindAt disk (a ++ [name]) = some (.file content) := by
  have hread {trail : List (Text × Disk)} (h : disk.follow names = .ok (.inside trail)) :
      read? [name] (disk.entriesAt trail) = some content ↔
        kindAt disk (addressOf trail ++ [name]) = some (.file content) := by
    rw [read?_eq_some_iff, kindAt_append (isTrail_of_follow h).find?]
  constructor
  · intro h
    unfold readPath? at h
    split at h
    · next trail last hlocate =>
      obtain ⟨hfollow, rfl⟩ := hpath.locate_eq_inside_iff.1 hlocate
      exact ⟨addressOf trail, ⟨trail, hfollow, rfl⟩, (hread hfollow).1 h⟩
    · cases h
  · intro ⟨_, ⟨trail, hfollow, haddress⟩, h⟩
    subst haddress
    have hlocate := hpath.locate_eq_inside_iff.2 ⟨hfollow, rfl⟩
    simp only [readPath?, hlocate, (hread hfollow).2 h]

/-- A disk where something has been set at one address. -/
structure SetAt (disk disk' : Disk) (a : Address) (kind : Kind) : Prop where
  shows : kindAt disk' = Function.update (kindAt disk) a (some kind)
  isTree : IsTree disk → IsTree disk'

theorem SetAt.self {kind : Kind} (h : SetAt disk disk' a kind) : kindAt disk' a = some kind := by
  rw [h.shows, Function.update_self]

theorem SetAt.other {kind : Kind} (h : SetAt disk disk' a kind) (hne : b ≠ a) :
    kindAt disk' b = kindAt disk b := by
  rw [h.shows, Function.update_of_ne hne]

theorem Sets.setAt {change : Disk → Option Disk} {kind : Kind} (h : Sets change name kind)
    (hupdate : update change a disk = some disk') : SetAt disk disk' (a ++ [name]) kind :=
  ⟨h.kindAt_update a disk disk' hupdate, fun htree => h.isTree_update htree hupdate⟩

theorem lookup_eq_none_of_kindAt {entries : Disk} (h : find? a disk = some (.dir entries))
    (hnone : kindAt disk (a ++ [name]) = none) : entries.lookup name = none := by
  rw [kindAt_append h] at hnone
  exact Option.map_eq_none_iff.1 hnone

/-! ### Directories -/

theorem makeDir_new (hpath : IsPath (names ++ [name])) (h : LeadsTo disk names a)
    (hname : isFileName name = true) (hnone : kindAt disk (a ++ [name]) = none) :
    ∃ disk', disk.makeDir (Text.join ['/'] (names ++ [name])) = .ok disk' ∧
      SetAt disk disk' (a ++ [name]) .dir := by
  obtain ⟨entries, hentries⟩ := kindAt_eq_dir_iff.1 h.kindAt
  have hadd := addDir_eq_some_iff.2 ⟨hname, lookup_eq_none_of_kindAt hentries hnone, rfl⟩
  obtain ⟨disk', hupdate⟩ := (exists_update_iff hentries).2 ⟨_, hadd⟩
  refine ⟨disk', ?_, (sets_addDir name).setAt hupdate⟩
  have hmade := (updatePath?_eq_some_iff hpath).2 ⟨a, h, hupdate⟩
  obtain ⟨trail, hfollow, -⟩ := h
  rw [makeDir, hmade, hpath.locate, hfollow]
  rfl

theorem makeDir_of_leadsTo (hpath : IsPath (names ++ [name]))
    (h : LeadsTo disk (names ++ [name]) a) :
    disk.makeDir (Text.join ['/'] (names ++ [name])) = .error .blocked := by
  obtain ⟨trail', hconcat, -⟩ := h
  obtain ⟨trail, hfollow, henters⟩ := follow_concat_eq_inside_iff.1 hconcat
  have hblocked : disk.updatePath? addDir (Text.join ['/'] (names ++ [name])) = none := by
    refine Option.eq_none_iff_forall_ne_some.2 fun disk' hmade => ?_
    obtain ⟨b, hleads, hupdate⟩ := (updatePath?_eq_some_iff hpath).1 hmade
    obtain rfl := hleads.unique ⟨trail, hfollow, rfl⟩
    have htrail := isTrail_of_follow hfollow
    obtain ⟨entries', hadd⟩ := (exists_update_iff htrail.find?).1 ⟨disk', hupdate⟩
    obtain ⟨hname, hlookup, -⟩ := addDir_eq_some_iff.1 hadd
    have hentry := (isFileName_iff.1 hname).1
    cases henters with
    | stay _ _ hidle => simp [isIdle_of_isEntryName hentry] at hidle
    | leave entry above => exact hentry.ne_dots rfl
    | down _ _ entries _ _ hdir => simp [hlookup] at hdir
  rw [makeDir, hblocked, hpath.locate, hfollow]
  rfl

theorem makeDir_of_missing (hpath : IsPath (names ++ [name]))
    (h : disk.follow names = .error .missing) :
    disk.makeDir (Text.join ['/'] (names ++ [name])) = .error .missing := by
  rw [makeDir, hpath.locate, h]
  rfl

theorem isDirPath_of_leadsTo (hpath : IsPath (names ++ [name]))
    (h : LeadsTo disk (names ++ [name]) a) :
    disk.isDirPath (Text.join ['/'] (names ++ [name])) = true := by
  obtain ⟨trail', hconcat, -⟩ := h
  obtain ⟨trail, hfollow, henters⟩ := follow_concat_eq_inside_iff.1 hconcat
  have henter : disk.enter (.inside trail) name = .ok (.inside trail') :=
    enter_eq_inside_iff.2 ⟨trail, rfl, henters⟩
  rw [isDirPath, hpath.locate, hfollow]
  simp [Except.map, Except.bind, henter]

theorem pathsUpTo_concat (names : List Text) (name : Text) :
    pathsUpTo (names ++ [name]).reverse =
      if isIdle name then pathsUpTo names.reverse
      else Text.join ['/'] (names ++ [name]) :: pathsUpTo names.reverse := by
  rw [List.reverse_append, List.reverse_singleton, List.singleton_append, pathsUpTo,
    List.reverse_cons, List.reverse_reverse]

/-- Directories that are all there are not made. -/
theorem makeDirs_of_leadsTo (hpath : IsPath (names ++ more)) (h : LeadsTo disk names a) :
    makeDirs (pathsUpTo names.reverse) disk = (true, disk) := by
  induction names using List.reverseRecOn generalizing more a with
  | nil => rfl
  | append_singleton names name ih =>
    rw [List.append_assoc, List.singleton_append] at hpath
    rw [pathsUpTo_concat]
    split
    · next hidle =>
      obtain ⟨trail', hconcat, -⟩ := h
      obtain ⟨trail, hfollow, -⟩ := follow_concat_eq_inside_iff.1 hconcat
      exact ih hpath ⟨trail, hfollow, rfl⟩
    · next hidle =>
      have hne : name ≠ [] := by
        rintro rfl
        exact hidle rfl
      have hupTo := hpath.of_prefix hne
      simp only [makeDirs, makeDir_of_leadsTo hupTo h, isDirPath_of_leadsTo hupTo h]

/-- A disk that got the directories on the way from an address through further names. -/
structure Grown (disk disk' : Disk) (a : Address) (dirs : List Text) : Prop where
  dir : ∀ ds, ds <+: dirs → kindAt disk' (a ++ ds) = some .dir
  rest : ∀ b, (∀ ds, ds <+: dirs → b ≠ a ++ ds) → kindAt disk' b = kindAt disk b
  isTree : IsTree disk → IsTree disk'

theorem Grown.keeps (h : Grown disk disk' a dirs) (hdir : kindAt disk b = some .dir) :
    kindAt disk' b = some .dir := by
  by_cases hon : ∃ ds, ds <+: dirs ∧ b = a ++ ds
  · obtain ⟨ds, hds, rfl⟩ := hon
    exact h.dir ds hds
  · exact (h.rest b fun ds hds hb => hon ⟨ds, hds, hb⟩).trans hdir

theorem grown_of_dir (h : kindAt disk (a ++ dirs) = some .dir) : Grown disk disk a dirs where
  dir := by
    intro ds hds
    obtain ⟨more, rfl⟩ := hds
    rcases eq_or_ne more [] with rfl | hmore
    · simpa using h
    · refine kindAt_eq_dir_of_append hmore ?_
      rw [List.append_assoc, h]
      exact Option.some_ne_none _
  rest := fun _ _ => rfl
  isTree := id

theorem append_concat_ne {ds : List Text} (h : ds <+: dirs) : a ++ dirs ++ [name] ≠ a ++ ds := by
  intro heq
  have hlength := congrArg List.length heq
  have hle := h.length_le
  simp only [List.length_append, List.length_singleton] at hlength
  omega

theorem Grown.next (h : Grown disk disk' a dirs) (name : Text) :
    kindAt disk' (a ++ dirs ++ [name]) = kindAt disk (a ++ dirs ++ [name]) :=
  h.rest _ fun _ hds => append_concat_ne hds

theorem Grown.rest_of_setAt {disk₁ : Disk} {kind : Kind} (h : Grown disk disk₁ a dirs)
    (hset : SetAt disk₁ disk' (a ++ dirs ++ [name]) kind)
    (hb : ∀ ds, ds <+: dirs ++ [name] → b ≠ a ++ ds) : kindAt disk' b = kindAt disk b := by
  have hne := hb (dirs ++ [name]) List.prefix_rfl
  rw [← List.append_assoc] at hne
  rw [hset.other hne]
  exact h.rest b fun ds hds => hb ds (hds.trans (List.prefix_append dirs [name]))

theorem Grown.concat {disk₁ : Disk} (h : Grown disk disk₁ a dirs)
    (hset : SetAt disk₁ disk' (a ++ dirs ++ [name]) .dir) :
    Grown disk disk' a (dirs ++ [name]) where
  dir := by
    intro ds hds
    rcases List.prefix_concat_iff.1 hds with rfl | hds
    · rw [← List.append_assoc, hset.self]
    · exact (hset.other (append_concat_ne hds).symm).trans (h.dir ds hds)
  rest := fun _ hb => h.rest_of_setAt hset hb
  isTree := fun htree => hset.isTree (h.isTree htree)

theorem Grown.leadsTo (h : Grown disk disk' a dirs) (hleads : LeadsTo disk names a)
    (hdirs : ∀ d ∈ dirs, isFileName d = true) : LeadsTo disk' (names ++ dirs) (a ++ dirs) := by
  have hstart := hleads.mono fun b hb => h.keeps hb
  refine (hstart.below hdirs fun ds hds content => ?_).resolve_right fun hnone => ?_
  · simp [h.dir ds hds]
  · simp [h.dir dirs List.prefix_rfl] at hnone

/-- Directories are made where no file stands in the way. -/
theorem makeDirs_below (hpath : IsPath (names ++ dirs ++ more)) (h : LeadsTo disk names a)
    (hdirs : ∀ d ∈ dirs, isFileName d = true)
    (hfree : ∀ ds, ds <+: dirs → ∀ content, kindAt disk (a ++ ds) ≠ some (.file content)) :
    ∃ disk', makeDirs (pathsUpTo (names ++ dirs).reverse) disk = (true, disk') ∧
      Grown disk disk' a dirs := by
  -- The last directory comes first: only where a name on the way to it is missing are those above
  -- it made, and it is tried once more.
  induction dirs using List.reverseRecOn generalizing more with
  | nil =>
    rw [List.append_nil] at hpath ⊢
    refine ⟨disk, makeDirs_of_leadsTo hpath h, grown_of_dir ?_⟩
    rw [List.append_nil]
    exact h.kindAt
  | append_singleton dirs d ih =>
    have hd := hdirs d (List.mem_append_right _ (List.mem_singleton_self d))
    have hentry := (isFileName_iff.1 hd).1
    have hdirs' : ∀ w ∈ dirs, isFileName w = true := fun w hw =>
      hdirs w (List.mem_append_left _ hw)
    have hfree' : ∀ ds, ds <+: dirs → ∀ content, kindAt disk (a ++ ds) ≠ some (.file content) :=
      fun ds hds => hfree ds (hds.trans (List.prefix_append dirs [d]))
    have hrest : IsPath (names ++ dirs ++ d :: more) := by simpa using hpath
    have hupTo := hrest.of_prefix hentry.ne_nil
    obtain ⟨disk₁, hmade, hgrown⟩ := ih hrest hdirs' hfree'
    rw [← List.append_assoc, pathsUpTo_concat, if_neg (by simp [isIdle_of_isEntryName hentry]),
      makeDirs]
    rcases h.below hdirs' hfree' with hleads | ⟨hnone, hmissing⟩
    · cases hkind : kindAt disk (a ++ dirs ++ [d]) with
      | none =>
        obtain ⟨disk', hnew, hset⟩ := makeDir_new hupTo hleads hd hkind
        rw [hnew]
        exact ⟨disk', rfl, (grown_of_dir hleads.kindAt).concat hset⟩
      | some kind =>
        have hgrown' : Grown disk disk a (dirs ++ [d]) := by
          refine grown_of_dir ?_
          rw [← List.append_assoc]
          cases kind with
          | dir => exact hkind
          | file content =>
            rw [List.append_assoc] at hkind
            exact absurd hkind (hfree (dirs ++ [d]) List.prefix_rfl content)
        have hleads' : LeadsTo disk (names ++ dirs ++ [d]) (a ++ (dirs ++ [d])) := by
          rw [List.append_assoc]
          exact hgrown'.leadsTo h hdirs
        rw [makeDir_of_leadsTo hupTo hleads', isDirPath_of_leadsTo hupTo hleads']
        exact ⟨disk, rfl, hgrown'⟩
    · have hnone₁ : kindAt disk₁ (a ++ dirs ++ [d]) = none :=
        (hgrown.next d).trans (kindAt_append_eq_none hnone)
      obtain ⟨disk', hnew, hset⟩ := makeDir_new hupTo (hgrown.leadsTo h hdirs') hd hnone₁
      simp only [makeDir_of_missing hupTo hmissing, hmade, hnew]
      exact ⟨disk', rfl, hgrown.concat hset⟩

/-! ### Files -/

theorem parents_join (hpath : IsPath (names ++ [name])) (hname : IsEntryName name) :
    parents (Text.join ['/'] (names ++ [name])) = pathsUpTo names.reverse := by
  rw [parents, hpath.split, pathsUpTo_concat, if_neg (by simp [isIdle_of_isEntryName hname]),
    List.tail_cons]

/-- A disk that got a file at the end of the names, and the directories on its way. -/
structure Placed (disk disk' : Disk) (a : Address) (names : List Text) (content : List UInt8) :
    Prop where
  file : kindAt disk' (a ++ names) = some (.file content)
  dir : ∀ ds, ds <+: names → ds ≠ names → kindAt disk' (a ++ ds) = some .dir
  rest : ∀ b, (∀ ds, ds <+: names → b ≠ a ++ ds) → kindAt disk' b = kindAt disk b
  isTree : IsTree disk → IsTree disk'

theorem Placed.other {content : List UInt8} (h : Placed disk disk' a names content)
    (hb : ¬b <+: names) : kindAt disk' (a ++ b) = kindAt disk (a ++ b) :=
  h.rest (a ++ b) fun _ hds heq => hb (List.append_cancel_left heq ▸ hds)

theorem Placed.keeps {content : List UInt8} (h : Placed disk disk' a names content)
    (hnone : kindAt disk (a ++ names) = none) (hdir : kindAt disk b = some .dir) :
    kindAt disk' b = some .dir := by
  by_cases hon : ∃ ds, ds <+: names ∧ b = a ++ ds
  · obtain ⟨ds, hds, rfl⟩ := hon
    refine h.dir ds hds ?_
    rintro rfl
    rw [hnone] at hdir
    cases hdir
  · exact (h.rest b fun ds hds hb => hon ⟨ds, hds, hb⟩).trans hdir

theorem Grown.placed {disk₁ : Disk} {content : List UInt8} (h : Grown disk disk₁ a dirs)
    (hset : SetAt disk₁ disk' (a ++ dirs ++ [name]) (.file content)) :
    Placed disk disk' a (dirs ++ [name]) content where
  file := by rw [← List.append_assoc, hset.self]
  dir := by
    intro ds hds hne
    have hds' := (List.prefix_concat_iff.1 hds).resolve_left hne
    exact (hset.other (append_concat_ne hds').symm).trans (h.dir ds hds')
  rest := fun _ hb => h.rest_of_setAt hset hb
  isTree := fun htree => hset.isTree (h.isTree htree)

theorem writePath_new (hpath : IsPath (names ++ dirs ++ [name])) (h : LeadsTo disk names a)
    (hdirs : ∀ d ∈ dirs, isFileName d = true) (hname : isFileName name = true)
    (hfree : ∀ ds, ds <+: dirs → ∀ content, kindAt disk (a ++ ds) ≠ some (.file content))
    (hnone : kindAt disk (a ++ dirs ++ [name]) = none) (content : List UInt8) :
    ∃ disk', writePath (Text.join ['/'] (names ++ dirs ++ [name])) content disk = (true, disk') ∧
      Placed disk disk' a (dirs ++ [name]) content := by
  obtain ⟨disk₁, hmade, hgrown⟩ := makeDirs_below hpath h hdirs hfree
  have hleads := hgrown.leadsTo h hdirs
  obtain ⟨entries, hentries⟩ := kindAt_eq_dir_iff.1 hleads.kindAt
  have hlookup := lookup_eq_none_of_kindAt hentries ((hgrown.next name).trans hnone)
  have hput : putFile name content entries = some (setEntry name (.file content) entries) :=
    putFile_eq_some_iff.2 ⟨hname, by simp [hlookup], rfl⟩
  obtain ⟨disk', hupdate⟩ := (exists_update_iff hentries).2 ⟨_, hput⟩
  have hwritten : disk₁.updatePath? (fun name => putFile name content)
      (Text.join ['/'] (names ++ dirs ++ [name])) = some disk' :=
    (updatePath?_eq_some_iff hpath).2 ⟨_, hleads, hupdate⟩
  refine ⟨disk', ?_, hgrown.placed ((sets_putFile name content).setAt hupdate)⟩
  simp only [writePath, parents_join hpath (isFileName_iff.1 hname).1, hmade, hwritten]

/-! ### Saving -/

theorem save?_eq (path content : Text) (disk : Disk) :
    disk.save? path content =
      if disk.readPath? path = some (Text.toUtf8 content) then (some .unchanged, disk)
      else
        let w := writePath path (Text.toUtf8 content) disk
        (if w.1 then some .written else none, w.2) :=
  storage.save?_eq path content disk

/-- A file that is saved stood there already, or is put there when the directories are made. -/
theorem read_or_put_of_save? {path content : Text} {outcome : WriteOutcome}
    (h : disk.save? path content = (some outcome, disk')) :
    (disk.readPath? path = some (Text.toUtf8 content) ∧ disk' = disk) ∨
      ∃ disk₁, makeDirs (parents path) disk = (true, disk₁) ∧
        disk₁.updatePath? (fun name => putFile name (Text.toUtf8 content)) path = some disk' := by
  rw [save?_eq] at h
  split at h
  · next hread => exact Or.inl ⟨hread, (Prod.mk.inj h).2.symm⟩
  · refine Or.inr ?_
    unfold writePath at h
    split at h
    · cases h
    · next disk₁ hmade =>
      split at h
      · next disk₂ hput =>
        obtain rfl := (Prod.mk.inj h).2
        exact ⟨disk₁, hmade, hput⟩
      · cases h

theorem save?_new (hpath : IsPath (names ++ dirs ++ [name])) (h : LeadsTo disk names a)
    (hnames : ∀ w ∈ dirs ++ [name], isFileName w = true)
    (hfree : ∀ ds, ds <+: dirs → ∀ content, kindAt disk (a ++ ds) ≠ some (.file content))
    (hnone : kindAt disk (a ++ dirs ++ [name]) = none) (content : Text) :
    ∃ disk', disk.save? (Text.join ['/'] (names ++ dirs ++ [name])) content =
        (some .written, disk') ∧
      Placed disk disk' a (dirs ++ [name]) (Text.toUtf8 content) := by
  obtain ⟨hdirs, hname⟩ := List.forall_mem_append.1 hnames
  obtain ⟨disk', hwrite, hplaced⟩ := writePath_new hpath h hdirs
    (hname name (List.mem_singleton_self name)) hfree hnone (Text.toUtf8 content)
  have hread : disk.readPath? (Text.join ['/'] (names ++ dirs ++ [name])) ≠
      some (Text.toUtf8 content) := by
    intro hread
    obtain ⟨b, hleads, hfile⟩ := (readPath?_eq_some_iff hpath).1 hread
    obtain ⟨a', hstart, rfl, -⟩ := hleads.split fun d hd => (isFileName_iff.1 (hdirs d hd)).1
    rw [← h.unique hstart, hnone] at hfile
    cases hfile
  refine ⟨disk', ?_, hplaced⟩
  rw [save?_eq, if_neg hread, hwrite]
  rfl

theorem widths_le_of_save? (hpath : IsPath (names ++ dirs ++ [name])) (h : LeadsTo disk names a)
    (hdirs : ∀ d ∈ dirs, IsEntryName d) (hnone : kindAt disk (a ++ dirs ++ [name]) = none)
    {content : Text} {outcome : WriteOutcome}
    (hsaved : disk.save? (Text.join ['/'] (names ++ dirs ++ [name])) content =
      (some outcome, disk')) :
    ∀ w ∈ dirs ++ [name], Text.width w ≤ maxNameWidth := by
  rcases read_or_put_of_save? hsaved with ⟨hread, -⟩ | ⟨disk₁, -, hput⟩
  · obtain ⟨b, hleads, hfile⟩ := (readPath?_eq_some_iff hpath).1 hread
    obtain ⟨a', hstart, rfl, -⟩ := hleads.split hdirs
    rw [← h.unique hstart, hnone] at hfile
    cases hfile
  · obtain ⟨b, hleads, hupdate⟩ := (updatePath?_eq_some_iff hpath).1 hput
    obtain ⟨entries, hentries⟩ := kindAt_eq_dir_iff.1 hleads.kindAt
    obtain ⟨entries', hentries'⟩ := (exists_update_iff hentries).1 ⟨disk', hupdate⟩
    have hname := isFileName_iff.1 (putFile_eq_some_iff.1 hentries').1
    obtain ⟨_, -, -, hwidths⟩ := hleads.split hdirs
    exact List.forall_mem_append.2 ⟨hwidths, by simpa using hname.2.2⟩

end JavaSource.Disk
