import JavaSource.Disk.Path
import JavaSource.Proofs.DiskTree
import JavaSource.Proofs.FilePaths

/-!
# Where paths lead

Names that are followed from the top directory lead to the address of a directory, and still do when
the disk gets more directories. A path is followed through all its names but the last one, and what
becomes of it then is seen from what stands at the address where the last name is looked up.
-/

namespace JavaSource.Disk

variable {disk disk' : Disk} {trail trail' : List (Text × Disk)} {names dirs : List Text}
  {name : Text} {a b : Address}

/-! ### Trails -/

/-- Each directory of the trail stands under its name in the one above it. -/
def IsTrail (disk : Disk) : List (Text × Disk) → Prop
  | [] => True
  | (name, entries) :: above =>
    (disk.entriesAt above).lookup name = some (.dir entries) ∧ IsTrail disk above

theorem addressOf_cons (entry : Text × Disk) (above : List (Text × Disk)) :
    addressOf (entry :: above) = addressOf above ++ [entry.1] := by
  simp [addressOf]

theorem IsTrail.find? (h : IsTrail disk trail) :
    find? (addressOf trail) disk = some (.dir (disk.entriesAt trail)) := by
  induction trail with
  | nil => rfl
  | cons entry above ih =>
    rw [addressOf_cons, find?_append (ih h.2)]
    exact h.1

theorem IsTrail.kindAt_concat (h : IsTrail disk trail) (name : Text) :
    kindAt disk (addressOf trail ++ [name]) = ((disk.entriesAt trail).lookup name).map kindOf := by
  rw [kindAt_append h.find?]
  rfl

/-- Where a name leads from the end of a trail. -/
inductive Enters (disk : Disk) : List (Text × Disk) → Text → List (Text × Disk) → Prop
  | stay (trail : List (Text × Disk)) (name : Text) (h : isIdle name = true) :
      Enters disk trail name trail
  | leave (entry : Text × Disk) (above : List (Text × Disk)) :
      Enters disk (entry :: above) ['.', '.'] above
  | down (trail : List (Text × Disk)) (name : Text) (entries : Disk) (h : isRelative name = false)
      (hwidth : Text.width name ≤ maxNameWidth)
      (hlookup : (disk.entriesAt trail).lookup name = some (.dir entries)) :
      Enters disk trail name ((name, entries) :: trail)

theorem isRelative_iff : isRelative name = true ↔ isIdle name = true ∨ name = ['.', '.'] := by
  simp [isRelative]

theorem enter_eq_inside_iff {here : Location} :
    enter disk here name = .ok (.inside trail') ↔
      ∃ trail, here = .inside trail ∧ Enters disk trail name trail' := by
  constructor
  · intro h
    unfold enter at h
    split at h
    · next hidle => exact ⟨trail', Except.ok.inj h, .stay trail' name hidle⟩
    · next hidle =>
      cases here with
      | outside =>
        dsimp only at h
        split at h
        · cases h
        · cases h
      | inside trail =>
        refine ⟨trail, rfl, ?_⟩
        dsimp only at h
        split at h
        · next hrelative =>
          obtain rfl := (isRelative_iff.1 hrelative).resolve_left hidle
          cases trail with
          | nil => cases h
          | cons entry above =>
            cases h
            exact .leave entry above
        · next hrelative =>
          split at h
          · cases h
          · next hwidth =>
            split at h
            · next entries hlookup =>
              cases h
              exact .down trail name entries (by simpa using hrelative) (by omega) hlookup
            · cases h
            · cases h
  · rintro ⟨trail, rfl, h⟩
    cases h with
    | stay _ _ hidle => simp [enter, hidle]
    | leave entry above => rfl
    | down _ _ entries hrelative hwidth hlookup =>
      have hidle : isIdle name = false := by
        rw [isRelative, Bool.or_eq_false_iff] at hrelative
        exact hrelative.1
      have hnarrow : ¬Text.width name > maxNameWidth := by omega
      simp [enter, hidle, hrelative, hnarrow, hlookup]

theorem Enters.isTrail (h : Enters disk trail name trail') (htrail : IsTrail disk trail) :
    IsTrail disk trail' := by
  cases h with
  | stay _ _ _ => exact htrail
  | leave entry above => exact htrail.2
  | down _ _ entries _ _ hlookup => exact ⟨hlookup, htrail⟩

/-- Where directories stay directories, a name leads to the same address as before. -/
theorem Enters.transfer (hkeep : ∀ b, kindAt disk b = some .dir → kindAt disk' b = some .dir)
    {trail₂ : List (Text × Disk)} (h : Enters disk trail name trail') (htrail : IsTrail disk trail)
    (htrail₂ : IsTrail disk' trail₂) (hsame : addressOf trail₂ = addressOf trail) :
    ∃ trail₂', Enters disk' trail₂ name trail₂' ∧ addressOf trail₂' = addressOf trail' := by
  cases h with
  | stay _ _ hidle => exact ⟨trail₂, .stay trail₂ name hidle, hsame⟩
  | leave entry above =>
    cases trail₂ with
    | nil => simp [addressOf] at hsame
    | cons entry₂ above₂ =>
      rw [addressOf_cons, addressOf_cons] at hsame
      exact ⟨above₂, .leave entry₂ above₂, List.append_inj_left' hsame rfl⟩
  | down _ _ entries hrelative hwidth hlookup =>
    have hdir : kindAt disk (addressOf trail ++ [name]) = some .dir := by
      rw [htrail.kindAt_concat, hlookup]
      rfl
    have hdir₂ := hkeep _ hdir
    rw [← hsame, htrail₂.kindAt_concat, Option.map_eq_some_iff] at hdir₂
    obtain ⟨node, hnode, hkind⟩ := hdir₂
    cases node with
    | file content => cases hkind
    | dir entries₂ =>
      refine ⟨(name, entries₂) :: trail₂, .down trail₂ name entries₂ hrelative hwidth hnode, ?_⟩
      rw [addressOf_cons, addressOf_cons, hsame]

/-! ### Names followed from the top directory -/

def follow (disk : Disk) (names : List Text) : Except Obstacle Location :=
  names.foldlM (enter disk) (.inside [])

theorem follow_concat (disk : Disk) (names : List Text) (name : Text) :
    disk.follow (names ++ [name]) = (disk.follow names).bind fun here => enter disk here name := by
  rw [follow, List.foldlM_append, follow]
  cases names.foldlM (enter disk) (.inside []) with
  | error obstacle => rfl
  | ok here =>
    show [name].foldlM (enter disk) here = enter disk here name
    simp

theorem follow_concat_eq_inside_iff :
    disk.follow (names ++ [name]) = .ok (.inside trail') ↔
      ∃ trail, disk.follow names = .ok (.inside trail) ∧ Enters disk trail name trail' := by
  rw [follow_concat]
  constructor
  · intro h
    cases hnames : disk.follow names with
    | error obstacle =>
      rw [hnames] at h
      cases h
    | ok here =>
      rw [hnames] at h
      obtain ⟨trail, rfl, henters⟩ := enter_eq_inside_iff.1 h
      exact ⟨trail, rfl, henters⟩
  · rintro ⟨trail, hnames, henters⟩
    rw [hnames]
    exact enter_eq_inside_iff.2 ⟨trail, rfl, henters⟩

theorem isTrail_of_follow (h : disk.follow names = .ok (.inside trail)) : IsTrail disk trail := by
  induction names using List.reverseRecOn generalizing trail with
  | nil =>
    obtain rfl := Location.inside.inj (Except.ok.inj h)
    trivial
  | append_singleton names name ih =>
    obtain ⟨above, habove, henters⟩ := follow_concat_eq_inside_iff.1 h
    exact henters.isTrail (ih habove)

/-- The names lead from the top directory to the directory at an address. -/
def LeadsTo (disk : Disk) (names : List Text) (a : Address) : Prop :=
  ∃ trail, disk.follow names = .ok (.inside trail) ∧ addressOf trail = a

theorem LeadsTo.kindAt (h : LeadsTo disk names a) : kindAt disk a = some .dir := by
  obtain ⟨trail, hfollow, rfl⟩ := h
  exact kindAt_eq_dir_iff.2 ⟨_, (isTrail_of_follow hfollow).find?⟩

theorem LeadsTo.mono (h : LeadsTo disk names a)
    (hkeep : ∀ b, Disk.kindAt disk b = some .dir → Disk.kindAt disk' b = some .dir) :
    LeadsTo disk' names a := by
  obtain ⟨trail, hfollow, rfl⟩ := h
  induction names using List.reverseRecOn generalizing trail with
  | nil =>
    obtain rfl := Location.inside.inj (Except.ok.inj hfollow)
    exact ⟨[], rfl, rfl⟩
  | append_singleton names name ih =>
    obtain ⟨above, habove, henters⟩ := follow_concat_eq_inside_iff.1 hfollow
    obtain ⟨above₂, habove₂, hsame⟩ := ih above habove
    obtain ⟨trail₂, henters₂, haddress⟩ := henters.transfer hkeep (isTrail_of_follow habove)
      (isTrail_of_follow habove₂) hsame
    exact ⟨trail₂, follow_concat_eq_inside_iff.2 ⟨above₂, habove₂, henters₂⟩, haddress⟩

theorem LeadsTo.unique (h : LeadsTo disk names a) (h' : LeadsTo disk names b) : a = b := by
  obtain ⟨trail, hfollow, rfl⟩ := h
  obtain ⟨trail', hfollow', rfl⟩ := h'
  rw [hfollow] at hfollow'
  rw [Location.inside.inj (Except.ok.inj hfollow')]

/-! ### Names of entries -/

theorem isFileName_iff :
    isFileName name = true ↔
      IsEntryName name ∧ '\x00' ∉ name ∧ Text.width name ≤ maxNameWidth := by
  simp only [isFileName, Bool.and_eq_true, Bool.not_eq_true', List.isEmpty_iff,
    bne_iff_ne, decide_eq_true_iff, ← Bool.not_eq_true, List.contains_iff_mem]
  constructor
  · rintro ⟨⟨⟨⟨⟨hne, hslash⟩, hzero⟩, hdot⟩, hdots⟩, hwidth⟩
    exact ⟨⟨hne, hslash, hdot, hdots⟩, hzero, hwidth⟩
  · rintro ⟨⟨hne, hslash, hdot, hdots⟩, hzero, hwidth⟩
    exact ⟨⟨⟨⟨⟨hne, hslash⟩, hzero⟩, hdot⟩, hdots⟩, hwidth⟩

theorem isIdle_of_isEntryName (h : IsEntryName name) : isIdle name = false := by
  simp [isIdle, h.ne_nil, h.ne_dot]

theorem isRelative_of_isEntryName (h : IsEntryName name) : isRelative name = false := by
  simp [isRelative, isIdle_of_isEntryName h, h.ne_dots]

theorem enter_of_isFileName (h : isFileName name = true) :
    enter disk (.inside trail) name =
      match (disk.entriesAt trail).lookup name with
      | some (.dir entries) => .ok (.inside ((name, entries) :: trail))
      | some (.file _) => .error .blocked
      | none => .error .missing := by
  obtain ⟨hentry, -, hle⟩ := isFileName_iff.1 h
  have hwidth : ¬Text.width name > maxNameWidth := by omega
  have hidle := isIdle_of_isEntryName hentry
  have hrelative := isRelative_of_isEntryName hentry
  cases hlookup : (disk.entriesAt trail).lookup name with
  | none => simp [enter, hidle, hrelative, hwidth, hlookup]
  | some node =>
    cases node with
    | file content => simp [enter, hidle, hrelative, hwidth, hlookup]
    | dir entries => simp [enter, hidle, hrelative, hwidth, hlookup]

/-- Below a directory, names at which no file stands lead on to a directory, or nothing stands where
they would lead. -/
theorem LeadsTo.below (h : LeadsTo disk names a)
    (hdirs : ∀ d ∈ dirs, isFileName d = true)
    (hfree : ∀ ds, ds <+: dirs → ∀ content, Disk.kindAt disk (a ++ ds) ≠ some (.file content)) :
    LeadsTo disk (names ++ dirs) (a ++ dirs) ∨
      Disk.kindAt disk (a ++ dirs) = none ∧ disk.follow (names ++ dirs) = .error .missing := by
  -- From the end, as the last name is looked up where the others lead; once nothing is found, there
  -- is nothing below it either.
  induction dirs using List.reverseRecOn with
  | nil => exact Or.inl (by simpa using h)
  | append_singleton dirs d ih =>
    have hd := hdirs d (List.mem_append_right _ (List.mem_singleton_self d))
    rw [← List.append_assoc, ← List.append_assoc]
    rcases ih (fun w hw => hdirs w (List.mem_append_left _ hw))
      (fun ds hds => hfree ds (hds.trans (List.prefix_append dirs [d]))) with
      ⟨trail, hfollow, haddress⟩ | ⟨hnone, hmissing⟩
    · have htrail := isTrail_of_follow hfollow
      have hkind := htrail.kindAt_concat d
      rw [haddress] at hkind
      have hnext := follow_concat disk (names ++ dirs) d
      rw [hfollow] at hnext
      cases hlookup : (disk.entriesAt trail).lookup d with
      | none =>
        rw [hlookup] at hkind
        refine Or.inr ⟨hkind, hnext.trans ?_⟩
        show enter disk (.inside trail) d = _
        rw [enter_of_isFileName hd, hlookup]
      | some node =>
        rw [hlookup] at hkind
        cases node with
        | file content =>
          have hfile := hfree (dirs ++ [d]) List.prefix_rfl content
          rw [← List.append_assoc] at hfile
          exact absurd hkind hfile
        | dir entries =>
          refine Or.inl ⟨(d, entries) :: trail, hnext.trans ?_, ?_⟩
          · show enter disk (.inside trail) d = _
            rw [enter_of_isFileName hd, hlookup]
          · rw [addressOf_cons, haddress]
    · refine Or.inr ⟨kindAt_append_eq_none hnone, ?_⟩
      rw [follow_concat, hmissing]
      rfl

/-- Names of entries that are followed on lead down by each of them. -/
theorem LeadsTo.split (h : LeadsTo disk (names ++ dirs) b) (hdirs : ∀ d ∈ dirs, IsEntryName d) :
    ∃ a, LeadsTo disk names a ∧ b = a ++ dirs ∧ ∀ d ∈ dirs, Text.width d ≤ maxNameWidth := by
  induction dirs using List.reverseRecOn generalizing b with
  | nil =>
    rw [List.append_nil] at h
    exact ⟨b, h, (List.append_nil b).symm, by simp⟩
  | append_singleton dirs d ih =>
    rw [← List.append_assoc] at h
    obtain ⟨trail', hconcat, rfl⟩ := h
    obtain ⟨trail, hfollow, henters⟩ := follow_concat_eq_inside_iff.1 hconcat
    obtain ⟨a, hleads, haddress, hwidths⟩ :=
      ih ⟨trail, hfollow, rfl⟩ fun w hw => hdirs w (List.mem_append_left _ hw)
    have hentry := hdirs d (List.mem_append_right _ (List.mem_singleton_self d))
    cases henters with
    | stay _ _ hidle => simp [isIdle_of_isEntryName hentry] at hidle
    | leave entry above => exact absurd rfl hentry.ne_dots
    | down _ _ entries _ hwidth _ =>
      refine ⟨a, hleads, ?_, List.forall_mem_append.2 ⟨hwidths, by simpa using hwidth⟩⟩
      rw [addressOf_cons, haddress, List.append_assoc]

/-! ### Paths -/

/-- Names that make up a path which can be followed from the top directory. -/
structure IsPath (names : List Text) : Prop where
  slash_not_mem : ∀ w ∈ names, '/' ∉ w
  ne_nil : Text.join ['/'] names ≠ []
  zero_not_mem : '\x00' ∉ Text.join ['/'] names
  width_le : Text.width (Text.join ['/'] names) ≤ maxPathWidth
  head?_ne : (Text.join ['/'] names).head? ≠ some '/'

theorem IsPath.split (h : IsPath names) : Text.split '/' (Text.join ['/'] names) = names := by
  refine Text.split_join (fun hnames => h.ne_nil ?_) h.slash_not_mem
  rw [hnames]
  rfl

theorem isPath_split {path : Text} (hne : path ≠ []) (hzero : '\x00' ∉ path)
    (hwidth : Text.width path ≤ maxPathWidth) (hhead : path.head? ≠ some '/') :
    IsPath (Text.split '/' path) where
  slash_not_mem := fun _ hw => Text.sep_not_mem_of_mem_split hw
  ne_nil := by rwa [Text.join_split]
  zero_not_mem := by rwa [Text.join_split]
  width_le := by rwa [Text.join_split]
  head?_ne := by rwa [Text.join_split]

theorem IsPath.locate (h : IsPath (names ++ [name])) :
    disk.locate (Text.join ['/'] (names ++ [name])) =
      (disk.follow names).map fun here => (here, name) := by
  have hne := h.ne_nil
  have hzero := h.zero_not_mem
  have hwidth : ¬Text.width (Text.join ['/'] (names ++ [name])) > maxPathWidth := by
    have := h.width_le
    omega
  have hhead := h.head?_ne
  have hsplit := h.split
  generalize Text.join ['/'] (names ++ [name]) = path at *
  simp only [Disk.locate, hsplit, hhead, hne, hzero, hwidth, List.isEmpty_iff,
    List.contains_iff_mem, decide_false, Bool.or_false, if_false, List.dropLast_concat, follow]
  simp

theorem IsPath.locate_eq_inside_iff (h : IsPath (names ++ [name])) {last : Text} :
    disk.locate (Text.join ['/'] (names ++ [name])) = .ok (.inside trail, last) ↔
      disk.follow names = .ok (.inside trail) ∧ last = name := by
  rw [h.locate]
  cases disk.follow names with
  | error obstacle => simp [Except.map]
  | ok here => simp [Except.map, eq_comm]

theorem enter_outside (disk : Disk) (name : Text) :
    disk.enter .outside name = .ok .outside ∨ disk.enter .outside name = .error .missing := by
  unfold enter
  split
  · exact Or.inl rfl
  · dsimp only
    split
    · exact Or.inl rfl
    · exact Or.inr rfl

/-- No name leads back from outside. -/
theorem foldlM_enter_outside (disk : Disk) (names : List Text) :
    names.foldlM (enter disk) .outside ≠ .ok (.inside trail) := by
  induction names with
  | nil => simp [pure, Except.pure]
  | cons name names ih =>
    rw [List.foldlM_cons]
    rcases enter_outside disk name with h | h
    · rw [h]
      exact ih
    · rw [h]
      exact nofun

theorem isPath_of_locate {path : Text} (h : disk.locate path = .ok (.inside trail, name)) :
    ∃ names, Text.split '/' path = names ++ [name] ∧ IsPath (names ++ [name]) ∧
      disk.follow names = .ok (.inside trail) := by
  have hsplit : (Text.split '/' path).dropLast ++ [(Text.split '/' path).getLastD []] =
      Text.split '/' path := by
    rw [List.getLastD_eq_getLast?, List.getLast?_eq_some_getLast (Text.split_ne_nil '/' path)]
    exact List.dropLast_concat_getLast _
  unfold Disk.locate at h
  split at h
  · cases h
  · next hne =>
    split at h
    · cases h
    · next hplain =>
      simp only [Bool.or_eq_true, List.contains_iff_mem, decide_eq_true_iff, not_or] at hplain
      generalize hstart : (if path.head? = some '/' then Location.outside else .inside []) = start
        at h
      cases hrun : (Text.split '/' path).dropLast.foldlM (enter disk) start with
      | error obstacle => simp [hrun, Except.map] at h
      | ok here =>
        obtain ⟨rfl, hname⟩ : here = .inside trail ∧ (Text.split '/' path).getLastD [] = name := by
          simpa [hrun, Except.map] using h
        have hhead : path.head? ≠ some '/' := by
          intro hslash
          rw [if_pos hslash] at hstart
          rw [← hstart] at hrun
          exact foldlM_enter_outside disk _ hrun
        rw [if_neg hhead] at hstart
        rw [← hstart] at hrun
        rw [hname] at hsplit
        refine ⟨_, hsplit.symm, ?_, hrun⟩
        rw [hsplit]
        exact isPath_split (by simpa using hne) hplain.1 (by omega) hhead

theorem join_append_prefix (names more : List Text) :
    Text.join ['/'] names <+: Text.join ['/'] (names ++ more) := by
  induction names with
  | nil => exact List.nil_prefix
  | cons w ws ih =>
    cases ws with
    | nil =>
      cases more with
      | nil => exact List.prefix_rfl
      | cons v vs =>
        show w <+: w ++ ['/'] ++ Text.join ['/'] (v :: vs)
        rw [List.append_assoc]
        exact List.prefix_append w _
    | cons v vs =>
      rw [List.cons_append, List.cons_append, Text.join, Text.join]
      exact (List.prefix_append_right_inj _).2 ih

/-- The names up to one that is not empty make up a path of their own. -/
theorem IsPath.of_prefix {front more : List Text} (h : IsPath (front ++ name :: more))
    (hname : name ≠ []) : IsPath (front ++ [name]) := by
  have hprefix := join_append_prefix (front ++ [name]) more
  rw [List.append_assoc, List.singleton_append] at hprefix
  have hnames : ∀ w ∈ front ++ [name], '/' ∉ w := fun w hw =>
    h.slash_not_mem w (List.append_subset.2 ⟨List.subset_append_left .., by simp⟩ hw)
  have hne : Text.join ['/'] (front ++ [name]) ≠ [] := by
    intro hempty
    have hsplit : Text.split '/' (Text.join ['/'] (front ++ [name])) = front ++ [name] :=
      Text.split_join (by simp) hnames
    rw [hempty] at hsplit
    have hlast := congrArg List.getLast? hsplit
    rw [List.getLast?_concat] at hlast
    exact hname (Option.some.inj hlast).symm
  obtain ⟨rest, hrest⟩ := hprefix
  refine ⟨hnames, hne, fun hzero => h.zero_not_mem ?_, ?_, fun hhead => h.head?_ne ?_⟩
  · rw [← hrest]
    exact List.mem_append_left rest hzero
  · have hwidth := h.width_le
    rw [← hrest, Text.width_append] at hwidth
    omega
  · rw [← hrest, List.head?_append, hhead]
    rfl

end JavaSource.Disk
