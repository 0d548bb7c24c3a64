import JavaSource.Proofs.LinkRoundTrip

/-!
# How links to a method are spelled

A link is documented as `class#method` or `class#method(type, type)` with blanks around the names
and the types. The texts that lead to a method of an accepted manifest are those, and some more:
the pieces of a list are read without the blanks inside them, and blank pieces do not count. Such a
list has its documented form exactly if it is empty or each of its pieces is one word.
-/

namespace JavaSource

/-- A word, with blanks around it and none inside it. -/
def Text.IsOneWord (s : Text) : Prop :=
  trim s ≠ [] ∧ ∀ c ∈ trim s, isBlank c = false

instance (s : Text) : Decidable s.IsOneWord :=
  decidable_of_iff (s.trim ≠ [] ∧ (s.trim.all fun c => !Text.isBlank c) = true)
    (by simp [Text.IsOneWord])

theorem IsLinkWord.isOneWord {word s : Text} (h : IsLinkWord word) (hs : Text.Padded word s) :
    s.IsOneWord := by
  unfold Text.IsOneWord
  rw [h.trim_eq hs]
  exact ⟨h.1, h.not_blank⟩

namespace MemberLink

/-! ### Lists of types -/

/-- The documented lists: the types one by one, with blanks around each. -/
def Lists (types : List Text) (list : Text) : Prop :=
  ∃ pieces, list = Text.join [','] pieces ∧ List.Forall₂ Text.Padded types pieces

/-- What the pieces of a list are read as: no type where a piece is blank, and else its text
without the blanks in it. -/
inductive ReadAs : (types pieces : List Text) → Prop
  | nil : ReadAs [] []
  | skip {types pieces : List Text} {piece : Text} (blank : ∀ c ∈ piece, Text.isBlank c = true)
      (rest : ReadAs types pieces) : ReadAs types (piece :: pieces)
  | take {types pieces : List Text} {type piece : Text} (ne_nil : type ≠ [])
      (text : Text.dropBlanks piece = type) (rest : ReadAs types pieces) :
      ReadAs (type :: types) (piece :: pieces)

theorem dropBlanks_eq_nil_iff {s : Text} :
    Text.dropBlanks s = [] ↔ ∀ c ∈ s, Text.isBlank c = true := by
  simp [Text.dropBlanks]

theorem readAs_iff {types pieces : List Text} :
    ReadAs types pieces ↔ ((pieces.map Text.dropBlanks).filter fun a => !a.isEmpty) = types := by
  constructor
  · intro h
    induction h with
    | nil => rfl
    | skip blank rest ih => simp [dropBlanks_eq_nil_iff.2 blank, ih]
    | take ne_nil text rest ih => simp [text, ne_nil, ih]
  · induction pieces generalizing types with
    | nil =>
      rintro rfl
      exact .nil
    | cons piece pieces ih =>
      rintro rfl
      by_cases hpiece : Text.dropBlanks piece = []
      · simpa [hpiece] using ReadAs.skip (dropBlanks_eq_nil_iff.1 hpiece) (ih rfl)
      · simpa [hpiece] using ReadAs.take hpiece rfl (ih rfl)

theorem readAs_split_iff {types : List Text} {list : Text} :
    ReadAs types (Text.split ',' list) ↔ splitArgs list = types := readAs_iff

theorem ReadAs.forall₂_padded {types pieces : List Text} (h : ReadAs types pieces)
    (hwords : ∀ piece ∈ pieces, piece.IsOneWord) : List.Forall₂ Text.Padded types pieces := by
  induction h with
  | nil => exact .nil
  | skip blank rest ih =>
    -- a blank piece holds no word
    obtain ⟨hne, hword⟩ := hwords _ (List.mem_cons_self ..)
    have hdrop := (Text.padded_trim _).dropBlanks_eq hword
    rw [dropBlanks_eq_nil_iff.2 blank] at hdrop
    exact absurd hdrop.symm hne
  | @take types pieces type piece ne_nil text rest ih =>
    obtain ⟨-, hword⟩ := hwords _ (List.mem_cons_self ..)
    have hpadded := Text.padded_trim piece
    have hdrop := hpadded.dropBlanks_eq hword
    rw [← hdrop, text] at hpadded
    exact .cons hpadded (ih fun piece hp => hwords piece (List.mem_cons_of_mem _ hp))

theorem forall_mem_of_padded {types pieces : List Text} (htypes : ∀ a ∈ types, IsLinkWord a)
    (h : List.Forall₂ Text.Padded types pieces) :
    ∀ piece ∈ pieces, ',' ∉ piece ∧ piece.IsOneWord := by
  induction h with
  | nil => simp
  | cons hpadded rest ih =>
    obtain ⟨htype, hrest⟩ := List.forall_mem_cons.1 htypes
    obtain ⟨-, -, hcomma⟩ := htype.separator_not_mem hpadded
    exact List.forall_mem_cons.2 ⟨⟨hcomma, htype.isOneWord hpadded⟩, ih hrest⟩

/-- Of the lists that are read as some types, those in documented form are made of words. -/
theorem lists_iff {types : List Text} {list : Text} (htypes : ∀ a ∈ types, IsLinkWord a)
    (h : ReadAs types (Text.split ',' list)) :
    Lists types list ↔ list = [] ∨ ∀ piece ∈ Text.split ',' list, piece.IsOneWord := by
  constructor
  · rintro ⟨pieces, rfl, hpadded⟩
    rcases eq_or_ne pieces [] with rfl | hne
    · exact Or.inl rfl
    · have hwords := forall_mem_of_padded htypes hpadded
      rw [Text.split_join hne fun piece hp => (hwords piece hp).1]
      exact Or.inr fun piece hp => (hwords piece hp).2
  · rintro (rfl | hwords)
    · obtain rfl := readAs_split_iff.1 h
      exact ⟨[], rfl, .nil⟩
    · exact ⟨_, (Text.join_split ',' list).symm, h.forall₂_padded hwords⟩

/-- Whether a list, where there is one, is read as the erased types of a method. -/
def ReadsAs (list : Option Text) (d : MethodDecl) : Prop :=
  ∀ s ∈ list, ReadAs d.erasedArgs (Text.split ',' s)

theorem fits_iff_readsAs {c d : Text} {list : Option Text} {e : MethodDecl} :
    (MemberLink.mk c d (list.map splitArgs)).fits e = true ↔ e.name = d ∧ ReadsAs list e := by
  rw [fits_iff]
  refine and_congr_right fun _ => ?_
  cases list with
  | none => simp [ReadsAs]
  | some s => simp [ReadsAs, readAs_split_iff, eq_comm]

end MemberLink

namespace Manifest

variable {m : Manifest}

/-! ### Links that lead to a method -/

theorem resolve_eq_ok_iff (h : m.Accepted) {link : Text} {t : MemberTarget} :
    m.resolve link = .ok t ↔
      m.classes[t.classIndex]? = some t.classDecl ∧
      t.classDecl.methods[t.methodIndex]? = some t.method ∧
      ∃ list, MemberLink.Written t.classDecl.name t.method.name list link ∧
        MemberLink.ReadsAs list t.method ∧
        ∀ (j : Nat) (e : MethodDecl), t.classDecl.methods[j]? = some e →
          e.name = t.method.name → MemberLink.ReadsAs list e → j = t.methodIndex := by
  constructor
  · intro ht
    obtain ⟨hclass, hmethod⟩ := getElem?_of_resolve ht
    obtain ⟨⟨c, d, args⟩, hl, hc, hpick⟩ := exists_pick_of_resolve ht
    obtain ⟨list, hwritten, hargs⟩ := MemberLink.exists_written_of_ofText? hl
    obtain ⟨-, -, -, hfits, huniq⟩ := pick_eq_ok_iff.1 hpick
    simp only at hc hwritten hargs
    subst hc hargs
    obtain ⟨rfl, hreads⟩ := MemberLink.fits_iff_readsAs.1 hfits
    refine ⟨hclass, hmethod, list, hwritten, hreads, fun j e hj hname hlist => ?_⟩
    exact huniq j e hj (MemberLink.fits_iff_readsAs.2 ⟨hname, hlist⟩)
  · rintro ⟨hclass, hmethod, list, hwritten, hreads, huniq⟩
    have hc := h.classes _ (List.mem_of_getElem? hclass)
    have hd := hc.methods _ (List.mem_of_getElem? hmethod)
    have hl := hwritten.ofText?_eq hc.name.isLinkWord hd.name.isLinkWord
    rw [resolve_eq_pick h hclass hl rfl]
    refine pick_eq_ok_iff.2 ⟨rfl, rfl, hmethod, MemberLink.fits_iff_readsAs.2 ⟨rfl, hreads⟩, ?_⟩
    intro j e hj he
    obtain ⟨hname, hlist⟩ := MemberLink.fits_iff_readsAs.1 he
    exact huniq j e hj hname hlist

/-- A text leads to a method of an accepted manifest exactly if it is written with the class and
the method and no list, or a list that is read as the erased types of the method, and if this is
said of no other method of the class. All names and types in it are words, and its list has the
documented form exactly if it is empty or each of its pieces is one word. -/
theorem resolve_eq_ok_iff_written (source : Text) (m : Manifest) (h : m.problem? source = none) :
    (∀ (link : Text) (t : MemberTarget), m.resolve link = .ok t ↔
      m.classes[t.classIndex]? = some t.classDecl ∧
      t.classDecl.methods[t.methodIndex]? = some t.method ∧
      ∃ list, MemberLink.Written t.classDecl.name t.method.name list link ∧
        MemberLink.ReadsAs list t.method ∧
        ∀ (j : Nat) (e : MethodDecl), t.classDecl.methods[j]? = some e →
          e.name = t.method.name → MemberLink.ReadsAs list e → j = t.methodIndex) ∧
    ∀ c ∈ m.classes, ∀ d ∈ c.methods,
      IsLinkWord c.name ∧ IsLinkWord d.name ∧ (∀ a ∈ d.erasedArgs, IsLinkWord a) ∧
      ∀ s : Text, MemberLink.ReadsAs (some s) d →
        (MemberLink.Lists d.erasedArgs s ↔
          s = [] ∨ ∀ piece ∈ Text.split ',' s, piece.IsOneWord) := by
  have ha := problem?_eq_none_iff.1 h
  refine ⟨fun link t => resolve_eq_ok_iff ha, fun c hc d hd => ?_⟩
  have hclass := ha.classes c hc
  obtain ⟨hname, hmethod, hargs⟩ := ClassDecl.plain_canonicalLink hclass.name (hclass.methods d hd)
  have htypes := hargs d.erasedArgs rfl
  exact ⟨hname, hmethod, htypes, fun s hs => MemberLink.lists_iff htypes (hs s rfl)⟩

def longPairMethod : MethodDecl where
  name := "run".toList
  args := [{ type := .name "int".toList }, { type := .name "long []".toList }]

def longPairClass : ClassDecl where
  name := "q.B".toList
  methods := [longPairMethod, { name := "run".toList }]

def longPairOnly : Manifest where
  classes := [longPairClass]

theorem eq_zero_of_reads_longPair {s : Text} {j : Nat} {e : MethodDecl}
    (hs : MemberLink.splitArgs s = longPairMethod.erasedArgs)
    (hj : longPairClass.methods[j]? = some e) (he : MemberLink.ReadsAs (some s) e) : j = 0 := by
  have hargs := MemberLink.readAs_split_iff.1 (he s rfl)
  match j with
  | 0 => rfl
  | 1 =>
    obtain rfl : { name := "run".toList } = e := Option.some.inj hj
    rw [hs] at hargs
    exact absurd hargs (by decide +kernel)
  | j + 2 => simp [longPairClass] at hj

theorem longPairOnly_links_written :
    longPairOnly.problem? [] = none ∧
      longPairOnly.resolve "q.B # run (int , long [],)".toList =
        .ok ⟨0, longPairClass, 0, longPairMethod⟩ ∧
      ¬ MemberLink.Lists longPairMethod.erasedArgs "int , long [],".toList ∧
      MemberLink.Lists longPairMethod.erasedArgs "int , long[]".toList := by
  have h : longPairOnly.problem? [] = none := by decide +kernel
  have hargs : MemberLink.splitArgs "int , long [],".toList = longPairMethod.erasedArgs := by
    decide +kernel
  have hloose : MemberLink.ReadsAs (some "int , long [],".toList) longPairMethod := by
    rintro s ⟨⟩
    exact MemberLink.readAs_split_iff.2 hargs
  have hneat : MemberLink.ReadsAs (some "int , long[]".toList) longPairMethod := by
    rintro s ⟨⟩
    exact MemberLink.readAs_split_iff.2 (by decide +kernel)
  have hclass : Text.trim "q.B ".toList = longPairClass.name := by decide +kernel
  have hmethod : Text.trim " run ".toList = longPairMethod.name := by decide +kernel
  have hwritten : MemberLink.Written longPairClass.name longPairMethod.name
      (some "int , long [],".toList) "q.B # run (int , long [],)".toList :=
    ⟨"q.B ".toList, " run ".toList, by decide +kernel, hclass ▸ Text.padded_trim _,
      hmethod ▸ Text.padded_trim _⟩
  obtain ⟨hresolve, hlists⟩ := resolve_eq_ok_iff_written [] longPairOnly h
  obtain ⟨-, -, -, hforms⟩ := hlists longPairClass (List.mem_singleton.2 rfl) longPairMethod
    (List.mem_cons_self ..)
  refine ⟨h, (hresolve _ _).2 ⟨rfl, rfl, _, hwritten, hloose, ?_⟩, ?_, ?_⟩
  · exact fun j e hj _ he => eq_zero_of_reads_longPair hargs hj he
  · rw [hforms _ hloose]
    decide +kernel
  · rw [hforms _ hneat]
    decide +kernel

/-- A list with blanks inside a type or a blank piece is read, and is not a documented one. -/
theorem looseLists_resolved :
    longPairOnly.problem? [] = none ∧
      ∀ list ∈ ["i nt, long[]".toList, "int,,long[]".toList],
        longPairOnly.resolve ("q.B#run(".toList ++ list ++ [')']) =
          .ok ⟨0, longPairClass, 0, longPairMethod⟩ ∧
        ¬ ∃ s, MemberLink.Written longPairClass.name longPairMethod.name s
            ("q.B#run(".toList ++ list ++ [')']) ∧
          ∀ types ∈ s, MemberLink.Lists longPairMethod.erasedArgs types := by
  have h : longPairOnly.problem? [] = none := by decide +kernel
  have ha := problem?_eq_none_iff.1 h
  have hclass := ha.classes longPairClass (List.mem_singleton.2 rfl)
  have hmethod := hclass.methods longPairMethod (List.mem_cons_self ..)
  obtain ⟨hc, hd, htypes⟩ := ClassDecl.plain_canonicalLink hclass.name hmethod
  refine ⟨h, fun list hlist => ?_⟩
  have hargs : MemberLink.splitArgs list = longPairMethod.erasedArgs := by
    revert list
    decide +kernel
  have hloose : ¬ (list = [] ∨ ∀ piece ∈ Text.split ',' list, piece.IsOneWord) := by
    revert list
    decide +kernel
  have hwritten : MemberLink.Written longPairClass.name longPairMethod.name (some list)
      ("q.B#run(".toList ++ list ++ [')']) :=
    ⟨"q.B".toList, "run".toList, by simp [MemberLink.listText], Text.padded_self _,
      Text.padded_self _⟩
  have hreads := MemberLink.readAs_split_iff.2 hargs
  constructor
  · refine (resolve_eq_ok_iff ha).2 ⟨rfl, rfl, some list, hwritten, ?_, ?_⟩
    · rintro s ⟨⟩
      exact hreads
    · exact fun j e hj _ he => eq_zero_of_reads_longPair hargs hj he
  · rintro ⟨s, hs, hlists⟩
    obtain rfl := hwritten.list_eq hs hc hd
    exact hloose ((MemberLink.lists_iff (htypes _ rfl) hreads).1 (hlists list rfl))

end Manifest

end JavaSource
