import JavaSource.Manifest.MemberLink
import JavaSource.Proofs.QualifiedName
import Mathlib.Data.List.TakeWhile

/-!
# Member links as texts

A link is read exactly if it is written as a class, a number sign and a method, with blanks around
both names, and perhaps a list in parentheses behind them; which types a list stands for is left to
the reading of lists. A member link also has one plain text, in which no blank stands but behind
the commas. The plain text of a link whose names and types hold neither separators nor blanks is
read as just this link.
-/

namespace JavaSource

/-! ### Texts without blanks -/

namespace Text

theorem splitFirst?_append {sep : Char} {a : Text} (h : sep ∉ a) (b : Text) :
    splitFirst? sep (a ++ sep :: b) = some (a, b) := by
  induction a with
  | nil => simp [splitFirst?]
  | cons c a ih =>
    have hc : c ≠ sep := fun hc => h (hc ▸ List.mem_cons_self ..)
    have ha : sep ∉ a := fun ha => h (List.mem_cons_of_mem _ ha)
    simp [splitFirst?, hc, ih ha]

theorem splitFirst?_eq_none {sep : Char} {s : Text} (h : sep ∉ s) : splitFirst? sep s = none := by
  induction s with
  | nil => rfl
  | cons c s ih =>
    have hc : c ≠ sep := fun hc => h (hc ▸ List.mem_cons_self ..)
    have hs : sep ∉ s := fun hs => h (List.mem_cons_of_mem _ hs)
    simp [splitFirst?, hc, ih hs]

theorem dropWhile_isBlank_eq_self {s : Text} (h : ∀ c ∈ s, isBlank c = false) :
    s.dropWhile isBlank = s := by
  cases s with
  | nil => rfl
  | cons c s => rw [List.dropWhile_cons_of_neg (by simp [h c (List.mem_cons_self ..)])]

/-- A word with blanks around it. -/
def Padded (word s : Text) : Prop :=
  ∃ front back, s = front ++ word ++ back ∧ ∀ c ∈ front ++ back, isBlank c = true

theorem padded_self (s : Text) : Padded s s := ⟨[], [], by simp, by simp⟩

theorem padded_trim (s : Text) : Padded (trim s) s := by
  have hfront : s.takeWhile isBlank ++ s.dropWhile isBlank = s := List.takeWhile_append_dropWhile
  have hback : trimEnd (s.dropWhile isBlank) ++
      ((s.dropWhile isBlank).reverse.takeWhile isBlank).reverse = s.dropWhile isBlank := by
    rw [trimEnd, ← List.reverse_append, List.takeWhile_append_dropWhile, List.reverse_reverse]
  refine ⟨s.takeWhile isBlank, ((s.dropWhile isBlank).reverse.takeWhile isBlank).reverse, ?_, ?_⟩
  · rw [trim, List.append_assoc, hback, hfront]
  · intro c hc
    rcases List.mem_append.1 hc with hc | hc
    · exact List.mem_takeWhile_imp hc
    · exact List.mem_takeWhile_imp (List.mem_reverse.1 hc)

namespace Padded

variable {word s : Text}

theorem not_mem (h : Padded word s) {sep : Char} (hsep : isBlank sep = false) (hw : sep ∉ word) :
    sep ∉ s := by
  obtain ⟨front, back, rfl, hblanks⟩ := h
  intro hm
  rw [List.append_assoc, List.mem_append, List.mem_append] at hm
  have hpad : sep ∉ front ++ back := fun hp => by simp [hblanks sep hp] at hsep
  rw [List.mem_append, not_or] at hpad
  tauto

theorem trim_eq (h : Padded word s) (hne : word ≠ []) (hw : ∀ c ∈ word, isBlank c = false) :
    trim s = word := by
  obtain ⟨front, back, rfl, hblanks⟩ := h
  have hfront : ∀ c ∈ front, isBlank c = true := fun c hc => hblanks c (List.mem_append_left _ hc)
  have hback : ∀ c ∈ back.reverse, isBlank c = true := fun c hc =>
    hblanks c (List.mem_append_right _ (List.mem_reverse.1 hc))
  have hreverse : ∀ c ∈ word.reverse, isBlank c = false := fun c hc => hw c (List.mem_reverse.1 hc)
  have hstart : (word ++ back).dropWhile isBlank = word ++ back := by
    obtain ⟨c, rest, rfl⟩ := List.exists_cons_of_ne_nil hne
    rw [List.cons_append, List.dropWhile_cons_of_neg (by simp [hw c (List.mem_cons_self ..)])]
  rw [trim, trimEnd, List.append_assoc, List.dropWhile_append_of_pos hfront, hstart,
    List.reverse_append, List.dropWhile_append_of_pos hback, dropWhile_isBlank_eq_self hreverse,
    List.reverse_reverse]

theorem dropBlanks_eq (h : Padded word s) (hw : ∀ c ∈ word, isBlank c = false) :
    dropBlanks s = word := by
  obtain ⟨front, back, rfl, hblanks⟩ := h
  have hdrop : ∀ t : Text, (∀ c ∈ t, isBlank c = true) → t.filter (fun c => !isBlank c) = [] :=
    fun t ht => List.filter_eq_nil_iff.2 fun c hc => by simp [ht c hc]
  have hword : word.filter (fun c => !isBlank c) = word :=
    List.filter_eq_self.2 fun c hc => by simp [hw c hc]
  rw [dropBlanks, List.filter_append, List.filter_append, hword,
    hdrop front fun c hc => hblanks c (List.mem_append_left _ hc),
    hdrop back fun c hc => hblanks c (List.mem_append_right _ hc), List.nil_append,
    List.append_nil]

end Padded

end Text

/-- No part of an identifier is a blank. -/
theorem isBlank_of_isIdentifierPart {c : Char} (h : isIdentifierPart c = true) :
    Text.isBlank c = false := by
  have hblanks : ∀ r ∈ Text.blankRanges, ∀ n ∈ List.range' r.1 (r.2 + 1 - r.1),
      isIdentifierPart (Char.ofNat n) = false := by decide +kernel
  refine Bool.eq_false_iff.2 fun hblank => ?_
  obtain ⟨r, hr, hfirst, hlast⟩ := Text.inRanges_iff.1 hblank
  have hrange : c.toNat ∈ List.range' r.1 (r.2 + 1 - r.1) := by
    rw [List.mem_range'_1]
    omega
  have hpart := hblanks r hr c.toNat hrange
  rw [Char.ofNat_toNat, h] at hpart
  exact Bool.noConfusion hpart

/-! ### Words of a link -/

/-- A character that reading a link leaves where it is. -/
def IsLinkChar (c : Char) : Prop := Text.isBlank c = false ∧ c ≠ '#' ∧ c ≠ '(' ∧ c ≠ ','

def IsLinkWord (s : Text) : Prop := s ≠ [] ∧ ∀ c ∈ s, IsLinkChar c

theorem isLinkChar_of_isIdentifierPart {c : Char} (h : isIdentifierPart c = true) :
    IsLinkChar c := by
  have hne : ∀ d, isIdentifierPart d = false → c ≠ d := by
    rintro d hd rfl
    rw [h] at hd
    exact Bool.noConfusion hd
  exact ⟨isBlank_of_isIdentifierPart h, hne _ (by decide), hne _ (by decide), hne _ (by decide)⟩

theorem IsIdentifier.isLinkWord {s : Text} (h : IsIdentifier s) : IsLinkWord s :=
  ⟨h.ne_nil, fun _ hc => isLinkChar_of_isIdentifierPart (h.isIdentifierPart_of_mem hc)⟩

theorem IsQualifiedName.isLinkWord {s : Text} (h : IsQualifiedName s) : IsLinkWord s := by
  have hdot : IsLinkChar '.' := by unfold IsLinkChar; decide
  refine ⟨?_, fun c hc => ?_⟩
  · rintro rfl
    have hempty : [] ∈ Text.split '.' [] := List.mem_singleton.2 rfl
    exact (h [] hempty).ne_nil rfl
  · rcases h.dot_or_isIdentifierPart hc with rfl | hc
    · exact hdot
    · exact isLinkChar_of_isIdentifierPart hc

namespace IsLinkWord

variable {word s : Text}

theorem not_blank (h : IsLinkWord word) : ∀ c ∈ word, Text.isBlank c = false :=
  fun c hc => (h.2 c hc).1

theorem separator_not_mem (h : IsLinkWord word) (hs : Text.Padded word s) :
    '#' ∉ s ∧ '(' ∉ s ∧ ',' ∉ s :=
  ⟨hs.not_mem (by decide) fun hm => (h.2 '#' hm).2.1 rfl,
    hs.not_mem (by decide) fun hm => (h.2 '(' hm).2.2.1 rfl,
    hs.not_mem (by decide) fun hm => (h.2 ',' hm).2.2.2 rfl⟩

theorem trim_eq (h : IsLinkWord word) (hs : Text.Padded word s) : Text.trim s = word :=
  hs.trim_eq h.1 h.not_blank

end IsLinkWord

namespace MemberLink

/-! ### How a link is written -/

/-- What stands behind the names: nothing, or a list in parentheses. -/
def listText : Option Text → Text
  | none => []
  | some list => '(' :: list ++ [')']

/-- A link to a method of a class, written with or without a list. -/
def Written (className method : Text) (list : Option Text) (link : Text) : Prop :=
  ∃ front member, link = front ++ '#' :: (member ++ listText list) ∧
    Text.Padded className front ∧ Text.Padded method member

theorem splitFirst?_listText {member : Text} (h : '(' ∉ member) (list : Option Text) :
    Text.splitFirst? '(' (member ++ listText list) =
      list.map fun s => (member, s ++ [')']) := by
  cases list with
  | none => rw [listText, List.append_nil, Text.splitFirst?_eq_none h, Option.map_none]
  | some s => rw [listText, List.cons_append, Text.splitFirst?_append h, Option.map_some]

theorem splitMember_append {member : Text} (h : '(' ∉ member) (list : Option Text) :
    splitMember (member ++ listText list) = some (Text.trim member, list.map splitArgs) := by
  unfold splitMember
  rw [splitFirst?_listText h]
  cases list with
  | none => simp [listText]
  | some s =>
    have hclose : [')'].isSuffixOf? (s ++ [')']) = some s := by
      simp [List.isSuffixOf?, List.isPrefixOf?]
    simp only [Option.map_some, hclose]

theorem exists_of_splitMember {s method : Text} {args : Option (List Text)}
    (h : splitMember s = some (method, args)) :
    ∃ member list, s = member ++ listText list ∧ method = Text.trim member ∧
      args = list.map splitArgs := by
  unfold splitMember at h
  cases hcut : Text.splitFirst? '(' s with
  | none =>
    simp only [hcut, Option.some.injEq, Prod.mk.injEq] at h
    exact ⟨s, none, by simp [listText], h.1.symm, h.2.symm⟩
  | some cut =>
    simp only [hcut] at h
    obtain ⟨list, hlist, hparts⟩ := Option.map_eq_some_iff.1 h
    rw [Prod.mk.injEq] at hparts
    have hrest : cut.2 = list ++ [')'] := by
      have hreverse := List.isSuffixOf?_eq_some_iff_append_eq.1 hlist
      exact hreverse.symm
    have hs := Text.eq_of_splitFirst? (a := cut.1) (b := cut.2) hcut
    exact ⟨cut.1, some list, by rw [hs, hrest, listText, List.cons_append], hparts.1.symm,
      hparts.2.symm⟩

theorem Written.ofText?_eq {c d : Text} {list : Option Text} {link : Text}
    (h : Written c d list link) (hc : IsLinkWord c) (hd : IsLinkWord d) :
    ofText? link = some ⟨c, d, list.map splitArgs⟩ := by
  obtain ⟨front, member, rfl, hfront, hmember⟩ := h
  obtain ⟨hsharp, -, -⟩ := hc.separator_not_mem hfront
  obtain ⟨-, hparen, -⟩ := hd.separator_not_mem hmember
  unfold ofText?
  rw [Text.splitFirst?_append hsharp]
  simp only [Option.bind_eq_bind, Option.bind_some, splitMember_append hparen, hc.trim_eq hfront,
    hd.trim_eq hmember]
  simp [hc.1, hd.1]

theorem exists_written_of_ofText? {link : Text} {l : MemberLink} (h : ofText? link = some l) :
    ∃ list, Written l.className l.method list link ∧ l.args = list.map splitArgs := by
  unfold ofText? at h
  simp only [Option.bind_eq_bind, Option.bind_eq_some_iff] at h
  obtain ⟨⟨front, rest⟩, hcut, ⟨method, args⟩, hmember, hl⟩ := h
  obtain ⟨member, list, rfl, rfl, rfl⟩ := exists_of_splitMember hmember
  split at hl
  · simp at hl
  · cases hl
    exact ⟨list, ⟨front, member, Text.eq_of_splitFirst? hcut, Text.padded_trim front,
      Text.padded_trim member⟩, rfl⟩

/-- The list of a link stands where it does once its names are known. -/
theorem Written.list_eq {c d : Text} {list list' : Option Text} {link : Text}
    (h : Written c d list link) (h' : Written c d list' link) (hc : IsLinkWord c)
    (hd : IsLinkWord d) : list = list' := by
  obtain ⟨front, member, hlink, hfront, hmember⟩ := h
  obtain ⟨front', member', hlink', hfront', hmember'⟩ := h'
  have hmembers : member ++ listText list = member' ++ listText list' := by
    have hcut := Text.splitFirst?_append (hc.separator_not_mem hfront).1 (member ++ listText list)
    rw [← hlink, hlink', Text.splitFirst?_append (hc.separator_not_mem hfront').1] at hcut
    simp only [Option.some.injEq, Prod.mk.injEq] at hcut
    exact hcut.2.symm
  have hlists := splitFirst?_listText (hd.separator_not_mem hmember).2.1 list
  rw [hmembers, splitFirst?_listText (hd.separator_not_mem hmember').2.1] at hlists
  cases list with
  | none => cases list' with
    | none => rfl
    | some s' => simp at hlists
  | some s => cases list' with
    | none => simp at hlists
    | some s' =>
      simp only [Option.map_some, Option.some.injEq, Prod.mk.injEq] at hlists
      rw [List.append_cancel_right hlists.2]

/-! ### Plain links -/

def argsText : Option (List Text) → Text
  | none => []
  | some args => '(' :: Text.join [',', ' '] args ++ [')']

/-- The plain text of a link: `class#method`, and behind it `(type, type)` if it lists types. -/
def text (l : MemberLink) : Text := l.className ++ '#' :: l.method ++ argsText l.args

structure Plain (l : MemberLink) : Prop where
  className : IsLinkWord l.className
  method : IsLinkWord l.method
  args : ∀ args, l.args = some args → ∀ a ∈ args, IsLinkWord a

/-! ### Reading a plain link -/

theorem splitArgs_append (a s : Text) :
    splitArgs (a ++ ',' :: s) = splitArgs a ++ splitArgs s := by
  unfold splitArgs
  rw [Text.split_append, List.map_append, List.filter_append]

theorem splitArgs_cons_space (s : Text) : splitArgs (' ' :: s) = splitArgs s := by
  have hspace : Text.isBlank ' ' = true := by decide
  obtain ⟨w, ws, hw⟩ := List.exists_cons_of_ne_nil (Text.split_ne_nil ',' s)
  have hsplit : Text.split ',' (' ' :: s) = (' ' :: w) :: ws := by simp [Text.split, hw]
  have hdrop : Text.dropBlanks (' ' :: w) = Text.dropBlanks w := by
    simp [Text.dropBlanks, hspace]
  unfold splitArgs
  rw [hsplit, hw, List.map_cons, List.map_cons, hdrop]

theorem splitArgs_eq_singleton {a : Text} (h : IsLinkWord a) : splitArgs a = [a] := by
  obtain ⟨-, -, hcomma⟩ := h.separator_not_mem (Text.padded_self a)
  have hdrop := (Text.padded_self a).dropBlanks_eq h.not_blank
  unfold splitArgs
  rw [Text.split_eq_singleton hcomma, List.map_singleton, hdrop]
  simp [h.1]

theorem splitArgs_join {args : List Text} (h : ∀ a ∈ args, IsLinkWord a) :
    splitArgs (Text.join [',', ' '] args) = args := by
  induction args with
  | nil => rfl
  | cons a rest ih =>
    have ha := splitArgs_eq_singleton (h a (List.mem_cons_self ..))
    have hrest := ih fun b hb => h b (List.mem_cons_of_mem _ hb)
    cases rest with
    | nil => exact ha
    | cons b rest =>
      have hjoin : Text.join [',', ' '] (a :: b :: rest) =
          a ++ ',' :: ' ' :: Text.join [',', ' '] (b :: rest) := by simp [Text.join]
      rw [hjoin, splitArgs_append, splitArgs_cons_space, ha, hrest]
      rfl

theorem written_text (l : MemberLink) :
    Written l.className l.method (l.args.map (Text.join [',', ' '])) l.text := by
  refine ⟨l.className, l.method, ?_, Text.padded_self _, Text.padded_self _⟩
  cases hargs : l.args with
  | none => simp [text, hargs, argsText, listText]
  | some args => simp [text, hargs, argsText, listText]

/-- Reading the plain text of a link gives the link back. -/
theorem ofText?_text {l : MemberLink} (h : l.Plain) : ofText? l.text = some l := by
  have hargs : (l.args.map (Text.join [',', ' '])).map splitArgs = l.args := by
    cases hl : l.args with
    | none => rfl
    | some args => rw [Option.map_some, Option.map_some, splitArgs_join (h.args args hl)]
  rw [(written_text l).ofText?_eq h.className h.method, hargs]

end MemberLink

end JavaSource
