import JavaSource.Manifest.Validation
import Mathlib.Data.Option.Basic

/-!
# Labels

Every place that a problem of a manifest points at shows the offending text: the name, type or link
that the problem reports, or the qualified name with the reserved word in it. Places come from
searches for several spellings; no two spellings end in the same place, so the places of a name are
in strict order.
-/

namespace JavaSource

namespace Text

/-- A text is cut at a place in one way only. -/
theorem append_inj_of_width {a b c d : Text} (h : a ++ b = c ++ d) (hw : width a = width c) :
    a = c ∧ b = d := by
  induction a generalizing c with
  | nil =>
    cases c with
    | nil => exact ⟨rfl, h⟩
    | cons y c =>
      have hy := y.utf8Size_pos
      rw [width_nil, width_cons] at hw
      omega
  | cons x a ih =>
    cases c with
    | nil =>
      have hx := x.utf8Size_pos
      rw [width_nil, width_cons] at hw
      omega
    | cons y c =>
      obtain ⟨rfl, hrest⟩ := List.cons.inj h
      obtain ⟨rfl, hb⟩ := ih hrest (by rw [width_cons, width_cons] at hw; omega)
      exact ⟨rfl, hb⟩

theorem pairwise_occurrencesFrom (pattern : Text) (offset skip : Nat) (s : Text) :
    (occurrencesFrom pattern offset skip s).Pairwise (· < ·) := by
  induction s generalizing offset skip with
  | nil => exact List.Pairwise.nil
  | cons c s ih =>
    cases skip with
    | succ skip => exact ih _ _
    | zero =>
      rw [occurrencesFrom]
      split
      · refine List.pairwise_cons.2 ⟨fun i hi => ?_, ih _ _⟩
        obtain ⟨before, after, -, rfl⟩ := exists_of_mem_occurrencesFrom hi
        have hc := c.utf8Size_pos
        omega
      · exact ih _ _

end Text

namespace Span

variable {source lead value : Text} {close : Char} {span : Span}

/-- A span covers a text that stands there in the source. -/
def Shows (source : Text) (span : Span) (t : Text) : Prop :=
  ∃ before after, source = before ++ t ++ after ∧ span = ⟨Text.width before, Text.width t⟩

/-! ### Searches -/

theorem exists_of_mem_between (h : span ∈ between source lead value close) :
    ∃ before after, source = before ++ lead ++ (value ++ after) ∧
      span = ⟨Text.width (before ++ lead), Text.width value⟩ := by
  obtain ⟨i, hi, rfl⟩ := List.mem_map.1 h
  obtain ⟨before, after, hs, rfl⟩ := Text.exists_of_mem_occurrences hi
  refine ⟨before, [close] ++ after, ?_, ?_⟩
  · rw [hs]
    simp only [List.append_assoc]
  · rw [Text.width_append]

theorem shows_of_mem_between (h : span ∈ between source lead value close) :
    span.Shows source value := by
  obtain ⟨before, after, hs, hspan⟩ := exists_of_mem_between h
  exact ⟨before ++ lead, after, by rw [hs, ← List.append_assoc], hspan⟩

theorem pairwise_between (source lead value : Text) (close : Char) :
    (between source lead value close).Pairwise fun a b => a.offset < b.offset := by
  refine List.pairwise_map.2 ((Text.pairwise_occurrencesFrom _ 0 0 source).imp ?_)
  intro i j hij
  show i + Text.width lead < j + Text.width lead
  omega

/-- Spellings of which neither ends in the other lead to different places. -/
theorem offset_ne_of_mem_between {lead' value' : Text} {close' : Char} {span' : Span}
    (hl : ¬lead <:+ lead') (hl' : ¬lead' <:+ lead) (h : span ∈ between source lead value close)
    (h' : span' ∈ between source lead' value' close') : span.offset ≠ span'.offset := by
  obtain ⟨before, after, hs, rfl⟩ := exists_of_mem_between h
  obtain ⟨before', after', hs', rfl⟩ := exists_of_mem_between h'
  intro he
  obtain ⟨hfront, -⟩ := Text.append_inj_of_width (hs.symm.trans hs') he
  have hsuffix : lead <:+ before' ++ lead' := hfront ▸ List.suffix_append before lead
  rcases List.suffix_or_suffix_of_suffix hsuffix (List.suffix_append before' lead') with hi | hi
  · exact hl hi
  · exact hl' hi

theorem pairwise_nameSpellings :
    nameSpellings.Pairwise fun p q => ¬p.1 <:+ q.1 ∧ ¬q.1 <:+ p.1 := by
  decide

theorem shows_of_mem_ofName {name : Text} (h : span ∈ ofName source name) :
    span.Shows source name := by
  obtain ⟨p, -, hp⟩ := List.mem_flatMap.1 (List.mem_mergeSort.1 h)
  exact shows_of_mem_between hp

theorem pairwise_ofName (source name : Text) :
    (ofName source name).Pairwise fun a b => a.offset < b.offset := by
  have hdistinct : (nameSpellings.flatMap fun p => between source p.1 name p.2).Pairwise
      fun a b => a.offset ≠ b.offset := by
    refine List.pairwise_flatMap.2 ⟨fun p _ => ?_, pairwise_nameSpellings.imp ?_⟩
    · exact (pairwise_between source p.1 name p.2).imp Nat.ne_of_lt
    · rintro p q ⟨hp, hq⟩ a ha b hb
      exact offset_ne_of_mem_between hp hq ha hb
  -- sorting keeps the places distinct, so that their order is strict
  have hne : (ofName source name).Pairwise fun a b => a.offset ≠ b.offset :=
    (List.mergeSort_perm _ _).symm.pairwise hdistinct fun h => h.symm
  have hle : (ofName source name).Pairwise fun a b => decide (a.offset ≤ b.offset) = true := by
    apply List.pairwise_mergeSort
    · intro a b c hab hbc
      simp only [decide_eq_true_eq] at hab hbc ⊢
      omega
    · intro a b
      simp only [Bool.or_eq_true, decide_eq_true_eq]
      omega
  refine (hle.and hne).imp fun {a b} h => ?_
  exact Nat.lt_of_le_of_ne (of_decide_eq_true h.1) h.2

theorem shows_of_ofValue? (h : ofValue? source value = some span) : span.Shows source value := by
  rcases Option.or_eq_some_iff.1 h with h | ⟨-, h⟩
  · exact shows_of_mem_between (List.mem_of_head? h)
  · exact shows_of_mem_between (List.mem_of_head? h)

end Span

/-! ### Diagnostics -/

/-- The names of a class and the annotations in it. -/
def ClassDecl.qualifiedNames (c : ClassDecl) : List Text :=
  c.name :: c.annotations ++ c.constructors.flatMap ConstructorDecl.annotations ++
    c.methods.flatMap MethodDecl.annotations

theorem ClassDecl.mem_qualifiedNames_iff {c : ClassDecl} {t : Text} :
    t ∈ c.qualifiedNames ↔ t = c.name ∨ t ∈ c.annotations ∨
      (∃ k ∈ c.constructors, t ∈ k.annotations) ∨ ∃ k ∈ c.methods, t ∈ k.annotations := by
  simp only [qualifiedNames, List.mem_append, List.mem_cons, List.mem_flatMap, or_assoc]

/-- The names that a manifest checks segment by segment. -/
def Manifest.qualifiedNames (m : Manifest) : List Text :=
  m.classes.flatMap ClassDecl.qualifiedNames

namespace Diagnostic

/-- The texts that a diagnostic finds fault with. For a reserved word this is also one of the
qualified names that has it as a segment. -/
def Offending (names : List Text) : Diagnostic → Text → Prop
  | reservedKeyword _ name _, t => t = name ∨ t ∈ names ∧ name ∈ Text.split '.' t
  | invalidIdentifier _ name _ _, t => t = name
  | invalidType _ raw _ _, t => t = raw
  | duplicateClass _ _ name, t => t = name
  | duplicateArgument _ name _, t => t = name
  | unresolvedLink _ link _, t => t = link
  | unreadable _, _ | badDocument _, _ | brokenRule _, _ => False

structure Labelled (source : Text) (names : List Text) (d : Diagnostic) : Prop where
  shown : ∀ l ∈ d.labels, ∃ t, d.Offending names t ∧ l.2.Shows source t
  ordered : ∀ first? second name, d = .duplicateClass first? (some second) name →
    ∃ first, first? = some first ∧ first.offset < second.offset

variable {source : Text} {names : List Text}

theorem shows_label {text : String} {span : Option Span} {t : Text}
    (h : ∀ s, span = some s → s.Shows source t) : ∀ l ∈ label text span, l.2.Shows source t := by
  intro l hl
  obtain ⟨s, hs, rfl⟩ := List.mem_map.1 hl
  exact h s (Option.mem_toList.1 hs)

/-- A diagnostic with one place, which shows one of the texts it finds fault with. -/
theorem labelled_of_label {d : Diagnostic} {text : String} {span : Option Span} {t : Text}
    (hlabels : d.labels = label text span) (ht : d.Offending names t)
    (h : ∀ s, span = some s → s.Shows source t)
    (hd : ∀ first second name, d ≠ .duplicateClass first second name) :
    d.Labelled source names where
  shown := by
    rw [hlabels]
    exact fun l hl => ⟨t, ht, shows_label h l hl⟩
  ordered := fun first second name he => absurd he (hd first (some second) name)

theorem labelled_brokenRule (problem : RuleProblem) :
    (brokenRule problem).Labelled source names where
  shown := fun _ hl => absurd hl List.not_mem_nil
  ordered := nofun

theorem labelled_duplicateClass (source : Text) (names : List Text) (name : Text) :
    (duplicateClass (Span.ofName source name)[0]? (Span.ofName source name)[1]? name).Labelled
      source names where
  shown := by
    have hshows (i : Nat) (s : Span) (hs : (Span.ofName source name)[i]? = some s) :
        s.Shows source name :=
      Span.shows_of_mem_ofName (List.mem_of_getElem? hs)
    intro l hl
    refine ⟨name, rfl, ?_⟩
    rcases List.mem_append.1 hl with hl | hl
    · exact shows_label (hshows 0) l hl
    · exact shows_label (hshows 1) l hl
  ordered := by
    intro first? second n he
    injection he with hfirst hsecond
    have hpairwise := Span.pairwise_ofName source name
    -- the second place is known only behind the first one
    match hspans : Span.ofName source name with
    | [] => simp [hspans] at hsecond
    | [a] => simp [hspans] at hsecond
    | a :: b :: rest =>
      rw [hspans] at hfirst hsecond hpairwise
      refine ⟨a, hfirst.symm, ?_⟩
      obtain rfl : b = second := by simpa using hsecond
      exact List.rel_of_pairwise_cons hpairwise (List.mem_cons_self ..)

end Diagnostic

/-! ### Checks -/

/-- What a check reports is labelled. -/
def CheckLabelled (source : Text) (names : List Text) (o : Option Diagnostic) : Prop :=
  ∀ d, o = some d → d.Labelled source names

namespace CheckLabelled

variable {source : Text} {names : List Text}

theorem ofSome {d : Diagnostic} (h : d.Labelled source names) :
    CheckLabelled source names (some d) := by
  rintro _ ⟨⟩
  exact h

theorem ofNone : CheckLabelled source names none := nofun

theorem ofRule (problem : RuleProblem) : CheckLabelled source names (some (.brokenRule problem)) :=
  ofSome (Diagnostic.labelled_brokenRule problem)

theorem orElse {a b : Option Diagnostic} (ha : CheckLabelled source names a)
    (hb : CheckLabelled source names b) : CheckLabelled source names (a <|> b) := by
  intro d h
  rcases (Option.orElse_eq_some _ _ _).1 h with h | ⟨-, h⟩
  · exact ha d h
  · exact hb d h

theorem ite {c : Prop} [Decidable c] {a b : Option Diagnostic} (ha : CheckLabelled source names a)
    (hb : CheckLabelled source names b) : CheckLabelled source names (if c then a else b) := by
  split
  · exact ha
  · exact hb

theorem findSome? {α : Type} {f : α → Option Diagnostic} {l : List α}
    (h : ∀ a ∈ l, CheckLabelled source names (f a)) :
    CheckLabelled source names (l.findSome? f) := by
  intro d hd
  obtain ⟨a, ha, hf⟩ := List.exists_of_findSome?_eq_some hd
  exact h a ha d hf

end CheckLabelled

namespace Place

variable {p : Place} {names : List Text} {name kind : Text} {span : Span}

theorem shows_of_nameSpan? (h : p.nameSpan? name = some span) : span.Shows p.source name :=
  Span.shows_of_mem_ofName (List.mem_of_head? h)

theorem nameProblem?_labelled (p : Place) (names : List Text) (name kind : Text) :
    CheckLabelled p.source names (p.nameProblem? name kind) := by
  have hshows : ∀ s, p.nameSpan? name = some s → s.Shows p.source name :=
    fun s hs => shows_of_nameSpan? hs
  unfold nameProblem?
  apply CheckLabelled.ite
  · exact .ofSome (Diagnostic.labelled_of_label rfl (Or.inl rfl) hshows nofun)
  · intro d hd
    obtain ⟨problem, -, rfl⟩ := Option.map_eq_some_iff.1 hd
    exact Diagnostic.labelled_of_label rfl rfl hshows nofun

theorem qualifiedProblem?_labelled (p : Place) (hn : name ∈ names) (kind : Text) :
    CheckLabelled p.source names (p.qualifiedProblem? name kind) := by
  have hshows : ∀ s, (p.nameSpan? name).or (Span.ofValue? p.source name) = some s →
      s.Shows p.source name := by
    intro s hs
    rcases Option.or_eq_some_iff.1 hs with hs | ⟨-, hs⟩
    · exact shows_of_nameSpan? hs
    · exact Span.shows_of_ofValue? hs
  unfold qualifiedProblem?
  dsimp only
  split
  · next word hword =>
    have hsegment := List.mem_of_find?_eq_some hword
    exact .ofSome (Diagnostic.labelled_of_label rfl (Or.inr ⟨hn, hsegment⟩) hshows nofun)
  · intro d hd
    obtain ⟨problem, -, rfl⟩ := Option.map_eq_some_iff.1 hd
    exact Diagnostic.labelled_of_label rfl rfl hshows nofun

theorem typeProblem?_labelled (p : Place) (names : List Text) (t : TypeExpr) (kind : Text) :
    CheckLabelled p.source names (p.typeProblem? t kind) := by
  intro d hd
  obtain ⟨problem, -, rfl⟩ := Option.map_eq_some_iff.1 hd
  exact Diagnostic.labelled_of_label rfl rfl (fun s hs => Span.shows_of_ofValue? hs) nofun

theorem typesProblem?_labelled (p : Place) (names : List Text) (ts : List TypeExpr) (kind : Text) :
    CheckLabelled p.source names (p.typesProblem? ts kind) := by
  apply CheckLabelled.findSome?
  exact fun t _ => p.typeProblem?_labelled names t kind

end Place

section

variable (p : Place) (names : List Text)

theorem docProblem?_labelled (doc : List DocPart) :
    CheckLabelled p.source names (docProblem? p doc) := by
  apply CheckLabelled.findSome?
  intro part _
  cases part with
  | text s => exact .ofNone
  | link t => exact p.typeProblem?_labelled names t _
  | member link => exact .ofNone

theorem bodyProblem?_labelled (body : List BodyEntry) :
    CheckLabelled p.source names (bodyProblem? p body) :=
  p.typesProblem?_labelled names _ _

variable {names}

theorem annotationProblem?_labelled {annotations : List Text} (hn : annotations ⊆ names) :
    CheckLabelled p.source names (annotationProblem? p annotations) := by
  apply CheckLabelled.findSome?
  exact fun a ha => p.qualifiedProblem?_labelled (hn ha) _

theorem argumentsProblem?_labelled (position : Nat) (seen : List Text) (args : List ArgumentDecl) :
    CheckLabelled p.source names (argumentsProblem? p position seen args) := by
  induction args generalizing position seen with
  | nil => exact .ofNone
  | cons a rest ih =>
    unfold argumentsProblem?
    apply CheckLabelled.orElse
    · cases a.name with
      | none => exact .ofNone
      | some n => exact p.nameProblem?_labelled names n _
    apply CheckLabelled.orElse
    · exact p.typeProblem?_labelled names a.type _
    apply CheckLabelled.ite
    · exact .ofSome (Diagnostic.labelled_of_label rfl rfl
        (fun s hs => Place.shows_of_nameSpan? hs) nofun)
    · exact ih _ _

theorem signatureProblem?_labelled (args : List ArgumentDecl) (throws : List TypeExpr)
    {annotations : List Text} (hn : annotations ⊆ names) :
    CheckLabelled p.source names (signatureProblem? p args throws annotations) := by
  apply CheckLabelled.orElse
  · exact argumentsProblem?_labelled p 0 [] args
  apply CheckLabelled.orElse
  · exact p.typesProblem?_labelled names throws _
  · exact annotationProblem?_labelled p hn

end

/-! ### Members and classes -/

theorem FieldDecl.problem?_labelled (p : Place) (names : List Text) (inInterface : Bool)
    (f : FieldDecl) : CheckLabelled p.source names (f.problem? p inInterface) := by
  unfold problem?
  apply CheckLabelled.orElse
  · exact p.nameProblem?_labelled names f.name _
  apply CheckLabelled.orElse
  · apply CheckLabelled.ite
    · unfold interfaceProblem?
      split
      · exact .ofRule _
      · exact .ofRule _
      · exact .ofRule _
      · exact .ofNone
    · exact .ofNone
  apply CheckLabelled.orElse
  · exact (p.push f.name).typeProblem?_labelled names f.type _
  apply CheckLabelled.orElse
  · exact (p.push f.name).typesProblem?_labelled names _ _
  · exact docProblem?_labelled (p.push f.name) names f.doc

theorem ConstructorDecl.problem?_labelled (p : Place) {names : List Text} {c : ConstructorDecl}
    (hn : c.annotations ⊆ names) : CheckLabelled p.source names (c.problem? p) := by
  unfold problem?
  apply CheckLabelled.orElse
  · exact signatureProblem?_labelled (p.push placeName) c.args c.throws hn
  apply CheckLabelled.orElse
  · exact docProblem?_labelled (p.push placeName) names c.doc
  · exact bodyProblem?_labelled (p.push placeName) names c.body

theorem MethodDecl.problem?_labelled (p : Place) {names : List Text} (inInterface : Bool)
    {m : MethodDecl} (hn : m.annotations ⊆ names) :
    CheckLabelled p.source names (m.problem? p inInterface) := by
  unfold problem?
  apply CheckLabelled.orElse
  · exact p.nameProblem?_labelled names m.name _
  apply CheckLabelled.orElse
  · exact (p.push m.name).typesProblem?_labelled names m.returns.toList _
  apply CheckLabelled.orElse
  · unfold abstractProblem?
    exact .ite .ofNone (.ite (.ofRule _) (.ite (.ofRule _) .ofNone))
  apply CheckLabelled.orElse
  · unfold interfaceProblem?
    exact .ite (.ite (.ofRule _) (.ite (.ofRule _) (.ite (.ofRule _) .ofNone))) .ofNone
  apply CheckLabelled.orElse
  · exact signatureProblem?_labelled (p.push m.name) m.args m.throws hn
  apply CheckLabelled.orElse
  · exact docProblem?_labelled (p.push m.name) names m.doc
  · exact bodyProblem?_labelled (p.push m.name) names m.body

namespace ClassDecl

theorem fieldsProblem?_labelled (p : Place) (names : List Text) (c : ClassDecl) (seen : List Text)
    (fields : List FieldDecl) : CheckLabelled p.source names (c.fieldsProblem? p seen fields) := by
  induction fields generalizing seen with
  | nil => exact .ofNone
  | cons f rest ih =>
    unfold fieldsProblem?
    apply CheckLabelled.orElse
    · exact f.problem?_labelled p names c.isInterface
    · exact .ite (.ofRule _) (ih _)

theorem superclassProblem?_labelled (p : Place) (names : List Text) (c : ClassDecl) :
    CheckLabelled p.source names (c.superclassProblem? p) := by
  unfold superclassProblem?
  cases c.superclass with
  | none => exact .ofNone
  | some t => exact .ite (.ofRule _) (p.typeProblem?_labelled names t _)

theorem problem?_labelled (p : Place) {names : List Text} {c : ClassDecl}
    (hn : c.qualifiedNames ⊆ names) : CheckLabelled p.source names (c.problem? p) := by
  have hmember := fun t ht => hn (mem_qualifiedNames_iff (t := t) |>.2 ht)
  have hname : c.name ∈ names := hmember _ (Or.inl rfl)
  have hannotations : c.annotations ⊆ names := fun t ht => hmember t (Or.inr (Or.inl ht))
  have hconstructors : ∀ k ∈ c.constructors, k.annotations ⊆ names :=
    fun k hk t ht => hmember t (Or.inr (Or.inr (Or.inl ⟨k, hk, ht⟩)))
  have hmethods : ∀ k ∈ c.methods, k.annotations ⊆ names :=
    fun k hk t ht => hmember t (Or.inr (Or.inr (Or.inr ⟨k, hk, ht⟩)))
  unfold problem?
  apply CheckLabelled.orElse
  · exact p.qualifiedProblem?_labelled hname _
  apply CheckLabelled.orElse
  · exact .ite (.ofRule _) .ofNone
  apply CheckLabelled.orElse
  · exact c.superclassProblem?_labelled (p.push c.simpleName) names
  apply CheckLabelled.orElse
  · exact (p.push c.simpleName).typesProblem?_labelled names c.interfaces _
  apply CheckLabelled.orElse
  · exact annotationProblem?_labelled (p.push c.simpleName) hannotations
  apply CheckLabelled.orElse
  · exact docProblem?_labelled (p.push c.simpleName) names c.doc
  apply CheckLabelled.orElse
  · exact c.fieldsProblem?_labelled (p.push c.simpleName) names [] c.fields
  apply CheckLabelled.orElse
  · apply CheckLabelled.ite
    · exact .ofRule _
    · exact .findSome? fun k hk => k.problem?_labelled (p.push c.simpleName) (hconstructors k hk)
  · apply CheckLabelled.findSome?
    exact fun k hk => k.problem?_labelled (p.push c.simpleName) c.isInterface (hmethods k hk)

end ClassDecl

/-! ### Manifests -/

namespace Manifest

variable {source : Text} {names : List Text}

theorem classesProblem?_labelled (seen : List Text) {classes : List ClassDecl}
    (hn : ∀ c ∈ classes, c.qualifiedNames ⊆ names) :
    CheckLabelled source names (classesProblem? source seen classes) := by
  induction classes generalizing seen with
  | nil => exact .ofNone
  | cons c rest ih =>
    have hc := hn c (List.mem_cons_self ..)
    unfold classesProblem?
    apply CheckLabelled.orElse
    · exact c.problem?_labelled { source } hc
    apply CheckLabelled.ite
    · exact .ofSome (Diagnostic.labelled_duplicateClass source names c.name)
    · exact ih _ fun d hd => hn d (List.mem_cons_of_mem _ hd)

theorem linksProblem?_labelled (source : Text) (names : List Text) (m : Manifest) :
    CheckLabelled source names (m.linksProblem? source) := by
  apply CheckLabelled.findSome?
  intro part _
  cases part with
  | text s => exact .ofNone
  | link t => exact .ofNone
  | member link =>
    dsimp only
    cases m.resolve link with
    | ok target => exact .ofNone
    | error problem =>
      exact .ofSome (Diagnostic.labelled_of_label rfl rfl
        (fun s hs => Span.shows_of_ofValue? hs) nofun)

/-- Where the problem of a manifest points into its text, it points at the text that it finds fault
with. Of a class declared twice the first place known stands before the second. -/
theorem labels_show_offender (source : Text) (m : Manifest) (d : Diagnostic)
    (h : m.problem? source = some d) :
    (∀ l ∈ d.labels, ∃ t, d.Offending m.qualifiedNames t ∧ l.2.Shows source t) ∧
      ∀ first? second name, d = .duplicateClass first? (some second) name →
        ∃ first, first? = some first ∧ first.offset < second.offset := by
  have hn : ∀ c ∈ m.classes, c.qualifiedNames ⊆ m.qualifiedNames :=
    fun c hc t ht => List.mem_flatMap.2 ⟨c, hc, ht⟩
  have hchecks : CheckLabelled source m.qualifiedNames (m.problem? source) := by
    unfold problem?
    apply CheckLabelled.orElse
    · exact classesProblem?_labelled [] hn
    · exact linksProblem?_labelled source m.qualifiedNames m
  exact ⟨(hchecks d h).shown, (hchecks d h).ordered⟩

def repeatedText : Text :=
  "# \u00e9t\u00e9\n[[classes]]\nname = 'a.A'\n\n[[classes]]\nname=\"a.A\"\n".toList

/-- What that text declares: a class twice, in two spellings. -/
def repeatedClass : Manifest where
  classes := [{ name := ['a', '.', 'A'] }, { name := ['a', '.', 'A'] }]

theorem spans_repeatedText : Span.ofName repeatedText ['a', '.', 'A'] = [⟨28, 3⟩, ⟨52, 3⟩] := by
  unfold Span.ofName
  rw [List.mergeSort_of_pairwise (by decide +kernel)]
  decide +kernel

theorem repeatedClass_labels :
    ∃ d, repeatedClass.problem? repeatedText = some d ∧
      d.labels = [("first declared here".toList, ⟨28, 3⟩),
        ("declared again here".toList, ⟨52, 3⟩)] ∧
      ∀ l ∈ d.labels, ∃ t, d.Offending repeatedClass.qualifiedNames t ∧
        l.2.Shows repeatedText t := by
  have haccepted : ClassDecl.problem? { source := repeatedText } { name := ['a', '.', 'A'] } =
      none := by
    decide +kernel
  have h : repeatedClass.problem? repeatedText =
      some (.duplicateClass (some ⟨28, 3⟩) (some ⟨52, 3⟩) ['a', '.', 'A']) := by
    simp [problem?, repeatedClass, classesProblem?, haccepted, spans_repeatedText]
  exact ⟨_, h, rfl, (labels_show_offender repeatedText repeatedClass _ h).1⟩

end Manifest

end JavaSource
