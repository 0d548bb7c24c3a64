import JavaSource.Proofs.BuiltNames
import JavaSource.Proofs.FilePaths
import JavaSource.Proofs.LinkText
import Mathlib.Data.List.Induction

/-!
# The grammar of types

A type is written as a base with pairs of brackets behind it. Blanks may stand around the whole and
in front of each pair. The base is the keyword of a primitive type, or a list of identifiers with
dots between them, behind which type arguments may be given. Validation accepts exactly these
expressions, and from each of them the base and the number of pairs can be read in one way only.
-/

namespace JavaSource

/-! ### Bases -/

theorem Primitive.ofKeyword?_eq_some_iff {s : Text} {p : Primitive} :
    ofKeyword? s = some p ↔ s = p.keyword := by
  constructor
  · intro h
    exact (keyword_of_ofKeyword? h).symm
  · rintro rfl
    exact ofKeyword?_keyword p

theorem Primitive.isSome_ofKeyword?_iff {s : Text} :
    (ofKeyword? s).isSome = true ↔ ∃ p : Primitive, s = p.keyword := by
  simp only [Option.isSome_iff_exists, ofKeyword?_eq_some_iff]

theorem Primitive.isIdentifierPart_of_mem_keyword (p : Primitive) {c : Char}
    (hc : c ∈ p.keyword) : isIdentifierPart c = true := by
  have hall : p.keyword.all isIdentifierPart = true := by cases p <;> decide
  exact List.all_eq_true.1 hall c hc

/-- A keyword is reserved, so that it is no name. -/
theorem Primitive.not_isQualifiedName_keyword (p : Primitive) : ¬IsQualifiedName p.keyword := by
  intro h
  have hdot : '.' ∉ p.keyword := by cases p <;> decide
  have hkeyword : p.keyword ∈ Text.split '.' p.keyword := by
    rw [Text.split_eq_singleton hdot]
    exact List.mem_singleton_self _
  have hfree := (h _ hkeyword).not_isReserved
  rw [isReserved_keyword] at hfree
  cases hfree

theorem IsQualifiedName.ofKeyword?_eq_none {s : Text} (h : IsQualifiedName s) :
    Primitive.ofKeyword? s = none := by
  refine Option.eq_none_iff_forall_ne_some.2 fun p hp => ?_
  rw [Primitive.ofKeyword?_eq_some_iff.1 hp] at h
  exact p.not_isQualifiedName_keyword h

namespace TypeExpr

/-- What can stand in front of the brackets: a keyword of a primitive type or a dotted name. -/
def IsBase (base : Text) : Prop :=
  (∃ p : Primitive, base = p.keyword) ∨ IsQualifiedName base

theorem IsBase.not_blank_or_bracket {base : Text} (h : IsBase base) {c : Char} (hc : c ∈ base) :
    Text.isBlank c = false ∧ c ≠ '[' ∧ c ≠ ']' := by
  have hpart : ∀ d, isIdentifierPart d = true → Text.isBlank d = false ∧ d ≠ '[' ∧ d ≠ ']' := by
    intro d hd
    refine ⟨isBlank_of_isIdentifierPart hd, ?_, ?_⟩
    · rintro rfl
      exact absurd hd (by decide)
    · rintro rfl
      exact absurd hd (by decide)
  rcases h with ⟨p, rfl⟩ | h
  · exact hpart c (p.isIdentifierPart_of_mem_keyword hc)
  · rcases h.dot_or_isIdentifierPart hc with rfl | hc
    · decide
    · exact hpart c hc

theorem baseProblem?_eq_none_iff {base : Text} {hasArgs : Bool} :
    baseProblem? base hasArgs = none ↔
      (∃ p : Primitive, base = p.keyword) ∧ hasArgs = false ∨ IsQualifiedName base := by
  constructor
  · intro h
    cases hp : Primitive.ofKeyword? base with
    | none => exact Or.inr (isQualifiedName_of_baseProblem? h hp)
    | some p =>
      refine Or.inl ⟨⟨p, Primitive.ofKeyword?_eq_some_iff.1 hp⟩, ?_⟩
      unfold baseProblem? at h
      rw [hp] at h
      cases hasArgs with
      | false => rfl
      | true =>
        split at h
        · cases h
        · cases h
  · rintro (⟨⟨p, rfl⟩, rfl⟩ | h)
    · cases p <;> decide
    · have hvoid : base ≠ "void".toList := by
        rintro rfl
        have hmem : "void".toList ∈ Text.split '.' "void".toList := by decide
        exact absurd (h _ hmem).not_isReserved (by decide)
      unfold baseProblem?
      rw [if_neg hvoid, h.ofKeyword?_eq_none, qualifiedNameProblem?_eq_none_iff.2 h]
      rfl

/-! ### Brackets behind a base -/

/-- Pairs of brackets, each behind its gap. -/
def pairs (gaps : List Text) : Text := gaps.flatMap fun gap => gap ++ ['[', ']']

/-- A text reads as a base and pairs of brackets: there are only blanks around it and in the gaps
in front of the pairs. -/
structure Reads (raw base : Text) (gaps : List Text) : Prop where
  text : Text.trim raw = base ++ pairs gaps
  blank : ∀ gap ∈ gaps, ∀ c ∈ gap, Text.isBlank c = true

theorem reads_nil_iff {raw base : Text} : Reads raw base [] ↔ Text.trim raw = base := by
  have hpairs : base ++ pairs [] = base := List.append_nil base
  constructor
  · intro h
    exact h.text.trans hpairs
  · intro h
    exact ⟨h.trans hpairs.symm, fun gap hgap => absurd hgap List.not_mem_nil⟩

theorem pairs_concat (gaps : List Text) (gap : Text) :
    pairs (gaps ++ [gap]) = pairs gaps ++ gap ++ ['[', ']'] := by
  simp [pairs]

theorem dropBrackets_blank {c : Char} (h : Text.isBlank c = true) (s : Text) :
    dropBrackets (c :: s) = dropBrackets s := by
  conv_lhs => unfold dropBrackets
  rw [if_pos h]

theorem dropBrackets_pair (s : Text) :
    dropBrackets (']' :: '[' :: s) = ((dropBrackets s).1, (dropBrackets s).2 + 1) := by
  have hbracket : ¬Text.isBlank ']' = true := by decide
  rw [dropBrackets, if_neg hbracket]

theorem dropBrackets_eq_self {c : Char} (hblank : Text.isBlank c = false) (hbracket : c ≠ ']')
    (s : Text) : dropBrackets (c :: s) = (c :: s, 0) := by
  unfold dropBrackets
  rw [hblank, if_neg Bool.false_ne_true]
  split
  · exact absurd rfl hbracket
  · rfl

theorem dropBrackets_append_blanks {blanks s : Text} (h : ∀ c ∈ blanks, Text.isBlank c = true) :
    dropBrackets (blanks ++ s) = dropBrackets s := by
  induction blanks with
  | nil => rfl
  | cons c blanks ih =>
    rw [List.cons_append, dropBrackets_blank (h c (List.mem_cons_self ..))]
    exact ih fun d hd => h d (List.mem_cons_of_mem _ hd)

theorem dropBrackets_dropWhile (s : Text) :
    dropBrackets (s.dropWhile Text.isBlank) = dropBrackets s := by
  conv_rhs => rw [← List.takeWhile_append_dropWhile (p := Text.isBlank) (l := s)]
  exact (dropBrackets_append_blanks fun c hc => List.mem_takeWhile_imp hc).symm

/-- Reading backwards takes off all pairs behind a base that has no blanks and no brackets. -/
theorem dropBrackets_reverse_pairs {base : Text} {gaps : List Text}
    (hbase : ∀ c ∈ base, Text.isBlank c = false ∧ c ≠ ']')
    (hgaps : ∀ gap ∈ gaps, ∀ c ∈ gap, Text.isBlank c = true) :
    dropBrackets (base ++ pairs gaps).reverse = (base.reverse, gaps.length) := by
  -- the last pair comes off first
  induction gaps using List.reverseRecOn with
  | nil =>
    have hreverse : ∀ c ∈ base.reverse, Text.isBlank c = false ∧ c ≠ ']' :=
      fun c hc => hbase c (List.mem_reverse.1 hc)
    rw [pairs, List.flatMap_nil, List.append_nil]
    cases hs : base.reverse with
    | nil => rfl
    | cons c s =>
      rw [hs] at hreverse
      obtain ⟨hblank, hbracket⟩ := hreverse c (List.mem_cons_self ..)
      exact dropBrackets_eq_self hblank hbracket s
  | append_singleton gaps gap ih =>
    have hgap : ∀ c ∈ gap.reverse, Text.isBlank c = true :=
      fun c hc => hgaps gap (by simp) c (List.mem_reverse.1 hc)
    have hfront := ih fun g hg => hgaps g (List.mem_append_left _ hg)
    have hreverse : (base ++ pairs (gaps ++ [gap])).reverse =
        ']' :: '[' :: (gap.reverse ++ (base ++ pairs gaps).reverse) := by
      simp [pairs_concat]
    rw [hreverse, dropBrackets_pair, dropBrackets_append_blanks hgap, hfront, List.length_append]
    rfl

/-- What reading backwards takes off are blanks, and then pairs with blanks in front of them. -/
theorem exists_pairs_of_dropBrackets (s : Text) :
    ∃ gaps, (∀ gap ∈ gaps, ∀ c ∈ gap, Text.isBlank c = true) ∧
      (s.dropWhile Text.isBlank).reverse = (dropBrackets s).1.reverse ++ pairs gaps ∧
      gaps.length = (dropBrackets s).2 := by
  fun_induction dropBrackets s with
  | case1 => exact ⟨[], by simp, rfl, rfl⟩
  | case2 c s hc ih =>
    rw [List.dropWhile_cons_of_pos hc]
    exact ih
  | case3 rest p hc ih =>
    obtain ⟨gaps, hgaps, htext, hlength⟩ := ih
    -- the gap in front of this pair is read with what stands in front of it
    refine ⟨gaps ++ [(rest.takeWhile Text.isBlank).reverse], ?_, ?_, ?_⟩
    · intro gap hgap
      rcases List.mem_append.1 hgap with hgap | hgap
      · exact hgaps gap hgap
      · obtain rfl := List.mem_singleton.1 hgap
        intro c hc
        exact List.mem_takeWhile_imp (List.mem_reverse.1 hc)
    · have hrest : rest.reverse =
          (rest.dropWhile Text.isBlank).reverse ++ (rest.takeWhile Text.isBlank).reverse := by
        rw [← List.reverse_append, List.takeWhile_append_dropWhile]
      rw [List.dropWhile_cons_of_neg hc, pairs_concat, List.reverse_cons, List.reverse_cons, hrest,
        htext]
      simp [p]
    · rw [List.length_append, hlength]
      rfl
  | case4 c s hc hrest =>
    refine ⟨[], by simp, ?_, rfl⟩
    rw [List.dropWhile_cons_of_neg hc]
    exact (List.append_nil _).symm

/-- An expression reads as the base that is split off, with as many pairs as were counted. -/
theorem reads_base (t : TypeExpr) :
    ∃ gaps, Reads t.raw t.base gaps ∧ gaps.length = t.dimensions := by
  obtain ⟨gaps, hblank, htext, hlength⟩ :=
    exists_pairs_of_dropBrackets (t.raw.dropWhile Text.isBlank).reverse
  exact ⟨gaps, ⟨htext, hblank⟩, hlength⟩

theorem splitBrackets_of_reads {raw base : Text} {gaps : List Text} (h : Reads raw base gaps)
    (hbase : IsBase base) : splitBrackets raw = (base, gaps.length) := by
  have hends : dropBrackets (raw.dropWhile Text.isBlank).reverse =
      dropBrackets (Text.trim raw).reverse := by
    rw [Text.trim, Text.trimEnd, List.reverse_reverse, dropBrackets_dropWhile]
  have hread := dropBrackets_reverse_pairs
    (fun c hc => ⟨(hbase.not_blank_or_bracket hc).1, (hbase.not_blank_or_bracket hc).2.2⟩) h.blank
  unfold splitBrackets
  rw [hends, h.text, hread]
  simp

theorem base_of_reads {t : TypeExpr} {base : Text} {gaps : List Text} (h : Reads t.raw base gaps)
    (hbase : IsBase base) : t.base = base :=
  congrArg Prod.fst (splitBrackets_of_reads h hbase)

theorem dimensions_of_reads {t : TypeExpr} {base : Text} {gaps : List Text}
    (h : Reads t.raw base gaps) (hbase : IsBase base) : t.dimensions = gaps.length :=
  congrArg Prod.snd (splitBrackets_of_reads h hbase)

/-! ### The grammar -/

/-- The expressions that stand for a type. An argument stands for a type that is not primitive. -/
inductive Grammatical : TypeExpr → Prop
  | primitive {t : TypeExpr} {p : Primitive} {gaps : List Text} :
      Reads t.raw p.keyword gaps → t.args = [] → Grammatical t
  | reference {t : TypeExpr} {segments gaps : List Text} :
      Reads t.raw (Text.join ['.'] segments) gaps → segments ≠ [] →
      (∀ w ∈ segments, IsIdentifier w) → (∀ a ∈ t.args, Grammatical a) →
      (∀ a ∈ t.args, ∀ p : Primitive, Text.trim a.raw ≠ p.keyword) → Grammatical t

@[elab_as_elim]
theorem argsInduction {motive : TypeExpr → Prop}
    (step : ∀ t : TypeExpr, (∀ a ∈ t.args, motive a) → motive t) (t : TypeExpr) : motive t := by
  induction t using TypeExpr.rec (motive_2 := fun ts => ∀ a ∈ ts, motive a) with
  | name raw => exact step _ fun a ha => absurd ha List.not_mem_nil
  | table raw args ih => exact step _ ih
  | nil a ha => exact absurd ha List.not_mem_nil
  | cons t ts iht ihts a ha =>
    rcases List.mem_cons.1 ha with rfl | ha
    · exact iht
    · exact ihts a ha

theorem isPrimitive_iff {t : TypeExpr} :
    t.isPrimitive = true ↔ ∃ p : Primitive, Text.trim t.raw = p.keyword := by
  unfold isPrimitive
  rw [Bool.and_eq_true, beq_iff_eq, Primitive.isSome_ofKeyword?_iff]
  constructor
  · rintro ⟨⟨p, hp⟩, hzero⟩
    obtain ⟨gaps, hreads, hlength⟩ := t.reads_base
    have hnil : gaps = [] := List.eq_nil_of_length_eq_zero (hlength.trans hzero)
    rw [hnil, hp] at hreads
    exact ⟨p, reads_nil_iff.1 hreads⟩
  · rintro ⟨p, hp⟩
    have hreads := reads_nil_iff.2 hp
    have hbase : IsBase p.keyword := Or.inl ⟨p, rfl⟩
    exact ⟨⟨p, base_of_reads hreads hbase⟩, dimensions_of_reads hreads hbase⟩

theorem argsProblem?_eq_none_iff {ts : List TypeExpr} :
    argsProblem? ts = none ↔ ∀ t ∈ ts, t.isPrimitive = false ∧ t.problem? = none := by
  induction ts with
  | nil => simp [argsProblem?]
  | cons t ts ih =>
    rw [argsProblem?, List.forall_mem_cons, ← ih]
    cases t.isPrimitive with
    | true => simp
    | false => cases t.problem? <;> simp

theorem problem?_eq_none_iff {t : TypeExpr} :
    t.problem? = none ↔ baseProblem? t.base (!t.args.isEmpty) = none ∧
      ∀ a ∈ t.args, a.isPrimitive = false ∧ a.problem? = none := by
  rw [← argsProblem?_eq_none_iff]
  cases t with
  | name raw =>
    have hself : (name raw).problem? = baseProblem? (splitBrackets raw).1 false := by
      rw [problem?]
    rw [hself]
    show _ ↔ baseProblem? (splitBrackets raw).1 false = none ∧ argsProblem? [] = none
    simp [argsProblem?]
  | table raw args =>
    show _ ↔ baseProblem? (splitBrackets raw).1 (!args.isEmpty) = none ∧ argsProblem? args = none
    rw [problem?]
    split
    · next hbase => simp [hbase]
    · next hbase => simp [hbase]

theorem isBase_of_problem? {t : TypeExpr} (h : t.problem? = none) : IsBase t.base := by
  rcases baseProblem?_eq_none_iff.1 (problem?_eq_none_iff.1 h).1 with ⟨hkeyword, -⟩ | hname
  · exact Or.inl hkeyword
  · exact Or.inr hname

theorem grammatical_of_problem? {t : TypeExpr} (h : t.problem? = none) : t.Grammatical := by
  induction t using argsInduction with
  | step t ih =>
    obtain ⟨hbase, hargs⟩ := problem?_eq_none_iff.1 h
    obtain ⟨gaps, hreads, -⟩ := t.reads_base
    rcases baseProblem?_eq_none_iff.1 hbase with ⟨⟨p, hp⟩, hnone⟩ | hname
    · rw [hp] at hreads
      exact .primitive hreads (by simpa using hnone)
    · obtain ⟨segments, hne, hsegments, hjoin⟩ := isQualifiedName_iff_join.1 hname
      rw [hjoin] at hreads
      refine .reference hreads hne hsegments (fun a ha => ih a ha (hargs a ha).2) ?_
      intro a ha p hp
      have hprimitive := isPrimitive_iff.2 ⟨p, hp⟩
      rw [(hargs a ha).1] at hprimitive
      cases hprimitive

theorem Grammatical.problem? {t : TypeExpr} (h : t.Grammatical) : t.problem? = none := by
  induction h with
  | @primitive t p gaps hreads hargs =>
    rw [problem?_eq_none_iff, base_of_reads hreads (Or.inl ⟨p, rfl⟩), hargs]
    refine ⟨baseProblem?_eq_none_iff.2 (Or.inl ⟨⟨p, rfl⟩, rfl⟩), fun a ha => ?_⟩
    exact absurd ha List.not_mem_nil
  | @reference t segments gaps hreads hne hsegments hargs hprimitive ih =>
    have hname := isQualifiedName_iff_join.2 ⟨segments, hne, hsegments, rfl⟩
    rw [problem?_eq_none_iff, base_of_reads hreads (Or.inr hname)]
    refine ⟨baseProblem?_eq_none_iff.2 (Or.inr hname), fun a ha => ⟨?_, ih a ha⟩⟩
    refine Bool.eq_false_iff.2 fun hp => ?_
    obtain ⟨p, hp⟩ := isPrimitive_iff.1 hp
    exact hprimitive a ha p hp

/-! ### The type of an expression -/

theorem toType_of_primitive {t : TypeExpr} {p : Primitive} {gaps : List Text}
    (h : Reads t.raw p.keyword gaps) : t.toType = JavaType.arrays gaps.length (.primitive p) := by
  have hsplit := splitBrackets_of_reads h (Or.inl ⟨p, rfl⟩)
  cases t with
  | name raw =>
    have hsplit : splitBrackets raw = (p.keyword, gaps.length) := hsplit
    simp only [toType, hsplit, JavaType.ofText, Primitive.ofKeyword?_keyword]
  | table raw args =>
    have hsplit : splitBrackets raw = (p.keyword, gaps.length) := hsplit
    simp only [toType, hsplit, Primitive.ofKeyword?_keyword]

theorem toType_of_reference {t : TypeExpr} {base : Text} {gaps : List Text}
    (h : Reads t.raw base gaps) (hname : IsQualifiedName base) :
    t.toType = JavaType.arrays gaps.length (if t.args.isEmpty then .named (.ofText base)
      else .generic (.ofText base) (t.args.map toType)) := by
  have hsplit := splitBrackets_of_reads h (Or.inr hname)
  have hp := hname.ofKeyword?_eq_none
  cases t with
  | name raw =>
    have hsplit : splitBrackets raw = (base, gaps.length) := hsplit
    simp only [toType, hsplit, JavaType.ofText, hp]
    rfl
  | table raw args =>
    have hsplit : splitBrackets raw = (base, gaps.length) := hsplit
    simp only [toType, hsplit, hp, toTypes_eq]
    rfl

/-- The expressions that are accepted are those of the grammar. However one of them is read, its
base and the number of its pairs are the ones that are split off, and it is built into arrays of
this depth over the primitive type, the class, or the class with the types of the arguments. -/
theorem problem?_eq_none_iff_grammatical (t : TypeExpr) :
    (t.problem? = none ↔ t.Grammatical) ∧
    ∀ base gaps, IsBase base → Reads t.raw base gaps → t.problem? = none →
      splitBrackets t.raw = (base, gaps.length) ∧
      (∀ p : Primitive, base = p.keyword →
        t.build = .ok (JavaType.arrays gaps.length (.primitive p))) ∧
      (IsQualifiedName base → t.args = [] →
        t.build = .ok (JavaType.arrays gaps.length (.named (.ofText base)))) ∧
      (IsQualifiedName base → t.args ≠ [] → ∃ types, t.args.mapM TypeExpr.build = .ok types ∧
        t.build = .ok (JavaType.arrays gaps.length (.generic (.ofText base) types))) := by
  refine ⟨⟨grammatical_of_problem?, Grammatical.problem?⟩, ?_⟩
  intro base gaps hbase hreads h
  rw [build_eq h]
  refine ⟨splitBrackets_of_reads hreads hbase, ?_, ?_, ?_⟩
  · rintro p rfl
    rw [toType_of_primitive hreads]
  · intro hname hargs
    rw [toType_of_reference hreads hname, hargs]
    rfl
  · intro hname hargs
    have hbuilt := mapM_build_eq fun a ha => ((problem?_eq_none_iff.1 h).2 a ha).2
    have hempty : t.args.isEmpty = false := by simpa using hargs
    refine ⟨_, hbuilt, ?_⟩
    rw [toType_of_reference hreads hname, hempty]
    rfl

def spacedMap : TypeExpr :=
  .table " java.util.Map []\u00a0[]\t".toList
    [.name "int []".toList, .table "q.Box".toList [.name "q.T".toList]]

theorem spacedMap_grammatical :
    spacedMap.problem? = none ∧ spacedMap.Grammatical ∧
      splitBrackets spacedMap.raw = ("java.util.Map".toList, 2) ∧
      spacedMap.build = .ok (.array (.array (.generic ⟨"java.util".toList, "Map".toList⟩
        [.array (.primitive .int),
         .generic ⟨['q'], "Box".toList⟩ [.named ⟨['q'], ['T']⟩]]))) := by
  have h : spacedMap.problem? = none := by decide +kernel
  have hname : IsQualifiedName "java.util.Map".toList :=
    qualifiedNameProblem?_eq_none_iff.1 (by decide +kernel)
  have hblank : ([[' '], ['\u00a0']] : List Text).all (List.all · Text.isBlank) = true := by decide
  have hreads : Reads spacedMap.raw "java.util.Map".toList [[' '], ['\u00a0']] :=
    ⟨by decide +kernel, fun gap hgap => List.all_eq_true.1 (List.all_eq_true.1 hblank gap hgap)⟩
  obtain ⟨hgrammar, hread⟩ := problem?_eq_none_iff_grammatical spacedMap
  obtain ⟨hsplit, -, -, hgeneric⟩ := hread _ _ (Or.inr hname) hreads h
  obtain ⟨types, htypes, hbuilt⟩ := hgeneric hname (List.cons_ne_nil _ _)
  refine ⟨h, hgrammar.1 h, hsplit, ?_⟩
  have hargs : spacedMap.args.mapM TypeExpr.build = .ok
      [.array (.primitive .int), .generic ⟨['q'], "Box".toList⟩ [.named ⟨['q'], ['T']⟩]] := rfl
  rw [hargs] at htypes
  rw [hbuilt, ← Except.ok.inj htypes]
  rfl

end TypeExpr

end JavaSource
