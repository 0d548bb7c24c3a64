import JavaSource.Proofs.LinkRoundTrip

/-!
# The text of a type in full

The text of an accepted expression, with all classes in full, can be read in one way only. A name
ends in front of the first character that no name has; the arguments of a class are cut at the
commas between them and end at an angle bracket; the rest are pairs of brackets, one for each
dimension. So expressions with one text stand for one type, whatever stands in the text behind it.
-/

namespace JavaSource

/-! ### Cuts -/

/-- Words of one class of characters that nothing of the class follows are cut off alike. -/
theorem Text.append_inj_of_word {p : Char → Bool} {a b r s : Text} (ha : ∀ c ∈ a, p c = true)
    (hb : ∀ c ∈ b, p c = true) (hr : ∀ c ∈ r.head?, p c = false) (hs : ∀ c ∈ s.head?, p c = false)
    (h : a ++ r = b ++ s) : a = b ∧ r = s := by
  have hcut : ∀ w t : Text, (∀ c ∈ w, p c = true) → (∀ c ∈ t.head?, p c = false) →
      (w ++ t).takeWhile p = w := by
    intro w t hw ht
    have hnone : t.takeWhile p = [] := by
      cases t with
      | nil => rfl
      | cons c t => rw [List.takeWhile_cons, ht c rfl, if_neg Bool.false_ne_true]
    rw [List.takeWhile_append_of_pos hw, hnone, List.append_nil]
  have hwords : a = b := by rw [← hcut a r ha hr, h, hcut b s hb hs]
  rw [hwords] at h
  exact ⟨hwords, List.append_cancel_left h⟩

namespace JavaType

/-- Pairs of brackets for a number of dimensions. -/
def brackets (n : Nat) : Text := (List.replicate n ['[', ']']).flatten

theorem brackets_append_inj {n k : Nat} {r s : Text} (hr : r.head? ≠ some '[')
    (hs : s.head? ≠ some '[') (h : brackets n ++ r = brackets k ++ s) : n = k ∧ r = s := by
  induction n generalizing k with
  | zero =>
    cases k with
    | zero => exact ⟨rfl, h⟩
    | succ k => exact absurd (congrArg List.head? h) hr
  | succ n ih =>
    cases k with
    | zero => exact absurd (congrArg List.head? h).symm hs
    | succ k =>
      have hrest : brackets n ++ r = brackets k ++ s := (List.cons.inj (List.cons.inj h).2).2
      obtain ⟨hn, hrs⟩ := ih hrest
      exact ⟨congrArg Nat.succ hn, hrs⟩

/-! ### Arguments -/

/-- What can stand behind a type in a text: nothing, a further argument, or the end of the
arguments. -/
def Ends (s : Text) : Prop := ∀ c ∈ s.head?, c = ',' ∨ c = '>'

theorem Ends.head?_ne {s : Text} (h : Ends s) {c : Char} (hcomma : c ≠ ',') (hclose : c ≠ '>') :
    s.head? ≠ some c := by
  intro hc
  rcases h c hc with hc | hc
  · exact hcomma hc
  · exact hclose hc

theorem Ends.head?_brackets {s : Text} (h : Ends s) (n : Nat) :
    (brackets n ++ s).head? ≠ some '<' := by
  cases n with
  | zero => exact h.head?_ne (by decide) (by decide)
  | succ n =>
    intro hc
    exact absurd (Option.some.inj hc) (by decide)

/-- Texts that begin with two types and end them alike are made of the same type and the same
rest. -/
def Unambiguous (t u : JavaType) : Prop :=
  ∀ r s : Text, Ends r → Ends s → t.qualified ++ r = u.qualified ++ s → t = u ∧ r = s

/-- Further arguments, the bracket that closes them, and what follows. -/
def closeArgs : List JavaType → Text → Text
  | [], rest => '>' :: rest
  | t :: ts, rest => ',' :: ' ' :: (t.qualified ++ closeArgs ts rest)

/-- The arguments behind the name of a class, if there are any, and what follows. -/
def openArgs : List JavaType → Text → Text
  | [], rest => rest
  | t :: ts, rest => '<' :: (t.qualified ++ closeArgs ts rest)

theorem ends_nil : Ends [] := fun _ hc => nomatch hc

theorem ends_closeArgs (ts : List JavaType) (rest : Text) : Ends (closeArgs ts rest) := by
  cases ts with
  | nil =>
    rintro c ⟨⟩
    exact Or.inr rfl
  | cons t ts =>
    rintro c ⟨⟩
    exact Or.inl rfl

theorem textOfArgs_append (t : JavaType) (ts : List JavaType) (rest : Text) :
    textOfArgs ClassName.qualified (t :: ts) ++ '>' :: rest = t.qualified ++ closeArgs ts rest := by
  induction ts generalizing t with
  | nil => rfl
  | cons u ts ih =>
    rw [textOfArgs, List.append_assoc, ih, List.append_assoc]
    rfl

theorem closeArgs_inj {ts us : List JavaType} (hargs : ∀ t ∈ ts, ∀ u ∈ us, t.Unambiguous u)
    {r s : Text} (h : closeArgs ts r = closeArgs us s) : ts = us ∧ r = s := by
  induction ts generalizing us with
  | nil =>
    cases us with
    | nil => exact ⟨rfl, (List.cons.inj h).2⟩
    | cons u us => cases h
  | cons t ts ih =>
    cases us with
    | nil => cases h
    | cons u us =>
      have hhead := hargs t (List.mem_cons_self ..) u (List.mem_cons_self ..)
      have htail := fun x hx y hy =>
        hargs x (List.mem_cons_of_mem _ hx) y (List.mem_cons_of_mem _ hy)
      have hbehind : t.qualified ++ closeArgs ts r = u.qualified ++ closeArgs us s :=
        (List.cons.inj (List.cons.inj h).2).2
      obtain ⟨rfl, hrest⟩ := hhead _ _ (ends_closeArgs ts r) (ends_closeArgs us s) hbehind
      obtain ⟨rfl, hrs⟩ := ih htail hrest
      exact ⟨rfl, hrs⟩

theorem openArgs_inj {ts us : List JavaType} (hargs : ∀ t ∈ ts, ∀ u ∈ us, t.Unambiguous u)
    {r s : Text} (hr : r.head? ≠ some '<') (hs : s.head? ≠ some '<')
    (h : openArgs ts r = openArgs us s) : ts = us ∧ r = s := by
  cases ts with
  | nil =>
    cases us with
    | nil => exact ⟨rfl, h⟩
    | cons u us => exact absurd (congrArg List.head? h) hr
  | cons t ts =>
    cases us with
    | nil => exact absurd (congrArg List.head? h).symm hs
    | cons u us =>
      -- but for the bracket in front, the first argument stands like any further one
      have hclosed : closeArgs (t :: ts) r = closeArgs (u :: us) s := by
        rw [closeArgs, closeArgs, (List.cons.inj h).2]
      exact closeArgs_inj hargs hclosed

end JavaType

/-! ### Expressions -/

namespace TypeExpr

open JavaType

def isNameChar (c : Char) : Bool := c == '.' || isIdentifierPart c

theorem IsBase.isNameChar {base : Text} (h : IsBase base) {c : Char} (hc : c ∈ base) :
    TypeExpr.isNameChar c = true := by
  unfold TypeExpr.isNameChar
  rw [Bool.or_eq_true, beq_iff_eq]
  rcases h with ⟨p, rfl⟩ | h
  · exact Or.inr (p.isIdentifierPart_of_mem_keyword hc)
  · exact h.dot_or_isIdentifierPart hc

/-- The type of a base with type arguments, less the dimensions. -/
def typeOfBase (base : Text) (args : List JavaType) : JavaType :=
  match Primitive.ofKeyword? base with
  | some p => .primitive p
  | none => if args.isEmpty then .named (.ofText base) else .generic (.ofText base) args

theorem toType_eq (t : TypeExpr) :
    t.toType = arrays t.dimensions (typeOfBase t.base (t.args.map toType)) := by
  cases t with
  | name raw => rfl
  | table raw args =>
    rw [toType, toTypes_eq]
    unfold typeOfBase
    simp only [List.isEmpty_map]
    rfl

theorem qualified_typeOfBase {t : TypeExpr} (h : t.problem? = none) (rest : Text) :
    (typeOfBase t.base (t.args.map toType)).qualified ++ rest =
      t.base ++ openArgs (t.args.map toType) rest := by
  rcases baseProblem?_eq_none_iff.1 (problem?_eq_none_iff.1 h).1 with ⟨⟨p, hp⟩, hnone⟩ | hname
  · have hargs : t.args = [] := by simpa using hnone
    rw [hp, hargs, typeOfBase, Primitive.ofKeyword?_keyword]
    rfl
  · have hbase := ClassName.qualified_ofText hname.head?_ne_dot
    rw [typeOfBase, hname.ofKeyword?_eq_none]
    cases t.args.map toType with
    | nil =>
      show (ClassName.ofText t.base).qualified ++ rest = _
      rw [hbase]
      rfl
    | cons a args =>
      show (ClassName.ofText t.base).qualified ++
        ('<' :: textOfArgs ClassName.qualified (a :: args) ++ ['>']) ++ rest = _
      rw [hbase, List.append_assoc, List.append_assoc, List.cons_append, List.singleton_append,
        textOfArgs_append]
      rfl

/-- The text of an accepted expression begins with its base; the arguments follow, and then the
brackets. -/
theorem qualified_toType_append {t : TypeExpr} (h : t.problem? = none) (rest : Text) :
    t.toType.qualified ++ rest =
      t.base ++ openArgs (t.args.map toType) (brackets t.dimensions ++ rest) := by
  rw [toType_eq, JavaType.qualified, text_arrays, List.append_assoc]
  exact qualified_typeOfBase h _

/-- Nothing behind the base of a type belongs to the base. -/
theorem head?_openArgs {args : List JavaType} {n : Nat} {rest : Text} (hrest : Ends rest) :
    ∀ c ∈ (openArgs args (brackets n ++ rest)).head?, isNameChar c = false := by
  intro c hc
  cases args with
  | cons a args =>
    obtain rfl : '<' = c := Option.some.inj hc
    decide
  | nil =>
    cases n with
    | succ n =>
      obtain rfl : '[' = c := Option.some.inj hc
      decide
    | zero =>
      rcases hrest c hc with rfl | rfl
      · decide
      · decide

theorem unambiguous_toType {t u : TypeExpr} (ht : t.problem? = none) (hu : u.problem? = none) :
    t.toType.Unambiguous u.toType := by
  induction t using argsInduction generalizing u with
  | step t ih =>
    intro r s hr hs h
    have hargs : ∀ a ∈ t.args.map toType, ∀ b ∈ u.args.map toType, a.Unambiguous b := by
      intro a ha b hb
      obtain ⟨x, hx, rfl⟩ := List.mem_map.1 ha
      obtain ⟨y, hy, rfl⟩ := List.mem_map.1 hb
      exact ih x hx ((problem?_eq_none_iff.1 ht).2 x hx).2 ((problem?_eq_none_iff.1 hu).2 y hy).2
    rw [qualified_toType_append ht, qualified_toType_append hu] at h
    obtain ⟨hbase, h⟩ := Text.append_inj_of_word (fun c hc => (isBase_of_problem? ht).isNameChar hc)
      (fun c hc => (isBase_of_problem? hu).isNameChar hc) (head?_openArgs hr) (head?_openArgs hs) h
    obtain ⟨hsame, h⟩ := openArgs_inj hargs (hr.head?_brackets _) (hs.head?_brackets _) h
    obtain ⟨hdimensions, hrest⟩ := brackets_append_inj (hr.head?_ne (by decide) (by decide))
      (hs.head?_ne (by decide) (by decide)) h
    rw [toType_eq t, toType_eq u, hbase, hsame, hdimensions]
    exact ⟨rfl, hrest⟩

/-- Accepted expressions are built into types, and two types that are built so and have one text
with all classes in full are one type. -/
theorem built_eq_of_qualified_eq (t u : TypeExpr) (ht : t.problem? = none)
    (hu : u.problem? = none) :
    ∃ a b, t.build = .ok a ∧ u.build = .ok b ∧ (a.qualified = b.qualified → a = b) := by
  refine ⟨_, _, build_eq ht, build_eq hu, fun h => ?_⟩
  have happend : t.toType.qualified ++ [] = u.toType.qualified ++ [] := by rw [h]
  exact (unambiguous_toType ht hu [] [] ends_nil ends_nil happend).1

def roomyMap : TypeExpr :=
  .table " java.util.Map [] []".toList
    [.name "int []".toList, .table "q.Box".toList [.table "q.T\t[]".toList [], .name "q.U".toList]]

/-- The same type as a manifest may also write it. -/
def tightMap : TypeExpr :=
  .table "java.util.Map[][]".toList
    [.table "int[]".toList [], .table " q.Box".toList [.name "q.T[]".toList, .name " q.U".toList]]

theorem roomyMap_tightMap_built :
    roomyMap.problem? = none ∧ tightMap.problem? = none ∧ ∃ a b,
      roomyMap.build = .ok a ∧ tightMap.build = .ok b ∧
      a.qualified = "java.util.Map<int[], q.Box<q.T[], q.U>>[][]".toList ∧
      b.qualified = "java.util.Map<int[], q.Box<q.T[], q.U>>[][]".toList ∧ a = b := by
  have hroomy : roomyMap.problem? = none := by decide +kernel
  have htight : tightMap.problem? = none := by decide +kernel
  have hroomyText : roomyMap.toType.qualified =
      "java.util.Map<int[], q.Box<q.T[], q.U>>[][]".toList := by decide +kernel
  have htightText : tightMap.toType.qualified =
      "java.util.Map<int[], q.Box<q.T[], q.U>>[][]".toList := by decide +kernel
  obtain ⟨a, b, ha, hb, heq⟩ := built_eq_of_qualified_eq roomyMap tightMap hroomy htight
  obtain rfl := Except.ok.inj ((build_eq hroomy).symm.trans ha)
  obtain rfl := Except.ok.inj ((build_eq htight).symm.trans hb)
  exact ⟨hroomy, htight, _, _, ha, hb, hroomyText, htightText,
    heq (hroomyText.trans htightText.symm)⟩

end TypeExpr

end JavaSource
