import JavaSource.Proofs.BuiltNames
import JavaSource.Proofs.ClassOrder
import JavaSource.Proofs.LinkText
import JavaSource.Proofs.TypeGrammar

/-!
# Links and their targets

Every method of an accepted manifest has a canonical link: its class, its name and its erased
argument types. The link leads back to the method unless another method of the class has the same
signature, and then to none of them. A built reference, written with all classes in full, is the
canonical link of its target: the types that were built and the texts that were declared agree
after erasure.
-/

namespace JavaSource

/-! ### Erased types -/

theorem JavaType.erasure_arrays (n : Nat) (t : JavaType) :
    (arrays n t).erasure = arrays n t.erasure := by
  induction n with
  | zero => rfl
  | succ n ih => rw [arrays, erasure, ih, arrays]

theorem JavaType.text_arrays (naming : Naming) (n : Nat) (t : JavaType) :
    (arrays n t).text naming = t.text naming ++ (List.replicate n ['[', ']']).flatten := by
  induction n with
  | zero => simp [arrays]
  | succ n ih =>
    have hbrackets : (List.replicate (n + 1) ['[', ']']).flatten =
        (List.replicate n ['[', ']']).flatten ++ ['[', ']'] := by
      rw [List.replicate_succ', List.flatten_append, List.flatten_singleton]
    rw [arrays, text, ih, hbrackets, List.append_assoc]

namespace TypeExpr

/-- Erasing the type that is built and erasing the declared text come to the same. -/
theorem qualified_erasure_toType {t : TypeExpr} (h : t.problem? = none) :
    t.toType.erasure.qualified = t.erasedName := by
  obtain ⟨gaps, hreads, hlength⟩ := t.reads_base
  unfold JavaType.qualified erasedName
  rw [← hlength]
  rcases isBase_of_problem? h with ⟨p, hp⟩ | hname
  · rw [hp] at hreads ⊢
    rw [toType_of_primitive hreads, JavaType.erasure_arrays, JavaType.text_arrays]
    rfl
  · have herased : (if t.args.isEmpty then JavaType.named (.ofText t.base)
        else .generic (.ofText t.base) (t.args.map toType)).erasure = .named (.ofText t.base) := by
      split
      · rfl
      · rfl
    rw [toType_of_reference hreads hname, JavaType.erasure_arrays, JavaType.text_arrays, herased,
      JavaType.text, ClassName.qualified_ofText hname.head?_ne_dot]

theorem isLinkWord_base {t : TypeExpr} (h : t.problem? = none) : IsLinkWord t.base := by
  rcases isBase_of_problem? h with ⟨p, hp⟩ | hname
  · have hne : p.keyword ≠ [] := by cases p <;> decide
    rw [hp]
    exact ⟨hne, fun c hc => isLinkChar_of_isIdentifierPart (p.isIdentifierPart_of_mem_keyword hc)⟩
  · exact hname.isLinkWord

theorem isLinkWord_erasedName {t : TypeExpr} (h : t.problem? = none) :
    IsLinkWord t.erasedName := by
  obtain ⟨hne, hchars⟩ := isLinkWord_base h
  have hbrackets : ∀ c ∈ ['[', ']'], IsLinkChar c := by
    rw [List.forall_mem_cons, List.forall_mem_singleton]
    unfold IsLinkChar
    decide
  refine ⟨fun he => hne (List.append_eq_nil_iff.1 he).1, fun c hc => ?_⟩
  rcases List.mem_append.1 hc with hc | hc
  · exact hchars c hc
  · obtain ⟨pair, hpair, hc⟩ := List.mem_flatten.1 hc
    rw [(List.mem_replicate.1 hpair).2] at hc
    exact hbrackets c hc

end TypeExpr

/-! ### Links of methods -/

namespace MemberLink

variable {l : MemberLink} {d e : MethodDecl}

theorem fits_iff :
    l.fits d = true ↔ d.name = l.method ∧ ∀ args, l.args = some args → d.erasedArgs = args := by
  unfold fits
  rw [Bool.and_eq_true, decide_eq_true_eq]
  cases l.args with
  | none => simp
  | some args => simp

/-- A link cannot tell methods of one signature apart. -/
theorem fits_of_signature (h : l.fits d = true) (hname : e.name = d.name)
    (hargs : e.erasedArgs = d.erasedArgs) : l.fits e = true := by
  rw [fits_iff] at h ⊢
  rw [hname, hargs]
  exact h

end MemberLink

namespace ClassDecl

/-- The link that names a method of the class with its erased argument types. -/
def canonicalLink (c : ClassDecl) (d : MethodDecl) : MemberLink :=
  ⟨c.name, d.name, some d.erasedArgs⟩

/-- The link that names a method of the class by its name alone. -/
def nameLink (c : ClassDecl) (d : MethodDecl) : MemberLink := ⟨c.name, d.name, none⟩

variable {c : ClassDecl} {d e : MethodDecl}

theorem plain_canonicalLink (hc : IsQualifiedName c.name) (hd : d.Accepted c.isInterface) :
    (c.canonicalLink d).Plain where
  className := hc.isLinkWord
  method := hd.name.isLinkWord
  args := by
    intro args hargs a ha
    obtain rfl : d.erasedArgs = args := Option.some.inj hargs
    obtain ⟨x, hx, rfl⟩ := List.mem_map.1 ha
    exact TypeExpr.isLinkWord_erasedName (hd.signature.argument x hx).type

theorem plain_nameLink (hc : IsQualifiedName c.name) (hd : d.Accepted c.isInterface) :
    (c.nameLink d).Plain where
  className := hc.isLinkWord
  method := hd.name.isLinkWord
  args := fun _ h => absurd h (Option.some_ne_none _).symm

theorem fits_canonicalLink_iff :
    (c.canonicalLink d).fits e = true ↔ e.name = d.name ∧ e.erasedArgs = d.erasedArgs := by
  rw [MemberLink.fits_iff]
  simp [canonicalLink]

theorem fits_nameLink_iff : (c.nameLink d).fits e = true ↔ e.name = d.name := by
  rw [MemberLink.fits_iff]
  simp [nameLink]

end ClassDecl

/-! ### Which method a link picks -/

theorem eq_singleton_of_nodup {α : Type} {l : List α} {a : α} (hl : l.Nodup) (ha : a ∈ l)
    (hall : ∀ b ∈ l, b = a) : l = [a] := by
  have hreplicate := List.eq_replicate_of_mem hall
  have hle : l.length ≤ 1 := by
    rw [hreplicate] at hl
    exact List.nodup_replicate.1 hl
  have hpos := List.length_pos_of_mem ha
  have hone : l.length = 1 := by omega
  rw [hreplicate, hone]
  rfl

theorem filter_zipIdx_eq_singleton_iff {α : Type} {p : α → Bool} {l : List α} {a : α} {i : Nat} :
    (l.zipIdx.filter fun q => p q.1) = [(a, i)] ↔
      l[i]? = some a ∧ p a = true ∧ ∀ (j : Nat) (b : α), l[j]? = some b → p b = true → j = i := by
  have hmem : ∀ b j, (b, j) ∈ (l.zipIdx.filter fun q => p q.1) ↔ l[j]? = some b ∧ p b = true := by
    intro b j
    rw [List.mem_filter, List.mem_zipIdx_iff_getElem?]
  constructor
  · intro h
    obtain ⟨hget, hp⟩ := (hmem a i).1 (h ▸ List.mem_singleton.2 rfl)
    refine ⟨hget, hp, fun j b hj hb => ?_⟩
    have hb := (hmem b j).2 ⟨hj, hb⟩
    rw [h, List.mem_singleton] at hb
    exact congrArg Prod.snd hb
  · rintro ⟨hget, hp, huniq⟩
    have hpositions : (l.zipIdx.map Prod.snd).Nodup := by
      rw [List.zipIdx_map_snd]
      exact List.nodup_range'
    refine eq_singleton_of_nodup (hpositions.of_map.filter _) ((hmem a i).2 ⟨hget, hp⟩) ?_
    rintro ⟨b, j⟩ hq
    obtain ⟨hj, hb⟩ := (hmem b j).1 hq
    obtain rfl := huniq j b hj hb
    rw [hget] at hj
    rw [Option.some_inj.1 hj]

theorem length_filter_zipIdx {α : Type} (p : α → Bool) (xs : List α) :
    (xs.zipIdx.filter fun q => p q.1).length = xs.countP p := by
  have hcount : xs.zipIdx.countP (p ∘ Prod.fst) = xs.countP p := by
    rw [← List.countP_map, List.zipIdx_map_fst]
  rw [← hcount, List.countP_eq_length_filter]
  rfl

namespace Manifest

variable {m : Manifest} {k : Nat} {c : ClassDecl} {l : MemberLink} {t : MemberTarget}

/-- A link picks a method of a class exactly if it fits this method and no other one. -/
theorem pick_eq_ok_iff :
    pick k c l = .ok t ↔ t.classIndex = k ∧ t.classDecl = c ∧
      c.methods[t.methodIndex]? = some t.method ∧ l.fits t.method = true ∧
      ∀ (j : Nat) (e : MethodDecl), c.methods[j]? = some e → l.fits e = true →
        j = t.methodIndex := by
  have hsingle := filter_zipIdx_eq_singleton_iff (p := l.fits) (l := c.methods) (a := t.method)
    (i := t.methodIndex)
  constructor
  · intro h
    unfold pick at h
    split at h
    · simp at h
    · split at h
      · simp at h
      · next q hq =>
        cases h
        exact ⟨rfl, rfl, hsingle.1 hq⟩
      · simp at h
  · rintro ⟨rfl, rfl, hrest⟩
    have hfits := hrest.2.1
    have hnamed : ¬(t.classDecl.methods.all fun d => d.name ≠ l.method) = true := by
      intro hall
      have hne := List.all_eq_true.1 hall t.method (List.mem_of_getElem? hrest.1)
      simp [(MemberLink.fits_iff.1 hfits).1] at hne
    unfold pick
    rw [if_neg hnamed, hsingle.2 hrest]

/-- A link that fits several methods of a class picks none, and says how many there are. -/
theorem pick_eq_ambiguous {i j : Nat} {d e : MethodDecl} (hi : c.methods[i]? = some d)
    (hd : l.fits d = true) (hj : c.methods[j]? = some e) (he : l.fits e = true) (hij : j ≠ i) :
    pick k c l = .error (.ambiguous l.method (c.methods.countP l.fits)) := by
  have hnamed : ¬(c.methods.all fun d => d.name ≠ l.method) = true := by
    intro hall
    have hne := List.all_eq_true.1 hall d (List.mem_of_getElem? hi)
    simp [(MemberLink.fits_iff.1 hd).1] at hne
  unfold pick
  rw [if_neg hnamed, ← length_filter_zipIdx]
  have hmem : (d, i) ∈ (c.methods.zipIdx.filter fun q => l.fits q.1) :=
    List.mem_filter.2 ⟨List.mem_zipIdx_iff_getElem?.2 hi, hd⟩
  split
  · next hnone => simp [hnone] at hmem
  · next q hq =>
    obtain ⟨-, -, huniq⟩ := filter_zipIdx_eq_singleton_iff.1 hq
    exact absurd ((huniq j e hj he).trans (huniq i d hi hd).symm) hij
  · rfl

theorem findClass?_eq (h : m.Accepted) (hk : m.classes[k]? = some c) :
    m.findClass? c.name = some (k, c) := by
  obtain ⟨i, hi⟩ := exists_findClass? h.classNames (List.mem_of_getElem? hk)
  obtain ⟨hget, -⟩ := findClass?_eq_some hi
  obtain ⟨hlt, -⟩ := List.getElem?_eq_some_iff.1 hget
  have hsame : (m.classes.map ClassDecl.name)[i]? = (m.classes.map ClassDecl.name)[k]? := by
    rw [List.getElem?_map, List.getElem?_map, hget, hk]
  have hik : i = k := (List.getElem?_inj (by rw [List.length_map]; exact hlt) h.classNames).1 hsame
  rw [hi, hik]

/-- A link is resolved in the class that it names. -/
theorem resolve_eq_pick (h : m.Accepted) (hk : m.classes[k]? = some c) {link : Text}
    (hl : MemberLink.ofText? link = some l) (hc : l.className = c.name) :
    m.resolve link = pick k c l := by
  unfold resolve
  rw [hl]
  simp only [hc, findClass?_eq h hk]

theorem resolve_text (h : m.Accepted) (hk : m.classes[k]? = some c) (hl : l.Plain)
    (hc : l.className = c.name) : m.resolve l.text = pick k c l :=
  resolve_eq_pick h hk (MemberLink.ofText?_text hl) hc

/-- What a link leads to was picked from the methods of its class. -/
theorem exists_pick_of_resolve {link : Text} (h : m.resolve link = .ok t) :
    ∃ l, MemberLink.ofText? link = some l ∧ l.className = t.classDecl.name ∧
      pick t.classIndex t.classDecl l = .ok t := by
  unfold resolve at h
  cases hl : MemberLink.ofText? link with
  | none => simp [hl] at h
  | some l =>
    cases hc : m.findClass? l.className with
    | none => simp [hl, hc] at h
    | some found =>
      simp only [hl, hc] at h
      obtain ⟨hindex, hclass, -⟩ := pick_eq_ok_iff.1 h
      obtain ⟨-, hname⟩ := findClass?_eq_some (i := found.1) (c := found.2) hc
      rw [← hindex, ← hclass] at h
      exact ⟨l, rfl, by rw [hclass, hname], h⟩

/-! ### Canonical links -/

theorem resolve_canonicalLink (h : m.Accepted) (hk : m.classes[k]? = some c) {i : Nat}
    {d : MethodDecl} (hi : c.methods[i]? = some d)
    (huniq : ∀ (j : Nat) (e : MethodDecl), c.methods[j]? = some e → e.name = d.name →
      e.erasedArgs = d.erasedArgs → j = i) :
    m.resolve (c.canonicalLink d).text = .ok ⟨k, c, i, d⟩ := by
  have hc := h.classes c (List.mem_of_getElem? hk)
  have hd := hc.methods d (List.mem_of_getElem? hi)
  rw [resolve_text h hk (ClassDecl.plain_canonicalLink hc.name hd) rfl]
  refine pick_eq_ok_iff.2 ⟨rfl, rfl, hi, ClassDecl.fits_canonicalLink_iff.2 ⟨rfl, rfl⟩, ?_⟩
  intro j e hj he
  obtain ⟨hname, hargs⟩ := ClassDecl.fits_canonicalLink_iff.1 he
  exact huniq j e hj hname hargs

theorem resolve_canonicalLink_ambiguous (h : m.Accepted) (hk : m.classes[k]? = some c) {i j : Nat}
    {d e : MethodDecl} (hi : c.methods[i]? = some d) (hj : c.methods[j]? = some e) (hij : j ≠ i)
    (hname : e.name = d.name) (hargs : e.erasedArgs = d.erasedArgs) :
    m.resolve (c.canonicalLink d).text = .error (.ambiguous d.name
      (c.methods.countP fun e => e.name = d.name ∧ e.erasedArgs = d.erasedArgs)) := by
  have hc := h.classes c (List.mem_of_getElem? hk)
  have hd := hc.methods d (List.mem_of_getElem? hi)
  have hcount : c.methods.countP (c.canonicalLink d).fits =
      c.methods.countP fun e => e.name = d.name ∧ e.erasedArgs = d.erasedArgs := by
    refine List.countP_congr fun e _ => ?_
    rw [ClassDecl.fits_canonicalLink_iff, decide_eq_true_eq]
  rw [resolve_text h hk (ClassDecl.plain_canonicalLink hc.name hd) rfl, ← hcount]
  exact pick_eq_ambiguous hi (ClassDecl.fits_canonicalLink_iff.2 ⟨rfl, rfl⟩) hj
    (ClassDecl.fits_canonicalLink_iff.2 ⟨hname, hargs⟩) hij

theorem resolve_nameLink_iff (h : m.Accepted) (hk : m.classes[k]? = some c) {i : Nat}
    {d : MethodDecl} (hi : c.methods[i]? = some d) :
    m.resolve (c.nameLink d).text = .ok ⟨k, c, i, d⟩ ↔
      ∀ (j : Nat) (e : MethodDecl), c.methods[j]? = some e → e.name = d.name → j = i := by
  have hc := h.classes c (List.mem_of_getElem? hk)
  have hd := hc.methods d (List.mem_of_getElem? hi)
  rw [resolve_text h hk (ClassDecl.plain_nameLink hc.name hd) rfl, pick_eq_ok_iff]
  simp only [ClassDecl.fits_nameLink_iff, hi, true_and]

/-- A built reference with all classes in full is the canonical link of its target. -/
theorem text_memberRef (h : m.Accepted) {link : Text} (ht : m.resolve link = .ok t) :
    t.memberRef.text ClassName.qualified = (t.classDecl.canonicalLink t.method).text := by
  obtain ⟨hclass, hmethod⟩ := accepted_of_resolve h ht
  have howner := ClassName.qualified_ofText hclass.name.head?_ne_dot
  have hargs : (t.method.args.map fun a => a.type.toType.erasure).map
      (JavaType.text ClassName.qualified) = t.method.erasedArgs := by
    rw [List.map_map]
    refine List.map_congr_left fun a ha => ?_
    exact TypeExpr.qualified_erasure_toType (hmethod.signature.argument a ha).type
  rw [MemberTarget.memberRef_eq]
  simp only [MemberRef.text, howner, hargs]
  simp [MemberLink.text, MemberLink.argsText, ClassDecl.canonicalLink]

/-- The canonical link of what a link leads to leads there again. -/
theorem resolve_canonicalLink_of_resolve (h : m.Accepted) {link : Text}
    (ht : m.resolve link = .ok t) :
    m.resolve (t.classDecl.canonicalLink t.method).text = .ok t := by
  obtain ⟨hclass, hmethod⟩ := getElem?_of_resolve ht
  obtain ⟨l, -, -, hl⟩ := exists_pick_of_resolve ht
  obtain ⟨-, -, -, hfits, huniq⟩ := pick_eq_ok_iff.1 hl
  refine resolve_canonicalLink h hclass hmethod fun j e hj hname hargs => ?_
  exact huniq j e hj (MemberLink.fits_of_signature hfits hname hargs)

/-- The canonical link of a method leads to the method if no other method of its class has the
same signature, and otherwise is ambiguous between all of these; the name alone leads to the method
if no other one has the name. What any link leads to is built into a reference whose text, with
classes in full, is the canonical link of the target and leads to it again. -/
theorem member_links_round_trip (source : Text) (m : Manifest) (h : m.problem? source = none) :
    (∀ (k i : Nat) (c : ClassDecl) (d : MethodDecl),
      m.classes[k]? = some c → c.methods[i]? = some d →
      ((∀ (j : Nat) (e : MethodDecl), c.methods[j]? = some e → e.name = d.name →
          e.erasedArgs = d.erasedArgs → j = i) →
        m.resolve (c.canonicalLink d).text = .ok ⟨k, c, i, d⟩) ∧
      ((∃ (j : Nat) (e : MethodDecl), j ≠ i ∧ c.methods[j]? = some e ∧ e.name = d.name ∧
          e.erasedArgs = d.erasedArgs) →
        m.resolve (c.canonicalLink d).text = .error (.ambiguous d.name
          (c.methods.countP fun e => e.name = d.name ∧ e.erasedArgs = d.erasedArgs))) ∧
      (m.resolve (c.nameLink d).text = .ok ⟨k, c, i, d⟩ ↔
        ∀ (j : Nat) (e : MethodDecl), c.methods[j]? = some e → e.name = d.name → j = i)) ∧
    ∃ classes, (m.classes.mapM fun c => Build.within (.inClass c.name) c.build) = .ok classes ∧
      ∀ link t, m.resolve link = .ok t → ∃ ref,
        DocPart.build m classes (.member link) = .ok (.memberLink ref) ∧
        ref.text ClassName.qualified = (t.classDecl.canonicalLink t.method).text ∧
        m.resolve (ref.text ClassName.qualified) = .ok t := by
  have ha := problem?_eq_none_iff.1 h
  refine ⟨fun k i c d hk hi => ⟨?_, ?_, ?_⟩, _, buildClasses_eq ha, fun link t ht => ?_⟩
  · exact resolve_canonicalLink ha hk hi
  · rintro ⟨j, e, hij, hj, hname, hargs⟩
    exact resolve_canonicalLink_ambiguous ha hk hi hj hij hname hargs
  · exact resolve_nameLink_iff ha hk hi
  · have htext := text_memberRef ha ht
    have hbuilt : DocPart.build m (m.classes.map ClassDecl.toClassDef) (.member link) =
        .ok (.memberLink t.memberRef) := by
      simp only [DocPart.build, ht, built?_eq ht]
      rfl
    refine ⟨t.memberRef, hbuilt, htext, ?_⟩
    rw [htext]
    exact resolve_canonicalLink_of_resolve ha ht

def runMethod : MethodDecl where
  name := "run".toList
  args :=
    [{ type := .name "int".toList },
     { type := .table " r.Item [] []".toList [.name "r.Part".toList] }]

def putMethod (element : Text) : MethodDecl where
  name := "put".toList
  args := [{ type := .table "java.util.List".toList [.name element] }]

/-- A class with overloads, of which two have one signature after erasure. -/
def overloads : ClassDecl where
  name := "q.B".toList
  methods :=
    [{ name := "run".toList, args := [{ type := .name "int".toList }] }, runMethod,
     putMethod "q.B".toList, putMethod "r.Part[]".toList, { name := "close".toList }]

def overloadsOnly : Manifest where
  classes := [overloads]

theorem overloadsOnly_links_round_trip :
    overloadsOnly.problem? [] = none ∧
      overloadsOnly.resolve "q.B#run(int, r.Item[][])".toList =
        .ok ⟨0, overloads, 1, runMethod⟩ ∧
      overloadsOnly.resolve "q.B#put(java.util.List)".toList =
        .error (.ambiguous "put".toList 2) ∧
      overloadsOnly.resolve "q.B#close".toList =
        .ok ⟨0, overloads, 4, { name := "close".toList }⟩ ∧
      ∃ classes ref, DocPart.build overloadsOnly classes
          (.member " q.B # run ( int,, r . Item[ ] [])".toList) = .ok (.memberLink ref) ∧
        ref.text ClassName.qualified = "q.B#run(int, r.Item[][])".toList := by
  have h : overloadsOnly.problem? [] = none := by decide +kernel
  have hrunText : (overloads.canonicalLink runMethod).text = "q.B#run(int, r.Item[][])".toList := by
    decide +kernel
  have hputText : (overloads.canonicalLink (putMethod "q.B".toList)).text =
      "q.B#put(java.util.List)".toList := by decide +kernel
  have hputCount : (overloads.methods.countP fun e => e.name = (putMethod "q.B".toList).name ∧
      e.erasedArgs = (putMethod "q.B".toList).erasedArgs) = 2 := by decide +kernel
  have hcloseText : (overloads.nameLink { name := "close".toList }).text =
      "q.B#close".toList := by decide +kernel
  have hcloseOnly : ∀ j < 5, ∀ e ∈ overloads.methods[j]?, e.name = "close".toList → j = 4 := by
    decide +kernel
  have hrunOnly : ∀ j < 5, ∀ e ∈ overloads.methods[j]?, e.name = runMethod.name →
      e.erasedArgs = runMethod.erasedArgs → j = 1 := by decide +kernel
  have hsame : (putMethod "r.Part[]".toList).erasedArgs = (putMethod "q.B".toList).erasedArgs := by
    decide +kernel
  have hspaced : MemberLink.ofText? " q.B # run ( int,, r . Item[ ] [])".toList =
      MemberLink.ofText? "q.B#run(int, r.Item[][])".toList := by decide +kernel
  obtain ⟨hmethods, classes, -, htargets⟩ := member_links_round_trip [] overloadsOnly h
  have hrun := (hmethods 0 1 overloads runMethod rfl rfl).1 fun j e hj hname hargs =>
    hrunOnly j (List.getElem?_eq_some_iff.1 hj).1 e hj hname hargs
  have hput := (hmethods 0 2 overloads (putMethod "q.B".toList) rfl rfl).2.1
    ⟨3, putMethod "r.Part[]".toList, by decide, rfl, rfl, hsame⟩
  have hclose := (hmethods 0 4 overloads { name := "close".toList } rfl rfl).2.2.2
    fun j e hj hname => hcloseOnly j (List.getElem?_eq_some_iff.1 hj).1 e hj hname
  rw [hrunText] at hrun
  rw [hputText, hputCount] at hput
  rw [hcloseText] at hclose
  have htarget : overloadsOnly.resolve " q.B # run ( int,, r . Item[ ] [])".toList =
      .ok ⟨0, overloads, 1, runMethod⟩ := by
    rw [← hrun, resolve, resolve, hspaced]
  obtain ⟨ref, hbuilt, htext, -⟩ := htargets _ _ htarget
  exact ⟨h, hrun, hput, hclose, classes, ref, hbuilt, htext.trans hrunText⟩

end Manifest

end JavaSource
