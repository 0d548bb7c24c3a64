import JavaSource.Proofs.ReadableData
import Mathlib

/-!
# Added keys

What becomes of a manifest when a table in it gets one more key. Records and types have no place for
a key that is not theirs: the manifest can no longer be read. Parts of documentation and entries of
bodies look up the keys of their forms and nothing else: any other key is passed over. Between the
two stands a type inside such a part: it can no longer be read, but the part around it may have
another form.
-/

namespace JavaSource

open Toml (Value)

/-! ### Values with one more entry -/

namespace Toml.Value

/-- A value and the same value with one more entry in one of its tables. -/
inductive EntryAdded (key : Text) (x : Value) : Value → Value → Prop
  | here (front rest : List (Text × Value)) :
    EntryAdded key x (.table (front ++ rest)) (.table (front ++ (key, x) :: rest))
  | inEntry (front rest : List (Text × Value)) (k : Text) {v v' : Value}
    (h : EntryAdded key x v v') :
    EntryAdded key x (.table (front ++ (k, v) :: rest)) (.table (front ++ (k, v') :: rest))
  | inItem (front rest : List Value) {v v' : Value} (h : EntryAdded key x v v') :
    EntryAdded key x (.array (front ++ v :: rest)) (.array (front ++ v' :: rest))

theorem allScalarsOfItems_append (p : Value → Bool) (a b : List Value) :
    allScalarsOfItems p (a ++ b) = (allScalarsOfItems p a && allScalarsOfItems p b) := by
  induction a with
  | nil => rfl
  | cons v a ih => rw [List.cons_append, allScalarsOfItems, ih, allScalarsOfItems, Bool.and_assoc]

theorem allScalarsOfEntries_append (p : Value → Bool) (a b : List (Text × Value)) :
    allScalarsOfEntries p (a ++ b) = (allScalarsOfEntries p a && allScalarsOfEntries p b) := by
  induction a with
  | nil => rfl
  | cons e a ih =>
    rw [List.cons_append, allScalarsOfEntries, ih, allScalarsOfEntries, Bool.and_assoc]

theorem EntryAdded.isReadable_eq {key : Text} {x v v' : Value} (h : EntryAdded key x v v')
    (limit : Int) : v'.isReadable limit = (v.isReadable limit && x.isReadable limit) := by
  unfold isReadable
  induction h with
  | here front rest =>
    simp only [allScalars, allScalarsOfEntries_append, allScalarsOfEntries]
    ac_rfl
  | inEntry front rest k h ih =>
    simp only [allScalars, allScalarsOfEntries_append, allScalarsOfEntries, ih]
    ac_rfl
  | inItem front rest h ih =>
    simp only [allScalars, allScalarsOfItems_append, allScalarsOfItems, ih]
    ac_rfl

end Toml.Value

/-! ### Spots -/

/-- Where a key is added. -/
inductive Spot
  /-- In a record or a type. -/
  | checked
  /-- In a type inside an entry that has another form as well. -/
  | spared
  /-- In a part of documentation or an entry of a body. -/
  | unchecked
deriving DecidableEq

namespace Spot

/-- The spot of a type inside an entry, by what the entry is in its other form. -/
def beside {α : Type} (other : Option α) : Spot := if other.isSome then .spared else .checked

/-- What is read at a spot before and after the key is added. -/
structure Settles {α : Type} (s : Spot) (r r' : Option α) : Prop where
  isSome : r'.isSome = decide (s ≠ .checked)
  eq : s = .unchecked → r' = r

theorem settles_checked {α : Type} {r r' : Option α} (h : r' = none) : Settles .checked r r' where
  isSome := by
    rw [h]
    rfl
  eq := nofun

theorem settles_unchecked {α : Type} {r r' : Option α} (h : r' = r) (hr : r.isSome = true) :
    Settles .unchecked r r' where
  isSome := by
    rw [h, hr]
    rfl
  eq := fun _ => h

theorem settles_beside {α : Type} {r r' other : Option α} (h : r' = other) :
    Settles (.beside other) r r' := by
  cases other with
  | none => exact settles_checked h
  | some a =>
    refine ⟨?_, nofun⟩
    rw [h]
    rfl

end Spot

theorem isSome_mapM {α β : Type} (f : α → Option β) (l : List α) :
    (l.mapM f).isSome = l.all fun a => (f a).isSome := by
  induction l with
  | nil => rfl
  | cons a l ih =>
    rw [List.mapM_cons, List.all_cons, ← ih]
    cases f a with
    | none => rfl
    | some b => cases l.mapM f <;> rfl

theorem mapM_eq_none {α β : Type} {f : α → Option β} {a : α} (h : f a = none)
    (front rest : List α) : (front ++ a :: rest).mapM f = none := by
  rw [← Option.not_isSome_iff_eq_none, isSome_mapM, List.all_append, List.all_cons, h]
  simp

section

variable {α : Type} {key k : Text}

theorem lookup_insert_of_ne (h : key ≠ k) (a : α) (front rest : List (Text × α)) :
    (front ++ (key, a) :: rest).lookup k = (front ++ rest).lookup k := by
  have hk : (k == key) = false := beq_false_of_ne (Ne.symm h)
  rw [List.lookup_append, List.lookup_append, List.lookup_cons, hk]

theorem lookup_eq_none_of_not_mem {entries : List (Text × α)} (h : k ∉ entries.map Prod.fst) :
    entries.lookup k = none := by
  rw [List.lookup_eq_none_iff]
  intro e he
  exact bne_iff_ne.2 fun hk => h (hk ▸ List.mem_map_of_mem he)

theorem lookup_insert_self {front : List (Text × α)} (h : k ∉ front.map Prod.fst) (a : α)
    (rest : List (Text × α)) : (front ++ (k, a) :: rest).lookup k = some a := by
  rw [List.lookup_append, lookup_eq_none_of_not_mem h, List.lookup_cons_self]
  rfl

end

/-! ### Types and lines -/

section

variable (key : Text) (x : Value)

def TypeExpr.keys : List Text := ["type".toList, "args".toList]

/-- A type, and the same with one more key in its table or in that of an argument. -/
inductive TypeExpr.KeyAdded : Value → Value → Prop
  | here (front rest : List (Text × Value)) (hkey : key ∉ TypeExpr.keys) :
    KeyAdded (.table (front ++ rest)) (.table (front ++ (key, x) :: rest))
  | inTable (front rest : List (Text × Value)) (hfront : "args".toList ∉ front.map Prod.fst)
    (before after : List Value) {v v' : Value} (h : KeyAdded v v') :
    KeyAdded (.table (front ++ ("args".toList, .array (before ++ v :: after)) :: rest))
      (.table (front ++ ("args".toList, .array (before ++ v' :: after)) :: rest))
  | inPair (raw : Value) (before after : List Value) {v v' : Value} (h : KeyAdded v v') :
    KeyAdded (.array [raw, .array (before ++ v :: after)])
      (.array [raw, .array (before ++ v' :: after)])

/-- A line, and the same with one more key in a type of it. -/
inductive CodeLine.KeyAdded : Value → Value → Prop
  | inPart (before after : List Value) {v v' : Value} (h : TypeExpr.KeyAdded key x v v') :
    KeyAdded (.array (before ++ v :: after)) (.array (before ++ v' :: after))

end

variable {key : Text} {x v v' : Value}

namespace TypeExpr

theorem listOfItems?_eq (items : List Value) : listOfItems? items = items.mapM ofValue? := by
  induction items with
  | nil => rfl
  | cons v items ih =>
    rw [listOfItems?, ih, List.mapM_cons]
    cases ofValue? v with
    | none => rfl
    | some t => cases items.mapM ofValue? <;> rfl

theorem argsOfEntries?_append {front : List (Text × Value)}
    (h : "args".toList ∉ front.map Prod.fst) (w : Value) (rest : List (Text × Value)) :
    argsOfEntries? (front ++ ("args".toList, w) :: rest) = listOfValue? w := by
  induction front with
  | nil => simp [argsOfEntries?]
  | cons e front ih =>
    rw [List.map_cons, List.mem_cons, not_or] at h
    rw [List.cons_append, argsOfEntries?, if_neg (Ne.symm h.1), ih h.2]

theorem KeyAdded.entryAdded (h : KeyAdded key x v v') : Value.EntryAdded key x v v' := by
  induction h with
  | here front rest hkey => exact .here front rest
  | inTable front rest hfront before after h ih =>
    exact .inEntry front rest _ (.inItem before after ih)
  | inPair raw before after h ih => exact .inItem [raw] [] (.inItem before after ih)

theorem KeyAdded.ofValue?_eq_none (h : KeyAdded key x v v') : ofValue? v' = none := by
  induction h with
  | here front rest hkey =>
    simp only [keys, List.mem_cons, List.not_mem_nil, or_false, not_or] at hkey
    have hother : (decide (key = "type".toList) || decide (key = "args".toList)) = false := by
      rw [decide_eq_false hkey.1, decide_eq_false hkey.2]
      rfl
    rw [ofValue?, List.all_append, List.all_cons, hother, Bool.false_and, Bool.and_false,
      if_neg Bool.false_ne_true]
  | inTable front rest hfront before after h ih =>
    rw [ofValue?, argsOfEntries?_append hfront, listOfValue?, listOfItems?_eq, mapM_eq_none ih]
    split
    · exact Option.bind_fun_none _
    · rfl
  | inPair raw before after h ih =>
    rw [ofValue?, listOfValue?, listOfItems?_eq, mapM_eq_none ih]
    exact Option.bind_fun_none _

end TypeExpr

namespace CodeLine

theorem KeyAdded.entryAdded (h : KeyAdded key x v v') : Value.EntryAdded key x v v' := by
  cases h with
  | inPart before after h => exact .inItem before after h.entryAdded

theorem KeyAdded.ofValue?_eq_none (h : KeyAdded key x v v') : ofValue? v' = none := by
  cases h with
  | inPart before after h =>
    rename_i w w'
    -- a type with a key in it is no text
    have hpart : LinePart.ofValue? w' = (TypeExpr.ofValue? w').map .type := by
      cases h <;> rfl
    rw [h.ofValue?_eq_none] at hpart
    rw [ofValue?, mapM_eq_none hpart]
    rfl

end CodeLine

/-! ### Parts of documentation -/

namespace DocPart

def keys : List Text := ["link".toList, "member".toList]

/-- The keys of the form that a part has. -/
def usedKeys : DocPart → List Text
  | text _ => []
  | link _ => ["link".toList]
  | member _ => ["member".toList]

def linkOfEntries? (entries : List (Text × Value)) : Option DocPart :=
  ((entries.lookup "link".toList).bind TypeExpr.ofValue?).map .link

def memberOfEntries? (entries : List (Text × Value)) : Option DocPart :=
  ((entries.lookup "member".toList).bind textOfValue?).map .member

theorem ofValue?_table (entries : List (Text × Value)) :
    ofValue? (.table entries) = (linkOfEntries? entries).or (memberOfEntries? entries) := by
  unfold ofValue? linkOfEntries? memberOfEntries?
  dsimp only
  cases (entries.lookup "link".toList).bind TypeExpr.ofValue? <;> rfl

/-- A part of documentation, and the same with one more key: one that no form has, one that the form
of the part does not use, or one in the type that a link leads to. -/
inductive KeyAdded (key : Text) (x : Value) : Spot → Value → Value → Prop
  | undeclared (front rest : List (Text × Value)) (hkey : key ∉ keys) :
    KeyAdded key x .unchecked (.table (front ++ rest)) (.table (front ++ (key, x) :: rest))
  | unused (front rest : List (Text × Value)) (hnew : key ∉ (front ++ rest).map Prod.fst)
    {part : DocPart} (h : ofValue? (.table (front ++ (key, x) :: rest)) = some part)
    (hkey : key ∉ part.usedKeys) :
    KeyAdded key x .unchecked (.table (front ++ rest)) (.table (front ++ (key, x) :: rest))
  | inLink (front rest : List (Text × Value)) (hfront : "link".toList ∉ front.map Prod.fst)
    {v v' : Value} (h : TypeExpr.KeyAdded key x v v') :
    KeyAdded key x (.beside (memberOfEntries? (front ++ rest)))
      (.table (front ++ ("link".toList, v) :: rest)) (.table (front ++ ("link".toList, v') :: rest))

section

variable {front rest : List (Text × Value)}

theorem linkOfEntries?_insert (h : key ≠ "link".toList) :
    linkOfEntries? (front ++ (key, x) :: rest) = linkOfEntries? (front ++ rest) := by
  unfold linkOfEntries?
  rw [lookup_insert_of_ne h]

theorem memberOfEntries?_insert (h : key ≠ "member".toList) :
    memberOfEntries? (front ++ (key, x) :: rest) = memberOfEntries? (front ++ rest) := by
  unfold memberOfEntries?
  rw [lookup_insert_of_ne h]

/-- A part that does not use a key is the same without it. -/
theorem ofValue?_of_unused (hnew : key ∉ (front ++ rest).map Prod.fst) {part : DocPart}
    (h : ofValue? (.table (front ++ (key, x) :: rest)) = some part) (hkey : key ∉ part.usedKeys) :
    ofValue? (.table (front ++ rest)) = some part := by
  rw [ofValue?_table] at h ⊢
  rcases Option.or_eq_some_iff.1 h with h | ⟨hlink, h⟩
  · obtain ⟨t, -, rfl⟩ := Option.map_eq_some_iff.1 h
    rw [linkOfEntries?_insert (by simpa [usedKeys] using hkey)] at h
    rw [h, Option.some_or]
  · obtain ⟨s, -, rfl⟩ := Option.map_eq_some_iff.1 h
    rw [memberOfEntries?_insert (by simpa [usedKeys] using hkey)] at h
    have hlink : linkOfEntries? (front ++ rest) = none := by
      by_cases hk : key = "link".toList
      · rw [linkOfEntries?, ← hk, lookup_eq_none_of_not_mem hnew]
        rfl
      · rw [← linkOfEntries?_insert hk, hlink]
    rw [hlink, Option.none_or, h]

end

namespace KeyAdded

variable {s : Spot}

theorem entryAdded (h : KeyAdded key x s v v') : Value.EntryAdded key x v v' := by
  cases h with
  | undeclared front rest hkey => exact .here front rest
  | unused front rest hnew h hkey => exact .here front rest
  | inLink front rest hfront h => exact .inEntry front rest _ h.entryAdded

theorem settles (h : KeyAdded key x s v v') (hv : (ofValue? v).isSome = true) :
    s.Settles (ofValue? v) (ofValue? v') := by
  cases h with
  | undeclared front rest hkey =>
    simp only [keys, List.mem_cons, List.not_mem_nil, or_false, not_or] at hkey
    refine Spot.settles_unchecked ?_ hv
    rw [ofValue?_table, ofValue?_table, linkOfEntries?_insert hkey.1,
      memberOfEntries?_insert hkey.2]
  | unused front rest hnew h hkey =>
    refine Spot.settles_unchecked ?_ hv
    rw [h, ofValue?_of_unused hnew h hkey]
  | inLink front rest hfront h =>
    apply Spot.settles_beside
    rw [ofValue?_table, linkOfEntries?, lookup_insert_self hfront, Option.bind_some,
      h.ofValue?_eq_none, memberOfEntries?_insert (by decide)]
    rfl

end KeyAdded

end DocPart

/-! ### Entries of bodies -/

namespace BodyEntry

def keys : List Text := ["line".toList, "block".toList, "body".toList]

/-- The keys of the form that an entry has. -/
def usedKeys : BodyEntry → List Text
  | text _ => []
  | line _ => ["line".toList]
  | block _ _ => ["block".toList, "body".toList]

def blockOfEntries? (entries : List (Text × Value)) : Option BodyEntry :=
  ((entries.lookup "block".toList).bind textOfValue?).bind fun header =>
    ((entries.lookup "body".toList).bind bodyOfValue?).map fun body => .block header body

theorem bodyOfEntries?_eq (entries : List (Text × Value)) :
    bodyOfEntries? entries = (entries.lookup "body".toList).bind bodyOfValue? := by
  induction entries with
  | nil => rfl
  | cons e entries ih =>
    obtain ⟨k, w⟩ := e
    rw [bodyOfEntries?, List.lookup_cons, ih]
    by_cases hk : k = "body".toList
    · rw [if_pos hk, hk]
      rfl
    · rw [if_neg hk, beq_false_of_ne (Ne.symm hk)]

theorem ofValue?_table (entries : List (Text × Value)) :
    ofValue? (.table entries) = (lineOfEntries? entries).or (blockOfEntries? entries) := by
  rw [ofValue?, bodyOfEntries?_eq]
  cases lineOfEntries? entries <;> rfl

theorem bodyOfItems?_eq (items : List Value) : bodyOfItems? items = items.mapM ofValue? := by
  induction items with
  | nil => rfl
  | cons v items ih =>
    rw [bodyOfItems?, ih, List.mapM_cons]
    cases ofValue? v with
    | none => rfl
    | some e => cases items.mapM ofValue? <;> rfl

/-- An entry of a body, and the same with one more key: one that no form has, one that the form of
the entry does not use, one in a type of its line, or one in an entry of its block. -/
inductive KeyAdded (key : Text) (x : Value) : Spot → Value → Value → Prop
  | undeclared (front rest : List (Text × Value)) (hkey : key ∉ keys) :
    KeyAdded key x .unchecked (.table (front ++ rest)) (.table (front ++ (key, x) :: rest))
  | unused (front rest : List (Text × Value)) (hnew : key ∉ (front ++ rest).map Prod.fst)
    {entry : BodyEntry} (h : ofValue? (.table (front ++ (key, x) :: rest)) = some entry)
    (hkey : key ∉ entry.usedKeys) :
    KeyAdded key x .unchecked (.table (front ++ rest)) (.table (front ++ (key, x) :: rest))
  | inLine (front rest : List (Text × Value)) (hfront : "line".toList ∉ front.map Prod.fst)
    {v v' : Value} (h : CodeLine.KeyAdded key x v v') :
    KeyAdded key x (.beside (blockOfEntries? (front ++ rest)))
      (.table (front ++ ("line".toList, v) :: rest)) (.table (front ++ ("line".toList, v') :: rest))
  | inBlock (front rest : List (Text × Value)) (hfront : "body".toList ∉ front.map Prod.fst)
    (hline : lineOfEntries? (front ++ rest) = none) (before after : List Value) {s : Spot}
    {v v' : Value} (h : KeyAdded key x s v v') :
    KeyAdded key x s (.table (front ++ ("body".toList, .array (before ++ v :: after)) :: rest))
      (.table (front ++ ("body".toList, .array (before ++ v' :: after)) :: rest))

section

variable {front rest : List (Text × Value)}

theorem lineOfEntries?_insert (h : key ≠ "line".toList) :
    lineOfEntries? (front ++ (key, x) :: rest) = lineOfEntries? (front ++ rest) := by
  unfold lineOfEntries?
  rw [lookup_insert_of_ne h]

theorem blockOfEntries?_insert (h : key ≠ "block".toList) (h' : key ≠ "body".toList) :
    blockOfEntries? (front ++ (key, x) :: rest) = blockOfEntries? (front ++ rest) := by
  unfold blockOfEntries?
  rw [lookup_insert_of_ne h, lookup_insert_of_ne h']

/-- An entry that does not use a key is the same without it. -/
theorem ofValue?_of_unused (hnew : key ∉ (front ++ rest).map Prod.fst) {entry : BodyEntry}
    (h : ofValue? (.table (front ++ (key, x) :: rest)) = some entry)
    (hkey : key ∉ entry.usedKeys) : ofValue? (.table (front ++ rest)) = some entry := by
  rw [ofValue?_table] at h ⊢
  rcases Option.or_eq_some_iff.1 h with h | ⟨hline, h⟩
  · obtain ⟨l, -, rfl⟩ := Option.map_eq_some_iff.1 h
    rw [lineOfEntries?_insert (by simpa [usedKeys] using hkey)] at h
    rw [h, Option.some_or]
  · obtain ⟨header, -, hblock⟩ := Option.bind_eq_some_iff.1 h
    obtain ⟨body, -, rfl⟩ := Option.map_eq_some_iff.1 hblock
    have hkeys : key ≠ "block".toList ∧ key ≠ "body".toList := by
      simpa [usedKeys] using hkey
    rw [blockOfEntries?_insert hkeys.1 hkeys.2] at h
    have hline : lineOfEntries? (front ++ rest) = none := by
      by_cases hk : key = "line".toList
      · rw [lineOfEntries?, ← hk, lookup_eq_none_of_not_mem hnew]
        rfl
      · rw [← lineOfEntries?_insert hk, hline]
    rw [hline, Option.none_or, h]

/-- An entry without a line, by what stands in its body. -/
theorem ofValue?_block (hfront : "body".toList ∉ front.map Prod.fst)
    (hline : lineOfEntries? (front ++ rest) = none) (items : List Value) :
    ofValue? (.table (front ++ ("body".toList, .array items) :: rest)) =
      (((front ++ rest).lookup "block".toList).bind textOfValue?).bind fun header =>
        (items.mapM ofValue?).map fun body => .block header body := by
  rw [ofValue?_table, lineOfEntries?_insert (by decide), hline, Option.none_or, blockOfEntries?,
    lookup_insert_of_ne (by decide), lookup_insert_self hfront, Option.bind_some, bodyOfValue?,
    bodyOfItems?_eq]

namespace KeyAdded

variable {s : Spot}

theorem entryAdded (h : KeyAdded key x s v v') : Value.EntryAdded key x v v' := by
  induction h with
  | undeclared front rest hkey => exact .here front rest
  | unused front rest hnew h hkey => exact .here front rest
  | inLine front rest hfront h => exact .inEntry front rest _ h.entryAdded
  | inBlock front rest hfront hline before after h ih =>
    exact .inEntry front rest _ (.inItem before after ih)

theorem settles (h : KeyAdded key x s v v') (hv : (ofValue? v).isSome = true) :
    s.Settles (ofValue? v) (ofValue? v') := by
  induction h with
  | undeclared front rest hkey =>
    simp only [keys, List.mem_cons, List.not_mem_nil, or_false, not_or] at hkey
    refine Spot.settles_unchecked ?_ hv
    rw [ofValue?_table, ofValue?_table, lineOfEntries?_insert hkey.1,
      blockOfEntries?_insert hkey.2.1 hkey.2.2]
  | unused front rest hnew h hkey =>
    refine Spot.settles_unchecked ?_ hv
    rw [h, ofValue?_of_unused hnew h hkey]
  | inLine front rest hfront h =>
    apply Spot.settles_beside
    rw [ofValue?_table, lineOfEntries?, lookup_insert_self hfront, Option.bind_some,
      h.ofValue?_eq_none, blockOfEntries?_insert (by decide) (by decide)]
    rfl
  | @inBlock front rest hfront hline before after s v v' h ih =>
    have hblock := ofValue?_block hfront hline
    -- the block can be read where its header and all its entries can
    have hisSome (w : Value) :
        (ofValue? (.table
          (front ++ ("body".toList, .array (before ++ w :: after)) :: rest))).isSome =
          ((((front ++ rest).lookup "block".toList).bind textOfValue?).isSome &&
            ((before.all fun e => (ofValue? e).isSome) && ((ofValue? w).isSome &&
              after.all fun e => (ofValue? e).isSome))) := by
      have hbody := isSome_mapM ofValue? (before ++ w :: after)
      rw [List.all_append, List.all_cons] at hbody
      rw [hblock, ← hbody]
      cases ((front ++ rest).lookup "block".toList).bind textOfValue? with
      | none => rfl
      | some header => exact Option.isSome_map
    rw [hisSome, Bool.and_eq_true, Bool.and_eq_true, Bool.and_eq_true] at hv
    obtain ⟨hheader, hbefore, hv, hafter⟩ := hv
    refine ⟨?_, fun hs => ?_⟩
    · rw [hisSome, hheader, hbefore, hafter, Bool.true_and, Bool.true_and, Bool.and_true]
      exact (ih hv).isSome
    · rw [hblock, hblock, mapM_replace ((ih hv).eq hs)]

end KeyAdded

end

end BodyEntry

/-! ### Documents -/

/-- Data of a manifest, and the same with one more key in one of the tables that are read. -/
inductive KeyAdded (key : Text) (x : Value) : {α : Type} → Spot → Reader α → Value → Value → Prop
  | record {α : Type} {shape : RecordShape α} (hs : IsRecord shape)
    (front rest : List (Text × Value)) (hkey : key ∉ shape.keys) :
    KeyAdded key x .checked shape.read (.table (front ++ rest))
      (.table (front ++ (key, x) :: rest))
  | type {v v' : Value} (h : TypeExpr.KeyAdded key x v v') :
    KeyAdded key x .checked .type v v'
  | line {v v' : Value} (h : CodeLine.KeyAdded key x v v') :
    KeyAdded key x .checked .line v v'
  | docPart {s : Spot} {v v' : Value} (h : DocPart.KeyAdded key x s v v') :
    KeyAdded key x s (.form "DocPart" DocPart.ofValue?) v v'
  | bodyEntry {s : Spot} {v v' : Value} (h : BodyEntry.KeyAdded key x s v v') :
    KeyAdded key x s (.form "BodyLine" BodyEntry.ofValue?) v v'
  | within {α β : Type} {outer : Reader α} {inner : Reader β} {plug : Value → Value} {s : Spot}
    {v v' : Value} (hp : Reader.Within outer inner plug) (h : KeyAdded key x s inner v v') :
    KeyAdded key x s outer (plug v) (plug v')

/-- What is read before and after a key is added with a value. Every number in the value must be
readable, also where the key is passed over. -/
structure Spot.Decides {ε α : Type} (s : Spot) (x : Value) (r r' : Except ε α) : Prop where
  isOk : r'.isOk = (decide (s ≠ .checked) && x.isReadable Value.maxUnsigned)
  eq : s = .unchecked → x.isReadable Value.maxUnsigned = true → r' = r

theorem isOk_form {α : Type} (kind : String) (f : Value → Option α) (v : Value) :
    (Reader.form kind f v).isOk = (v.isReadable Value.maxUnsigned && (f v).isSome) := by
  unfold Reader.form
  cases v.isReadable Value.maxUnsigned with
  | false => rfl
  | true =>
    rw [if_pos rfl]
    cases f v <;> rfl

theorem Spot.decides_form {α : Type} {f : Value → Option α} {s : Spot} {kind : String}
    (h : (f v).isSome = true → s.Settles (f v) (f v')) (he : Value.EntryAdded key x v v')
    (hv : (Reader.form kind f v).isOk = true) :
    s.Decides x (Reader.form kind f v) (Reader.form kind f v') := by
  have hreadable := he.isReadable_eq Value.maxUnsigned
  rw [isOk_form, Bool.and_eq_true] at hv
  rw [hv.1, Bool.true_and] at hreadable
  have hsettles := h hv.2
  refine ⟨?_, fun hs hx => ?_⟩
  · rw [isOk_form, hreadable, hsettles.isSome, Bool.and_comm]
  · unfold Reader.form
    rw [hreadable, hx, hv.1, hsettles.eq hs]

theorem KeyAdded.decides {α : Type} {s : Spot} {reader : Reader α}
    (h : KeyAdded key x s reader v v') (hv : (reader v).isOk = true) :
    s.Decides x (reader v) (reader v') := by
  induction h with
  | record hs front rest hkey =>
    refine ⟨?_, nofun⟩
    rename_i shape
    -- whatever the value is, no field of the record has the key
    have hentry : shape.readsEntry (key, x) = false := by
      have hnone : shape.field? key = none := by
        rw [RecordShape.field?, List.find?_eq_none]
        intro f hf hk
        exact hkey (List.mem_map.2 ⟨f, hf, of_decide_eq_true hk⟩)
      rw [RecordShape.readsEntry, hnone]
      rfl
    show (shape.readTable (front ++ (key, x) :: rest)).isOk = _
    rw [RecordShape.isOk_readTable hs.regular, List.all_append, List.all_cons, hentry,
      Bool.false_and, Bool.and_false]
    rfl
  | type h =>
    unfold Reader.type at hv ⊢
    exact Spot.decides_form (fun _ => Spot.settles_checked h.ofValue?_eq_none) h.entryAdded hv
  | line h =>
    unfold Reader.line at hv ⊢
    exact Spot.decides_form (fun _ => Spot.settles_checked h.ofValue?_eq_none) h.entryAdded hv
  | docPart h => exact Spot.decides_form h.settles h.entryAdded hv
  | bodyEntry h => exact Spot.decides_form h.settles h.entryAdded hv
  | @within _ _ _ _ _ _ v v' hp h ih =>
    obtain ⟨hinner, hwhole⟩ := hp.isOk_eq hv v'
    have hpart := ih hinner
    refine ⟨?_, fun hs hx => hp.read_eq (hpart.eq hs hx)⟩
    rw [hwhole, hpart.isOk]

namespace Manifest

theorem isOk_ofText? {source : Text} {entries : List (Text × Value)}
    (h : Toml.parse? source = some entries) :
    (ofText? source).isOk = (shape.read (.table entries)).isOk := by
  unfold ofText? RecordShape.read
  rw [h]
  dsimp only
  cases shape.readTable entries <;> rfl

/-- A manifest to which a key is added can no longer be read exactly if the key stands in a record,
or in a type that does not lie in an entry with another form, or has a number in its value that is
out of range. In a part of documentation or an entry of a body the key is passed over: the manifest
that is read is the same. -/
theorem ofText?_of_keyAdded (source source' : Text) (entries entries' : List (Text × Value))
    (m : Manifest) (key : Text) (x : Value) (s : Spot) (h : Toml.parse? source = some entries)
    (h' : Toml.parse? source' = some entries') (hm : ofText? source = .ok m)
    (hadd : KeyAdded key x s shape.read (.table entries) (.table entries')) :
    ((∃ e, ofText? source' = .error e) ↔
        s = .checked ∨ x.isReadable Value.maxUnsigned = false) ∧
      (s = .unchecked → x.isReadable Value.maxUnsigned = true → ofText? source' = .ok m) := by
  have hread : (shape.read (.table entries)).isOk = true := by
    rw [← isOk_ofText? h, hm]
    rfl
  have hdecides := hadd.decides hread
  constructor
  · have herror : (∃ e, ofText? source' = .error e) ↔ (ofText? source').isOk = false := by
      cases ofText? source' with
      | error e => exact ⟨fun _ => rfl, fun _ => ⟨e, rfl⟩⟩
      | ok m' => exact ⟨nofun, nofun⟩
    rw [herror, isOk_ofText? h', hdecides.isOk, Bool.and_eq_false_iff, decide_eq_false_iff_not,
      Decidable.not_not]
  · intro hs hx
    have hsame : shape.readTable entries' = shape.readTable entries := hdecides.eq hs hx
    unfold ofText? at hm ⊢
    rw [h] at hm
    rw [h']
    dsimp only at hm ⊢
    rw [hsame]
    cases hr : shape.readTable entries with
    | error e => simp [hr, Except.mapError] at hm
    | ok m' =>
      rw [hr] at hm
      exact hm

/-- A document with a constructor whose body has a line with a type in a block. -/
def blockDocument (type : List (Text × Value)) : List (Text × Value) :=
  [("classes".toList, .array [.table
    [("constructors".toList, .array [.table
      [("body".toList, .array [.table
        [("block".toList, .string ['x']),
          ("body".toList, .array [.table [("line".toList, .array [.table type])]])]])]]),
      ("name".toList, .string ['A'])]])]

theorem keyAdded_blockDocument {key : Text} (x : Value) (hkey : key ∉ TypeExpr.keys)
    (front rest : List (Text × Value)) :
    KeyAdded key x .checked shape.read (.table (blockDocument (front ++ rest)))
      (.table (blockDocument (front ++ (key, x) :: rest))) :=
  have hline : BodyEntry.KeyAdded key x .checked
      (.table [("line".toList, .array [.table (front ++ rest)])])
      (.table [("line".toList, .array [.table (front ++ (key, x) :: rest)])]) :=
    .inLine [] [] List.not_mem_nil (.inPart [] [] (.here front rest hkey))
  have hblock := BodyEntry.KeyAdded.inBlock
    [("block".toList, .string ['x'])] [] (by decide) rfl [] [] hline
  have hconstructor := KeyAdded.within
    (.field .ofConstructor rfl (FieldShape.holds_optional _ _ _) [] [])
    (.within (.item _ [] []) (.bodyEntry hblock))
  have hclass := KeyAdded.within
    (.field .ofClass rfl (FieldShape.holds_optional _ _ _) [] [("name".toList, .string ['A'])])
    (.within (.item _ [] []) hconstructor)
  KeyAdded.within (.field .manifest rfl (FieldShape.holds_optional _ _ _) [] [])
    (.within (.item _ [] []) hclass)

def blockText : Text :=
  ("classes=[\x7bname=\"A\",constructors=[\x7bbody=[" ++
    "\x7bblock=\"x\",body=[\x7bline=[\x7btype=\"B\"\x7d]\x7d]\x7d]\x7d]\x7d]").toList

def strayText : Text :=
  ("classes=[\x7bname=\"A\",constructors=[\x7bbody=[" ++
    "\x7bblock=\"x\",body=[\x7bline=[\x7btype=\"B\",since=2\x7d]\x7d]\x7d]\x7d]\x7d]").toList

theorem parse?_blockText :
    Toml.parse? blockText = some (blockDocument ([] ++ [("type".toList, .string ['B'])])) := by
  cbv

set_option maxRecDepth 800 in
theorem parse?_strayText :
    Toml.parse? strayText = some (blockDocument
      ([] ++ [("since".toList, .integer 2), ("type".toList, .string ['B'])])) := by
  cbv

theorem strayText_error :
    (∃ m, ofText? blockText = .ok m) ∧ ∃ e, ofText? strayText = .error e := by
  have hread : (ofText? blockText).isOk = true := by
    rw [isOk_ofText? parse?_blockText]
    decide +kernel
  cases hm : ofText? blockText with
  | error e => simp [hm, Except.isOk, Except.toBool] at hread
  | ok m =>
    have houtcome := ofText?_of_keyAdded blockText strayText _ _ m "since".toList (.integer 2)
      .checked parse?_blockText parse?_strayText hm (keyAdded_blockDocument _ (by decide) _ _)
    exact ⟨⟨m, rfl⟩, houtcome.1.2 (Or.inl rfl)⟩

def linkText : Text :=
  "[[classes]]\nname = \"p.A\"\ndoc = [\x7b link = \"q.B\" \x7d]\n".toList

def sinceText : Text :=
  "[[classes]]\nname = \"p.A\"\ndoc = [\x7b link = \"q.B\", since = \"2\" \x7d]\n".toList

/-- A link with a key that no part of documentation has is read like the link without it. -/
theorem sinceText_read :
    Toml.parse? sinceText = some [("classes".toList, .array [.table
        [("doc".toList, .array [.table
          [("link".toList, .string "q.B".toList), ("since".toList, .string ['2'])]]),
        ("name".toList, .string "p.A".toList)]])] ∧
      "since".toList ∉ DocPart.keys ∧
      ∃ m, ofText? linkText = .ok m ∧ ofText? sinceText = .ok m := by
  have h : Toml.parse? sinceText = some [("classes".toList, .array [.table
      [("doc".toList, .array [.table
        [("link".toList, .string "q.B".toList), ("since".toList, .string ['2'])]]),
      ("name".toList, .string "p.A".toList)]])] := by
    cbv
  refine ⟨h, by decide,
    { classes := [{ name := "p.A".toList, doc := [.link (.name "q.B".toList)] }] }, ?_, ?_⟩
  · cbv
  · unfold ofText?
    rw [h]
    cbv

end Manifest

end JavaSource
