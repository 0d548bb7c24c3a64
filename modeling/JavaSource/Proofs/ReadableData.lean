import JavaSource.Manifest.OfToml

/-!
# Which data can be read

Whether a list or a record can be read is settled part by part: no field of a record changes what
may stand in another. So a value that takes the place of another counts only for itself, and where
it is read like the other the whole is too.
-/

namespace JavaSource

open Toml (Value)

theorem isOk_map {ε α β : Type} (f : α → β) (r : Except ε α) : (r.map f).isOk = r.isOk := by
  cases r <;> rfl

theorem isOk_bind {ε α β : Type} {f : α → Except ε β} {b : Bool} (r : Except ε α)
    (h : ∀ a, (f a).isOk = b) : (r >>= f).isOk = (r.isOk && b) := by
  cases r with
  | error e => rfl
  | ok a => exact h a

theorem isOk_mapM {ε α β : Type} (f : α → Except ε β) (l : List α) :
    (l.mapM f).isOk = l.all fun a => (f a).isOk := by
  induction l with
  | nil => rfl
  | cons a l ih =>
    rw [List.mapM_cons, List.all_cons]
    apply isOk_bind
    intro b
    rw [isOk_bind (b := true) (l.mapM f) fun _ => rfl, ih, Bool.and_true]

theorem mapM_replace {m : Type → Type} [Monad m] [LawfulMonad m] {α β : Type} {f : α → m β}
    {a a' : α} (h : f a' = f a) (front rest : List α) :
    (front ++ a' :: rest).mapM f = (front ++ a :: rest).mapM f := by
  rw [List.mapM_append, List.mapM_append, List.mapM_cons, List.mapM_cons, h]

namespace FieldShape

variable {α β : Type}

/-- The value of a field is what a reader reads, put into the record. -/
def Holds (f : FieldShape α) (reader : Reader β) : Prop :=
  ∃ set : α → β → α, ∀ v a, f.read v a = (reader v).map (set a)

theorem holds_needed (key : String) (reader : Reader β) (set : α → β → α) :
    (needed key reader set).Holds reader :=
  ⟨set, fun _ _ => rfl⟩

theorem holds_optional (key : String) (reader : Reader β) (set : α → β → α) :
    (optional key reader set).Holds reader :=
  ⟨set, fun _ _ => rfl⟩

/-- Whether a field can be read does not depend on the fields in front of it. -/
def Regular (f : FieldShape α) : Prop := ∀ v a b, (f.read v a).isOk = (f.read v b).isOk

variable {f : FieldShape α} {reader : Reader β}

theorem Holds.isOk_eq (h : f.Holds reader) (v : Value) (a : α) :
    (f.read v a).isOk = (reader v).isOk := by
  obtain ⟨set, hread⟩ := h
  rw [hread, isOk_map]

theorem Holds.regular (h : f.Holds reader) : f.Regular :=
  fun v a b => (h.isOk_eq v a).trans (h.isOk_eq v b).symm

theorem Holds.read_eq {v v' : Value} (h : f.Holds reader) (hv : reader v' = reader v) :
    f.read v' = f.read v := by
  obtain ⟨set, hread⟩ := h
  funext a
  rw [hread, hread, hv]

end FieldShape

/-! ### Records -/

namespace RecordShape

variable {α : Type}

def Regular (shape : RecordShape α) : Prop := ∀ f ∈ shape.fields, f.Regular

def readsEntry (shape : RecordShape α) (entry : Text × Value) : Bool :=
  (shape.field? entry.1).any fun f => (f.read entry.2 shape.empty).isOk

def hasRequired (shape : RecordShape α) (entries : List (Text × Value)) : Bool :=
  (shape.fields.find? fun f => f.required && !(entries.any fun e => e.1 = f.key)).isNone

def readsItems (shape : RecordShape α) : List (FieldShape α) → List Value → Bool
  | [], _ => true
  | f :: fs, v :: vs => (f.read v shape.empty).isOk && readsItems shape fs vs
  | f :: fs, [] => !f.required && readsItems shape fs []

variable {shape : RecordShape α}

theorem isOk_readEntry (h : shape.Regular) (a : α) (entry : Text × Value) :
    (shape.readEntry a entry).isOk = shape.readsEntry entry := by
  unfold readEntry readsEntry
  cases hf : shape.field? entry.1 with
  | none => rfl
  | some f => exact h f (List.mem_of_find?_eq_some hf) entry.2 a shape.empty

theorem isOk_readEntries (h : shape.Regular) (a : α) (entries : List (Text × Value)) :
    (entries.foldlM shape.readEntry a).isOk = entries.all shape.readsEntry := by
  induction entries generalizing a with
  | nil => rfl
  | cons e entries ih =>
    rw [List.foldlM_cons, isOk_bind _ ih, isOk_readEntry h, List.all_cons]

theorem isOk_readTable (h : shape.Regular) (entries : List (Text × Value)) :
    (shape.readTable entries).isOk =
      (entries.all shape.readsEntry && shape.hasRequired entries) := by
  unfold readTable hasRequired
  rw [isOk_bind (b := shape.hasRequired entries), isOk_readEntries h]
  · rfl
  · intro a
    unfold hasRequired
    cases shape.fields.find? fun f => f.required && !(entries.any fun e => e.1 = f.key) with
    | none => rfl
    | some f => rfl

theorem isOk_readItems {fs : List (FieldShape α)} (h : ∀ f ∈ fs, f.Regular) (index : Nat)
    (vs : List Value) (a : α) :
    (shape.readItems index fs vs a).isOk = shape.readsItems fs vs := by
  induction fs generalizing index vs a with
  | nil => rfl
  | cons f fs ih =>
    have hrest := ih fun g hg => h g (List.mem_cons_of_mem _ hg)
    cases vs with
    | nil =>
      rw [readItems, readsItems]
      cases f.required with
      | true => rfl
      | false => exact hrest _ _ _
    | cons v vs =>
      rw [readItems, readsItems, isOk_bind _ fun b => hrest (index + 1) vs b,
        h f (List.mem_cons_self ..) v a shape.empty]

theorem readsItems_append {before : List (FieldShape α)} {vs : List Value}
    (h : vs.length = before.length) (fs : List (FieldShape α)) (ws : List Value) :
    shape.readsItems (before ++ fs) (vs ++ ws) =
      (shape.readsItems before vs && shape.readsItems fs ws) := by
  induction before generalizing vs with
  | nil =>
    obtain rfl := List.length_eq_zero_iff.1 h
    rfl
  | cons f before ih =>
    obtain ⟨v, vs, rfl⟩ := List.exists_cons_of_length_eq_add_one h
    have hlength : vs.length = before.length := by
      simpa using h
    simp only [List.cons_append, readsItems, ih hlength, Bool.and_assoc]

section Replace

variable {β : Type} {f : FieldShape α} {reader : Reader β} {v v' : Value}

theorem readEntry_replace {key : Text} (hf : shape.field? key = some f) (hr : f.Holds reader)
    (hv : reader v' = reader v) (a : α) :
    shape.readEntry a (key, v') = shape.readEntry a (key, v) := by
  unfold readEntry
  simp only [hf, hr.read_eq hv]

theorem readTable_replace {key : Text} (hf : shape.field? key = some f) (hr : f.Holds reader)
    (hv : reader v' = reader v) (front rest : List (Text × Value)) :
    shape.readTable (front ++ (key, v') :: rest) = shape.readTable (front ++ (key, v) :: rest) := by
  unfold readTable
  simp only [List.foldlM_append, List.foldlM_cons, readEntry_replace hf hr hv, List.any_append,
    List.any_cons]

theorem isOk_readTable_replace (h : shape.Regular) {key : Text} (hf : shape.field? key = some f)
    (hr : f.Holds reader) {front rest : List (Text × Value)}
    (hv : (shape.readTable (front ++ (key, v) :: rest)).isOk = true) :
    (reader v).isOk = true ∧
      (shape.readTable (front ++ (key, v') :: rest)).isOk = (reader v').isOk := by
  have hentry : ∀ w, shape.readsEntry (key, w) = (reader w).isOk := by
    intro w
    unfold readsEntry
    rw [hf]
    exact hr.isOk_eq w shape.empty
  have hrequired : shape.hasRequired (front ++ (key, v') :: rest) =
      shape.hasRequired (front ++ (key, v) :: rest) := by
    simp only [hasRequired, List.any_append, List.any_cons]
  simp only [isOk_readTable h, List.all_append, List.all_cons, hentry, Bool.and_eq_true] at hv
  obtain ⟨⟨hfront, hv, hrest⟩, hkeys⟩ := hv
  refine ⟨hv, ?_⟩
  simp only [isOk_readTable h, List.all_append, List.all_cons, hentry, hrequired, hfront, hrest,
    hkeys, Bool.true_and, Bool.and_true]

theorem readItems_replace {before : List (FieldShape α)} (hr : f.Holds reader)
    (hv : reader v' = reader v) {vs : List Value} (h : vs.length = before.length)
    (after : List (FieldShape α)) (ws : List Value) (index : Nat) (a : α) :
    shape.readItems index (before ++ f :: after) (vs ++ v' :: ws) a =
      shape.readItems index (before ++ f :: after) (vs ++ v :: ws) a := by
  induction before generalizing vs index a with
  | nil =>
    obtain rfl := List.length_eq_zero_iff.1 h
    simp only [List.nil_append, readItems, hr.read_eq hv]
  | cons g before ih =>
    obtain ⟨u, vs, rfl⟩ := List.exists_cons_of_length_eq_add_one h
    have hlength : vs.length = before.length := by
      simpa using h
    simp only [List.cons_append, readItems, ih hlength]

theorem isOk_readItems_replace (h : shape.Regular) {before after : List (FieldShape α)}
    (hf : shape.fields = before ++ f :: after) (hr : f.Holds reader) {vs ws : List Value}
    (hlength : vs.length = before.length) {a : α}
    (hv : (shape.readItems 0 shape.fields (vs ++ v :: ws) a).isOk = true) :
    (reader v).isOk = true ∧
      (shape.readItems 0 shape.fields (vs ++ v' :: ws) a).isOk = (reader v').isOk := by
  have hitems : ∀ w, (shape.readItems 0 shape.fields (vs ++ w :: ws) a).isOk =
      (shape.readsItems before vs && ((reader w).isOk && shape.readsItems after ws)) := by
    intro w
    rw [isOk_readItems h, hf, readsItems_append hlength, readsItems, hr.isOk_eq]
  rw [hitems, Bool.and_eq_true, Bool.and_eq_true] at hv
  obtain ⟨hfront, hv, hrest⟩ := hv
  refine ⟨hv, ?_⟩
  rw [hitems, hfront, hrest, Bool.true_and, Bool.and_true]

end Replace

end RecordShape

/-! ### Data inside other data -/

/-- The records that a manifest consists of. -/
inductive IsRecord : {α : Type} → RecordShape α → Prop
  | manifest : IsRecord Manifest.shape
  | settings : IsRecord Settings.shape
  | ofClass : IsRecord ClassDecl.shape
  | ofField : IsRecord FieldDecl.shape
  | ofConstructor : IsRecord ConstructorDecl.shape
  | ofMethod : IsRecord MethodDecl.shape
  | ofArgument : IsRecord ArgumentDecl.shape

theorem IsRecord.regular {α : Type} {shape : RecordShape α} (h : IsRecord shape) :
    shape.Regular := by
  have hneeded {α β : Type} {key : String} {reader : Reader β} {set : α → β → α}
      {fs : List (FieldShape α)} (hfs : ∀ g ∈ fs, g.Regular) :
      ∀ g ∈ .needed key reader set :: fs, g.Regular :=
    List.forall_mem_cons.2 ⟨(FieldShape.holds_needed key reader set).regular, hfs⟩
  have hoptional {α β : Type} {key : String} {reader : Reader β} {set : α → β → α}
      {fs : List (FieldShape α)} (hfs : ∀ g ∈ fs, g.Regular) :
      ∀ g ∈ .optional key reader set :: fs, g.Regular :=
    List.forall_mem_cons.2 ⟨(FieldShape.holds_optional key reader set).regular, hfs⟩
  cases h with
  | manifest => exact hoptional (hoptional nofun)
  | settings => exact hoptional (hoptional nofun)
  | ofClass =>
    apply hneeded
    iterate 11 apply hoptional
    exact nofun
  | ofField =>
    apply hneeded
    apply hneeded
    iterate 5 apply hoptional
    exact nofun
  | ofConstructor =>
    iterate 6 apply hoptional
    exact nofun
  | ofMethod =>
    apply hneeded
    iterate 10 apply hoptional
    exact nofun
  | ofArgument => exact hoptional (hneeded nofun)

/-- Where a reader reads part of a value by another reader: a record in its fields, by their keys or
by their positions, and a list in its items. -/
inductive Reader.Within : {α β : Type} → Reader α → Reader β → (Value → Value) → Prop
  | field {α β : Type} {shape : RecordShape α} (hs : IsRecord shape) {key : Text}
    {f : FieldShape α} {reader : Reader β} (hf : shape.field? key = Option.some f)
    (hr : f.Holds reader) (front rest : List (Text × Value)) :
    Within shape.read reader fun v => .table (front ++ (key, v) :: rest)
  | position {α β : Type} {shape : RecordShape α} (hs : IsRecord shape)
    {before after : List (FieldShape α)} {f : FieldShape α} {reader : Reader β}
    (hf : shape.fields = before ++ f :: after) (hr : f.Holds reader) {vs : List Value}
    (hlength : vs.length = before.length) (ws : List Value) :
    Within shape.read reader fun v => .array (vs ++ v :: ws)
  | item {β : Type} (reader : Reader β) (front rest : List Value) :
    Within (.list reader) reader fun v => .array (front ++ v :: rest)
  | present {β : Type} (reader : Reader β) : Within (.some reader) reader fun v => v

namespace Reader.Within

variable {α β : Type} {outer : Reader α} {inner : Reader β} {plug : Value → Value} {v v' : Value}

theorem read_eq (h : Within outer inner plug) (hv : inner v' = inner v) :
    outer (plug v') = outer (plug v) := by
  cases h with
  | field hs hf hr front rest => exact RecordShape.readTable_replace hf hr hv front rest
  | position hs hf hr hlength ws =>
    unfold RecordShape.read
    dsimp only
    rw [hf]
    exact RecordShape.readItems_replace hr hv hlength _ ws 0 _
  | item reader front rest => exact mapM_replace hv front rest
  | present reader => exact congrArg (Except.map Option.some) hv

/-- Where the whole can be read, so can the part; with another part it is up to that part. -/
theorem isOk_eq (h : Within outer inner plug) (hv : (outer (plug v)).isOk = true) (v' : Value) :
    (inner v).isOk = true ∧ (outer (plug v')).isOk = (inner v').isOk := by
  cases h with
  | field hs hf hr front rest => exact RecordShape.isOk_readTable_replace hs.regular hf hr hv
  | position hs hf hr hlength ws =>
    exact RecordShape.isOk_readItems_replace hs.regular hf hr hlength hv
  | item reader front rest =>
    have hitems (w : Value) : (Reader.list inner (.array (front ++ w :: rest))).isOk =
        ((front.all fun u => (inner u).isOk) && ((inner w).isOk &&
          rest.all fun u => (inner u).isOk)) := by
      rw [Reader.list, isOk_mapM, List.all_append, List.all_cons]
    rw [hitems, Bool.and_eq_true, Bool.and_eq_true] at hv
    obtain ⟨hfront, hv, hrest⟩ := hv
    exact ⟨hv, by rw [hitems, hfront, hrest, Bool.true_and, Bool.and_true]⟩
  | present reader =>
    have hsome (w : Value) : (Reader.some inner w).isOk = (inner w).isOk := isOk_map _ _
    rw [hsome] at hv
    exact ⟨hv, hsome v'⟩

end Reader.Within

end JavaSource
