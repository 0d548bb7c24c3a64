import JavaSource.Part
import JavaSource.Proofs.LineBreaks
import JavaSource.Proofs.ShiftedText

/-!
# Parts without line breaks in their names

The texts in code and in comments are cut into lines, and the rest of a part is made of names and
fixed words. Where no name has a line break, a part other than a class asks for plain operations
only.
-/

namespace JavaSource

open Text WriteOp

/-! ### The names that a part writes itself -/

def DocFragment.memberNames : DocFragment → List Text
  | text _ => []
  | typeLink _ => []
  | memberLink m => [m.name]

def Doc.memberNames (doc : Doc) : List Text := doc.flatMap DocFragment.memberNames

/-- The text between the braces of a link. -/
def DocFragment.link? (naming : Naming) : DocFragment → Option Text
  | text _ => none
  | typeLink t => some (t.text naming)
  | memberLink m => some (m.text naming)

/-- No link of a comment has a line break in its text. -/
def Doc.LinksUnbroken (naming : Naming) (doc : Doc) : Prop :=
  ∀ d ∈ doc, ∀ s ∈ d.link? naming, '\n' ∉ s

/-- The names in a field that are not names of classes. -/
def Field.identifiers (f : Field) : List Text := f.name :: Doc.memberNames f.doc

def Method.identifiers (m : Method) : List Text :=
  m.name :: m.arguments.map Argument.name ++ Doc.memberNames m.doc

def ClassDef.identifiers (c : ClassDef) : List Text :=
  c.name.simple :: Doc.memberNames c.doc ++ c.fields.flatMap Field.identifiers ++
    c.methods.flatMap Method.identifiers

def Part.identifiers : Part → List Text
  | code _ => []
  | doc d => Doc.memberNames d
  | field f => f.identifiers
  | method m => m.identifiers
  | classDef c => c.identifiers

/-- No name that a part writes has a line break in it. -/
structure Part.NamesUnbroken (p : Part) : Prop where
  classes : ∀ c ∈ p.classNames, '\n' ∉ c.qualified
  identifiers : ∀ n ∈ p.identifiers, '\n' ∉ n

/-! ### Plain parts -/

section Plain

open Layout

variable {unit : Text} {naming : Naming}

theorem Layout.plainAll_opsAll_flatMap {α : Type} {f : α → List Layout} {l : List α}
    (h : ∀ a ∈ l, PlainAll (opsAll unit (f a))) : PlainAll (opsAll unit (l.flatMap f)) := by
  induction l with
  | nil => exact plainAll_nil
  | cons a l ih =>
    have hhead := h a (List.mem_cons_self ..)
    have htail := ih fun b hb => h b (List.mem_cons_of_mem _ hb)
    rw [List.flatMap_cons, plainAll_opsAll_append]
    exact ⟨hhead, htail⟩

theorem DocFragment.plainAll_layout {d : DocFragment} (h : ∀ s ∈ d.link? naming, '\n' ∉ s) :
    PlainAll (opsAll unit (d.layout naming)) := by
  cases d with
  | text s => exact plainAll_ofText unit s
  | typeLink t =>
    exact plainAll_opsAll_singleton.2
      (plainAll_ops_text (break_not_mem_linkTo isBreak_newline (h _ rfl)))
  | memberLink m =>
    exact plainAll_opsAll_singleton.2
      (plainAll_ops_text (break_not_mem_linkTo isBreak_newline (h _ rfl)))

theorem DocFragment.newline_not_mem_link {d : DocFragment}
    (h : ∀ c ∈ d.classNames, '\n' ∉ naming c) (hnames : ∀ n ∈ d.memberNames, '\n' ∉ n) :
    ∀ s ∈ d.link? naming, '\n' ∉ s := by
  rintro s hs
  cases d with
  | text s => simp [link?] at hs
  | typeLink t =>
    obtain rfl := Option.some_inj.1 hs
    exact JavaType.break_not_mem_text isBreak_newline t h
  | memberLink m =>
    obtain rfl := Option.some_inj.1 hs
    exact m.break_not_mem_text isBreak_newline (hnames m.name (List.mem_singleton.2 rfl)) h

theorem Doc.plainAll_body {doc : Doc} (h : LinksUnbroken naming doc) :
    PlainAll (opsAll unit (doc.flatMap (DocFragment.layout naming))) :=
  plainAll_opsAll_flatMap fun d hd => DocFragment.plainAll_layout (h d hd)

theorem Doc.linksUnbroken {doc : Doc} (h : ∀ c ∈ classNames doc, '\n' ∉ naming c)
    (hnames : ∀ n ∈ memberNames doc, '\n' ∉ n) : LinksUnbroken naming doc := by
  rw [classNames, List.forall_mem_flatMap] at h
  rw [memberNames, List.forall_mem_flatMap] at hnames
  exact fun d hd => DocFragment.newline_not_mem_link (h d hd) (hnames d hd)

theorem Doc.plainAll_layout {doc : Doc} (h : LinksUnbroken naming doc) :
    PlainAll (opsAll unit (layout naming doc)) := by
  unfold layout
  split
  · exact plainAll_nil
  · exact plainAll_opsAll_singleton.2 (plainAll_ops_comment (plainAll_body h))

theorem plainAll_annotationLines {annotations : List ClassName}
    (h : ∀ c ∈ annotations, '\n' ∉ naming c) :
    PlainAll (opsAll unit (annotationLines naming annotations)) := by
  rw [annotationLines, List.map_eq_flatMap]
  refine plainAll_opsAll_flatMap fun c hc => ?_
  have hname := h c hc
  exact plainAll_opsAll_singleton.2 (plainAll_ops_line (by simp [hname]))

namespace Code

mutual

theorem plainAll_layoutOfFragment (hunit : '\n' ∉ unit) :
    (fragment : CodeFragment) → (∀ c ∈ classNamesOfFragment fragment, '\n' ∉ naming c) →
      PlainAll (opsAll unit (layoutOfFragment naming fragment))
  | .text s, _ => plainAll_ofText unit s
  | .type t, h => by
    have ht := JavaType.break_not_mem_text isBreak_newline t h
    exact plainAll_opsAll_singleton.2 (plainAll_ops_text ht)
  | .indented body, h => by
    have hbody := plainAll_layout hunit body h
    exact plainAll_opsAll_singleton.2 (plainAll_ops_indented hunit hbody)

theorem plainAll_layout (hunit : '\n' ∉ unit) :
    (code : List CodeFragment) → (∀ c ∈ classNames code, '\n' ∉ naming c) →
      PlainAll (opsAll unit (layout naming code))
  | [], _ => plainAll_nil
  | fragment :: rest, h => by
    rw [classNames, List.forall_mem_append] at h
    rw [layout, plainAll_opsAll_append]
    exact ⟨plainAll_layoutOfFragment hunit fragment h.1, plainAll_layout hunit rest h.2⟩

end

end Code

theorem Field.plainAll_layout (hunit : '\n' ∉ unit) {f : Field}
    (h : ∀ c ∈ f.classNames, '\n' ∉ naming c) (hnames : ∀ n ∈ f.identifiers, '\n' ∉ n) :
    PlainAll (opsAll unit (f.layout naming)) := by
  simp only [classNames, List.forall_mem_append] at h
  obtain ⟨⟨htype, hinit⟩, hdoc⟩ := h
  obtain ⟨hname, hmembers⟩ := List.forall_mem_cons.1 hnames
  have hhead := f.break_not_mem_head isBreak_newline hname htype
  rw [layout, plainAll_opsAll_append]
  refine ⟨Doc.plainAll_layout (Doc.linksUnbroken hdoc hmembers), ?_⟩
  cases hi : f.init with
  | none => exact plainAll_opsAll_singleton.2 (plainAll_ops_line (by simp [hhead]))
  | some code =>
    rw [hi] at hinit
    have hassign : '\n' ∉ " = ".toList := by decide
    have hopen : '\n' ∉ f.head naming ++ " = ".toList := by
      rw [List.mem_append, not_or]
      exact ⟨hhead, hassign⟩
    dsimp only
    rw [plainAll_opsAll_append, plainAll_opsAll_cons, plainAll_opsAll_singleton]
    exact ⟨⟨plainAll_ops_text hopen, Code.plainAll_layout hunit code hinit⟩,
      plainAll_ops_line (by decide)⟩

theorem Method.plainAll_layout (hunit : '\n' ∉ unit) {m : Method}
    (h : ∀ c ∈ m.classNames, '\n' ∉ naming c) (hnames : ∀ n ∈ m.identifiers, '\n' ∉ n) :
    PlainAll (opsAll unit (m.layout naming)) := by
  simp only [identifiers, List.forall_mem_append, List.forall_mem_cons] at hnames
  obtain ⟨⟨hname, harguments⟩, hmembers⟩ := hnames
  have hsignature := m.break_not_mem_signature isBreak_newline hname
    (fun a ha => harguments _ (List.mem_map_of_mem ha)) h
  simp only [classNames, List.forall_mem_append] at h
  obtain ⟨⟨⟨-, hbody⟩, hannotations⟩, hdoc⟩ := h
  have habove : PlainAll (opsAll unit (m.above naming)) := by
    rw [above, plainAll_opsAll_append]
    exact ⟨Doc.plainAll_layout (Doc.linksUnbroken hdoc hmembers), plainAll_annotationLines hannotations⟩
  have hline : PlainAll (opsAll unit [.text (m.signature naming), .line m.headEnd]) := by
    have hend : '\n' ∉ m.headEnd := by
      unfold headEnd
      split <;> decide
    rw [plainAll_opsAll_cons, plainAll_opsAll_singleton]
    exact ⟨plainAll_ops_text hsignature, plainAll_ops_line hend⟩
  have hbelow : PlainAll (opsAll unit (m.below naming)) := by
    unfold below
    split
    · exact plainAll_nil
    · have hcode := Code.plainAll_layout hunit m.body hbody
      rw [plainAll_opsAll_cons, plainAll_opsAll_singleton]
      exact ⟨plainAll_ops_indented hunit hcode, plainAll_ops_line (by decide)⟩
  rw [layout_eq, plainAll_opsAll_append, plainAll_opsAll_append]
  exact ⟨habove, hline, hbelow⟩

end Plain

end JavaSource
