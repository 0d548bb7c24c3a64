import JavaSource.Imports
import JavaSource.Declaration.ClassDef
import JavaSource.Proofs.QualifiedName

/-!
# Line breaks in declarations

Keywords, brackets and commas hold no character that ends a line. Where such a character stands in
the text of a type, of a link or of the head of a declaration, it stands in one of the names there.
-/

namespace JavaSource

namespace Text

/-- A character that ends a line of a source file. -/
def IsBreak (c : Char) : Prop := c = '\n' ∨ c = '\r'

theorem isBreak_newline : IsBreak '\n' := Or.inl rfl

/-- Without a character that ends a line of a source file. -/
def Unbroken (s : Text) : Prop := ∀ c ∈ s, c ≠ '\n' ∧ c ≠ '\r'

instance (s : Text) : Decidable s.Unbroken :=
  List.decidableBAll (fun c => c ≠ '\n' ∧ c ≠ '\r') s

@[simp] theorem unbroken_append {s t : Text} :
    Unbroken (s ++ t) ↔ Unbroken s ∧ Unbroken t :=
  List.forall_mem_append

@[simp] theorem unbroken_cons {c : Char} {s : Text} :
    Unbroken (c :: s) ↔ (c ≠ '\n' ∧ c ≠ '\r') ∧ Unbroken s :=
  List.forall_mem_cons

@[simp] theorem unbroken_nil : Unbroken [] := List.forall_mem_nil _

theorem Unbroken.break_not_mem {s : Text} (h : Unbroken s) {x : Char} (hx : IsBreak x) :
    x ∉ s := by
  intro hm
  rcases hx with rfl | rfl
  · exact (h _ hm).1 rfl
  · exact (h _ hm).2 rfl

theorem unbroken_iff {s : Text} : Unbroken s ↔ ∀ x, IsBreak x → x ∉ s := by
  refine ⟨fun h x hx => h.break_not_mem hx, fun h c hc => ⟨?_, ?_⟩⟩
  · rintro rfl
    exact h _ (Or.inl rfl) hc
  · rintro rfl
    exact h _ (Or.inr rfl) hc

theorem Unbroken.newline_not_mem {s : Text} (h : Unbroken s) : '\n' ∉ s :=
  h.break_not_mem isBreak_newline

theorem not_mem_join {x : Char} {sep : Text} {ws : List Text} (hsep : x ∉ sep)
    (h : ∀ w ∈ ws, x ∉ w) : x ∉ join sep ws := by
  intro hx
  rcases mem_of_mem_join hx with hx | ⟨w, hw, hx⟩
  · exact hsep hx
  · exact h w hw hx

end Text

open Text

/-! ### Names -/

theorem IsIdentifier.unbroken {s : Text} (h : IsIdentifier s) : s.Unbroken := by
  intro c hc
  have hpart := h.isIdentifierPart_of_mem hc
  refine ⟨?_, ?_⟩
  · rintro rfl
    exact absurd hpart (by decide)
  · rintro rfl
    exact absurd hpart (by decide)

theorem IsQualifiedName.unbroken {s : Text} (h : IsQualifiedName s) : s.Unbroken := by
  rw [← join_split '.' s]
  refine unbroken_iff.2 fun x hx => not_mem_join ?_ fun segment hs => ?_
  · exact Unbroken.break_not_mem (by decide) hx
  · exact (h segment hs).unbroken.break_not_mem hx

variable {x : Char} {naming : Naming}

/-- What is written for a class has no character that its qualified name has not. -/
theorem Imports.not_mem_name {c : ClassName} (h : x ∉ c.qualified) (r : Imports) :
    x ∉ r.name c := by
  unfold name
  split
  · intro hm
    refine h ?_
    unfold ClassName.qualified
    split
    · exact hm
    · exact List.mem_append_right _ (List.mem_cons_of_mem _ hm)
  · exact h

/-! ### Types -/

theorem Primitive.unbroken_keyword (p : Primitive) : p.keyword.Unbroken := by
  cases p <;> decide

theorem break_not_mem_comma (hx : IsBreak x) : x ∉ [',', ' '] :=
  Unbroken.break_not_mem (by decide) hx

namespace JavaType

mutual

theorem break_not_mem_text (hx : IsBreak x) :
    (t : JavaType) → (∀ c ∈ t.classNames, x ∉ naming c) → x ∉ t.text naming
  | primitive p, _ => p.unbroken_keyword.break_not_mem hx
  | named c, h => h c (by simp [classNames])
  | array t, h => by
    have helement := break_not_mem_text hx t h
    have hbrackets : x ∉ ['[', ']'] := Unbroken.break_not_mem (by decide) hx
    simp only [text, List.mem_append, not_or]
    exact ⟨helement, hbrackets⟩
  | generic base args, h => by
    have hbase := h base (by simp [classNames])
    have hargs := break_not_mem_textOfArgs hx args fun c hc => h c (by simp [classNames, hc])
    have hbrackets : x ∉ ['<', '>'] := Unbroken.break_not_mem (by decide) hx
    simp only [text, List.mem_append, not_or]
    refine ⟨hbase, ?_⟩
    split
    · exact List.not_mem_nil
    · simp_all

theorem break_not_mem_textOfArgs (hx : IsBreak x) :
    (ts : List JavaType) → (∀ c ∈ classNamesOfArgs ts, x ∉ naming c) →
      x ∉ textOfArgs naming ts
  | [], _ => List.not_mem_nil
  | [t], h => break_not_mem_text hx t fun c hc => h c (by simp [classNamesOfArgs, hc])
  | t :: u :: rest, h => by
    have hhead := break_not_mem_text hx t fun c hc => h c (by simp [classNamesOfArgs, hc])
    have htail := break_not_mem_textOfArgs hx (u :: rest) fun c hc =>
      h c (List.mem_append_right _ hc)
    simp only [textOfArgs, List.mem_append, not_or]
    exact ⟨⟨hhead, break_not_mem_comma hx⟩, htail⟩

end

theorem break_not_mem_texts (hx : IsBreak x) {ts : List JavaType}
    (h : ∀ c ∈ ts.flatMap classNames, x ∉ naming c) :
    x ∉ join [',', ' '] (ts.map (text naming)) := by
  refine not_mem_join (break_not_mem_comma hx) fun w hw => ?_
  obtain ⟨t, ht, rfl⟩ := List.mem_map.1 hw
  exact break_not_mem_text hx t fun c hc => h c (List.mem_flatMap.2 ⟨t, ht, hc⟩)

end JavaType

/-! ### Links -/

theorem MemberRef.break_not_mem_text (hx : IsBreak x) {m : MemberRef} (hname : x ∉ m.name)
    (h : ∀ c ∈ m.classNames, x ∉ naming c) : x ∉ m.text naming := by
  have howner := h m.owner (List.mem_cons_self ..)
  have hargs : x ∉ join [',', ' '] (m.args.map (JavaType.text naming)) :=
    JavaType.break_not_mem_texts hx fun c hc => h c (List.mem_cons_of_mem _ hc)
  have hmarks : x ∉ ['#', '(', ')'] := Unbroken.break_not_mem (by decide) hx
  simp_all [text]

theorem DocFragment.break_not_mem_linkTo (hx : IsBreak x) {target : Text} (h : x ∉ target) :
    x ∉ linkTo target := by
  have hopen : x ∉ "\x7b@link ".toList := Unbroken.break_not_mem (by decide) hx
  have hclose : x ∉ ['}'] := Unbroken.break_not_mem (by decide) hx
  unfold linkTo
  rw [List.mem_append, List.mem_append, not_or, not_or]
  exact ⟨⟨hopen, h⟩, hclose⟩

/-! ### Heads of declarations -/

theorem Visibility.unbroken_lead (v : Visibility) : v.lead.Unbroken := by
  cases v <;> decide

theorem unbroken_modifierIf (present : Bool) {modifier : Text} (h : modifier.Unbroken) :
    (modifierIf present modifier).Unbroken := by
  unfold modifierIf
  split
  · simp [h]
  · exact unbroken_nil

theorem Field.break_not_mem_head (hx : IsBreak x) {f : Field} (hname : x ∉ f.name)
    (h : ∀ c ∈ f.type.classNames, x ∉ naming c) : x ∉ f.head naming := by
  have hmodifiers : x ∉ f.visibility.lead ++ modifierIf f.isStatic "static".toList ++
      modifierIf f.isFinal "final".toList :=
    Unbroken.break_not_mem (by simp [Visibility.unbroken_lead, unbroken_modifierIf]) hx
  have htype := JavaType.break_not_mem_text hx f.type h
  have hblank : x ∉ [' '] := Unbroken.break_not_mem (by decide) hx
  simp_all [head]

namespace Method

theorem break_not_mem_returnLead (hx : IsBreak x) {m : Method}
    (h : ∀ c ∈ m.returnType.toList.flatMap JavaType.classNames, x ∉ naming c) :
    x ∉ m.returnLead naming := by
  have hblank : x ∉ [' '] := Unbroken.break_not_mem (by decide) hx
  unfold returnLead
  split
  · exact List.not_mem_nil
  · cases hr : m.returnType with
    | none =>
      have hvoid : x ∉ "void".toList := Unbroken.break_not_mem (by decide) hx
      simp only [List.mem_append, not_or]
      exact ⟨hvoid, hblank⟩
    | some t =>
      have ht := JavaType.break_not_mem_text hx t fun c hc => h c (by simp [hr, hc])
      simp only [List.mem_append, not_or]
      exact ⟨ht, hblank⟩

theorem break_not_mem_arguments (hx : IsBreak x) {m : Method}
    (hnames : ∀ a ∈ m.arguments, x ∉ a.name)
    (h : ∀ c ∈ (m.arguments.map Argument.type).flatMap JavaType.classNames, x ∉ naming c) :
    x ∉ join [',', ' '] (m.arguments.map (argumentText naming)) := by
  have hblank : x ∉ [' '] := Unbroken.break_not_mem (by decide) hx
  refine not_mem_join (break_not_mem_comma hx) fun w hw => ?_
  obtain ⟨a, ha, rfl⟩ := List.mem_map.1 hw
  have hmem : a.type ∈ m.arguments.map Argument.type := List.mem_map_of_mem ha
  have htype := JavaType.break_not_mem_text hx a.type fun c hc =>
    h c (List.mem_flatMap.2 ⟨_, hmem, hc⟩)
  have hname := hnames a ha
  simp_all [argumentText]

theorem break_not_mem_throwsClause (hx : IsBreak x) {m : Method}
    (h : ∀ c ∈ m.exceptions.flatMap JavaType.classNames, x ∉ naming c) :
    x ∉ m.throwsClause naming := by
  have hthrows : x ∉ " throws ".toList := Unbroken.break_not_mem (by decide) hx
  unfold throwsClause
  split
  · exact List.not_mem_nil
  · rw [List.mem_append, not_or]
    exact ⟨hthrows, JavaType.break_not_mem_texts hx h⟩

theorem break_not_mem_signature (hx : IsBreak x) {m : Method} (hname : x ∉ m.name)
    (harguments : ∀ a ∈ m.arguments, x ∉ a.name) (h : ∀ c ∈ m.classNames, x ∉ naming c) :
    x ∉ m.signature naming := by
  simp only [classNames, List.flatMap_append, List.forall_mem_append] at h
  obtain ⟨⟨⟨⟨⟨hreturn, hargs⟩, hexceptions⟩, -⟩, -⟩, -⟩ := h
  have hmodifiers : x ∉ m.visibility.lead ++ modifierIf m.isDefault "default".toList ++
      modifierIf m.isAbstract "abstract".toList ++ modifierIf m.isStatic "static".toList ++
      modifierIf m.isFinal "final".toList :=
    Unbroken.break_not_mem (by simp [Visibility.unbroken_lead, unbroken_modifierIf]) hx
  have hlead := break_not_mem_returnLead hx hreturn
  have hlist := break_not_mem_arguments hx harguments hargs
  have hthrows := break_not_mem_throwsClause hx hexceptions
  have hbrackets : x ∉ ['(', ')'] := Unbroken.break_not_mem (by decide) hx
  simp_all [signature]

end Method

theorem ClassDef.break_not_mem_head (hx : IsBreak x) {d : ClassDef} (hname : x ∉ d.name.simple)
    (h : ∀ c ∈ (d.superclass.toList ++ d.interfaces).flatMap JavaType.classNames, x ∉ naming c) :
    x ∉ d.head naming := by
  simp only [List.flatMap_append, List.forall_mem_append] at h
  obtain ⟨hsuperclass, hinterfaces⟩ := h
  have hkeyword : d.kind.keyword.Unbroken := by cases d.kind <;> decide
  have hlead : d.kind.interfacesLead.Unbroken := by cases d.kind <;> decide
  have hmodifiers : x ∉ d.visibility.lead ++ modifierIf d.isAbstract "abstract".toList ++
      modifierIf d.isFinal "final".toList ++ d.kind.keyword ++ [' '] :=
    Unbroken.break_not_mem (by simp [Visibility.unbroken_lead, unbroken_modifierIf, hkeyword]) hx
  have hextends : x ∉ d.extendsClause naming := by
    unfold extendsClause
    cases hs : d.superclass with
    | none => exact List.not_mem_nil
    | some t =>
      have ht := JavaType.break_not_mem_text hx t fun c hc => hsuperclass c (by simp [hs, hc])
      have hword : x ∉ " extends ".toList := Unbroken.break_not_mem (by decide) hx
      simp only [List.mem_append, not_or]
      exact ⟨hword, ht⟩
  have hclause : x ∉ d.interfacesClause naming := by
    unfold interfacesClause
    split
    · exact List.not_mem_nil
    · rw [List.mem_append, not_or]
      exact ⟨hlead.break_not_mem hx, JavaType.break_not_mem_texts hx hinterfaces⟩
  simp_all [head]

end JavaSource
