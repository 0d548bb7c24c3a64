import JavaSource.Part
import JavaSource.Proofs.PlainParts

/-!
# The lines of a comment

A comment is written fragment by fragment, and its slashes are made harmless as they come. What
comes out is determined by its content alone, the fragments read as one text: cut into lines, each
line made harmless as a whole and printed behind a star.
-/

namespace JavaSource

open Text WriteOp Session Page

/-! ### Content and printed lines -/

namespace Text

/-- The pieces of a text between its line breaks; behind the last one only a piece that is not
empty. -/
def cutLines (s : Text) : List Text :=
  let ps := split '\n' s
  if ps.getLast? = some [] then ps.dropLast else ps

theorem cutLines_of_not_mem {s : Text} (h : '\n' ∉ s) :
    cutLines s = if s = [] then [] else [s] := by
  rw [cutLines, split_eq_singleton h]
  simp

theorem cutLines_line {a : Text} (h : '\n' ∉ a) (b : Text) :
    cutLines (a ++ '\n' :: b) = a :: cutLines b := by
  obtain ⟨p, ps, hb⟩ := List.exists_cons_of_ne_nil (split_ne_nil '\n' b)
  simp only [cutLines, split_append, split_eq_singleton h, hb, List.singleton_append,
    List.getLast?_cons_cons, List.dropLast_cons_cons]
  split <;> rfl

end Text

/-- What a fragment puts into a comment. -/
def DocFragment.content (naming : Naming) : DocFragment → Text
  | text s => unifyBreaks s
  | typeLink t => linkTo (t.text naming)
  | memberLink m => linkTo (m.text naming)

namespace Doc

def content (naming : Naming) (doc : Doc) : Text := doc.flatMap (DocFragment.content naming)

/-- A comment printed from its content, line by line. -/
def printed (naming : Naming) (doc : Doc) : Text :=
  if doc = [] then []
  else
    "/**\n".toList ++ ((cutLines (doc.content naming)).flatMap fun l => docLine l ++ ['\n']) ++
      " */\n".toList

theorem renderAll_body (unit : Text) (naming : Naming) (doc : Doc) :
    renderAll (Layout.opsAll unit (doc.flatMap (DocFragment.layout naming))) =
      doc.content naming := by
  induction doc with
  | nil => rfl
  | cons d doc ih =>
    have hd : renderAll (Layout.opsAll unit (d.layout naming)) = d.content naming := by
      cases d with
      | text s => exact Layout.renderAll_ofText unit s
      | typeLink t => exact List.append_nil _
      | memberLink m => exact List.append_nil _
    rw [List.flatMap_cons, Layout.opsAll_append, renderAll_append, hd, ih]
    rfl

end Doc

/-! ### Pages of a comment -/

namespace Page

def finishDoc (margin : Text) (page : Page) : Page :=
  if page.pending = [] then page else page.doc margin .blank

@[simp] theorem pending_finishDoc (margin : Text) (page : Page) :
    (page.finishDoc margin).pending = [] := by
  unfold finishDoc
  split
  · assumption
  · rfl

/-- Plain operations print the lines of what they write, the pending line in front of it. -/
theorem done_finishDoc_foldl_doc (margin : Text) {ops : List WriteOp} (h : PlainAll ops)
    {page : Page} (hpending : '\n' ∉ page.pending) :
    ((ops.foldl (doc margin) page).finishDoc margin).done =
      page.done ++ (cutLines (page.pending ++ renderAll ops)).flatMap
        fun l => margin ++ docLine l ++ ['\n'] := by
  induction ops generalizing page with
  | nil =>
    rw [renderAll_nil, List.append_nil, cutLines_of_not_mem hpending, List.foldl_nil, finishDoc]
    split
    · exact (List.append_nil _).symm
    · simp [doc]
  | cons op ops ih =>
    obtain ⟨hop, hrest⟩ := plainAll_cons.1 h
    rw [List.foldl_cons, renderAll_cons]
    cases op with
    | text s =>
      have hs : '\n' ∉ (page.doc margin (.text s)).pending := by
        rw [doc, List.mem_append, not_or]
        exact ⟨hpending, hop⟩
      rw [ih hrest hs, render, doc, List.append_assoc]
    | line s =>
      have hs : '\n' ∉ page.pending ++ s := by
        rw [List.mem_append, not_or]
        exact ⟨hpending, hop⟩
      have hlines : cutLines (page.pending ++ (s ++ ['\n'] ++ renderAll ops)) =
          (page.pending ++ s) :: cutLines (renderAll ops) := by
        rw [List.append_assoc s, ← List.append_assoc page.pending]
        exact cutLines_line hs _
      have hempty : '\n' ∉ (page.doc margin (.line s)).pending := List.not_mem_nil
      rw [ih hrest hempty, render, hlines]
      simp [doc]
    | blank => exact hop.elim

theorem shown_comment (margin : Text) {ops : List WriteOp} (h : PlainAll ops) :
    (Page.empty.comment margin ops).shown margin =
      margin ++ "/**".toList ++ ['\n'] ++
        ((cutLines (renderAll ops)).flatMap fun l => margin ++ docLine l ++ ['\n']) ++
        margin ++ " */".toList ++ ['\n'] := by
  let opened := Page.empty.code margin (.line "/**".toList)
  have hopened : '\n' ∉ opened.pending := List.not_mem_nil
  have hbody := done_finishDoc_foldl_doc margin h hopened
  rw [comment, ← finishDoc, shown, code, if_pos rfl, pending_finishDoc, hbody]
  simp [opened, code, Page.empty]

end Page

/-! ### Comments -/

namespace Doc

theorem render_layout_eq_printed (indent : Indent) {naming : Naming} {doc : Doc}
    (h : doc.LinksUnbroken naming) :
    Layout.render indent (layout naming doc) = doc.printed naming := by
  cases doc with
  | nil => rfl
  | cons d doc =>
    let body := Layout.opsAll indent.unit ((d :: doc).flatMap (DocFragment.layout naming))
    have hstart : Represents indent.unit 0 Page.empty [] [] := ⟨rfl, rfl⟩
    -- at the root the page is what was written
    have hpage : renderAll (Layer.commentOps body) = (Page.empty.comment [] body).shown [] :=
      (hstart.push_comment body).received_eq
    have hlayout : Layout.render indent (layout naming (d :: doc)) =
        renderAll (Layer.commentOps body) := by
      rw [Layout.render, layout]
      exact congrArg renderAll (List.append_nil _)
    have hopening : "/**\n".toList = "/**".toList ++ ['\n'] := rfl
    have hclosing : " */\n".toList = " */".toList ++ ['\n'] := rfl
    rw [hlayout, hpage, shown_comment [] (plainAll_body h), renderAll_body, printed,
      if_neg (List.cons_ne_nil d doc), hopening, hclosing]
    simp only [List.nil_append, List.append_nil, List.append_assoc]

end Doc

/-- At the root a comment is its content, printed line by line, and nothing if it has no fragment;
a text may be cut into two fragments anywhere but inside the end of a line. -/
theorem Part.text_doc (r : Imports) (indent : Indent) {d : Doc} (h : d.LinksUnbroken r.name) :
    (doc d).text r indent 0 = d.printed r.name ∧
      ∀ (front back : Doc) (s t : Text), d = front ++ .text (s ++ t) :: back →
        (s.getLast? = some '\r' → t.head? ≠ some '\n') →
        (doc (front ++ .text s :: .text t :: back)).text r indent 0 =
          (doc d).text r indent 0 := by
  have htext : ∀ {d : Doc}, d.LinksUnbroken r.name →
      (doc d).text r indent 0 = d.printed r.name :=
    fun h => Doc.render_layout_eq_printed indent h
  refine ⟨htext h, ?_⟩
  rintro front back s t rfl hcut
  have hlinks : Doc.LinksUnbroken r.name (front ++ .text s :: .text t :: back) := by
    simp only [Doc.LinksUnbroken, List.forall_mem_append, List.forall_mem_cons] at h ⊢
    exact ⟨h.1, nofun, nofun, h.2.2⟩
  have hcontent : Doc.content r.name (front ++ .text s :: .text t :: back) =
      Doc.content r.name (front ++ .text (s ++ t) :: back) := by
    simp only [Doc.content, List.flatMap_append, List.flatMap_cons, DocFragment.content,
      unifyBreaks_append hcut, List.append_assoc]
  rw [htext h, htext hlinks, Doc.printed, Doc.printed, hcontent, if_neg (by simp),
    if_neg (by simp)]

/-- A comment with links whose text is cut inside a line and at a star. -/
def hintsDoc : Doc :=
  [.text "Ends *".toList, .text "/ here,\r\n\nsee ".toList, .typeLink (.named .string), .text [],
    .text "*".toList, .memberLink ⟨⟨[], "Row".toList⟩, "id".toList, [.primitive .int]⟩,
    .text "/*".toList]

theorem hintsDoc_text :
    hintsDoc.LinksUnbroken Imports.empty.name ∧
      (Part.doc hintsDoc).text .empty .tab 0 =
        ("/**\n * Ends *&#47; here,\n *\n" ++
          " * see \x7b@link java.lang.String\x7d*\x7b@link Row#id(int)\x7d/*\n */\n").toList ∧
      (Part.doc (.text "Ends ".toList :: .text "*".toList :: hintsDoc.tail)).text .empty .tab 0 =
        (Part.doc hintsDoc).text .empty .tab 0 := by
  have hlinks : hintsDoc.LinksUnbroken Imports.empty.name := by
    simp only [hintsDoc, Doc.LinksUnbroken, List.forall_mem_cons]
    exact ⟨nofun, nofun, by decide, nofun, nofun, by decide, nofun, by simp⟩
  obtain ⟨htext, hcut⟩ := Part.text_doc .empty .tab hlinks
  refine ⟨hlinks, ?_, hcut [] hintsDoc.tail "Ends ".toList "*".toList rfl (by decide)⟩
  rw [htext]
  decide +kernel

end JavaSource
