import JavaSource.Proofs.OwnFiles
import Mathlib.Data.List.TFAE
import Mathlib.Tactic.TFAE

/-!
# Segments of qualified names

A qualified name is read in three ways: segment by segment when it is checked, at its last dot when
it names a class, and by its nonempty segments when its package becomes a directory. For a name
that is accepted the three agree: the segments in front of the last dot are the directories, the
one behind it is the simple name, and nothing of the name is lost.
-/

namespace JavaSource

/-! ### Packages of identifiers -/

theorem join_packageSegments (package : Text) :
    Text.join ['.'] (packageSegments package) = package := by
  unfold packageSegments
  split
  · next h => rw [h]; rfl
  · exact Text.join_split '.' package

theorem packageDir_eq_join {package : Text} (h : ∀ w ∈ packageSegments package, IsIdentifier w) :
    packageDir package = Text.join ['/'] (packageSegments package) := by
  rw [packageDir_eq fun w hw => (h w hw).ne_nil]
  exact foldl_appendPathPart_nil fun w hw => (h w hw).isEntryName

/-- A path that is made of names of entries leads through exactly these. -/
theorem FilePlace.ofPath_join {names : List Text} (h : ∀ w ∈ names, IsEntryName w) :
    ofPath (Text.join ['/'] names) = ⟨false, names⟩ := by
  cases names with
  | nil => rfl
  | cons w ws =>
    have hsplit : Text.split '/' (Text.join ['/'] (w :: ws)) = w :: ws :=
      Text.split_join (List.cons_ne_nil w ws) fun v hv => (h v hv).slash_not_mem
    have hentry : ∀ v ∈ Text.split '/' (Text.join ['/'] (w :: ws)), IsEntryName v := by
      rw [hsplit]
      exact h
    have hrelative := head?_ne_slash_of_split hentry
    have hnames := (namesOf_eq_split hentry).trans hsplit
    simp only [ofPath, hnames, hrelative, decide_false]

/-- What stands in front of the last dot of an accepted name is nothing or accepted. -/
theorem isQualifiedName_qualifier {s : Text} (h : IsQualifiedName s) :
    (ClassName.ofText s).qualifier = [] ∨ IsQualifiedName (ClassName.ofText s).qualifier := by
  rcases eq_or_ne (ClassName.ofText s).qualifier [] with hempty | hne
  · exact Or.inl hempty
  · refine Or.inr fun w hw => ClassName.isIdentifier_of_mem_packageSegments h ?_
    rw [packageSegments, if_neg hne]
    exact hw

/-! ### Names, classes and directories -/

namespace ClassName

variable {s t : Text}

theorem packageDir_ofText (h : IsQualifiedName s) :
    packageDir (ofText s).qualifier = Text.join ['/'] (packageSegments (ofText s).qualifier) :=
  packageDir_eq_join fun _ => isIdentifier_of_mem_packageSegments h

theorem ofPath_packageDir (h : IsQualifiedName s) :
    FilePlace.ofPath (packageDir (ofText s).qualifier) =
      ⟨false, packageSegments (ofText s).qualifier⟩ := by
  rw [packageDir_ofText h]
  exact FilePlace.ofPath_join fun w hw =>
    (isIdentifier_of_mem_packageSegments h hw).isEntryName

/-- The directory of its package and its simple name leave no doubt about an accepted name. -/
theorem eq_of_ofPath_packageDir (hs : IsQualifiedName s) (ht : IsQualifiedName t)
    (hdir : FilePlace.ofPath (packageDir (ofText s).qualifier) =
      FilePlace.ofPath (packageDir (ofText t).qualifier))
    (hsimple : (ofText s).simple = (ofText t).simple) : s = t := by
  rw [ofPath_packageDir hs, ofPath_packageDir ht] at hdir
  have hpackage := congrArg FilePlace.names hdir
  calc s = Text.join ['.'] (Text.split '.' s) := (Text.join_split '.' s).symm
    _ = Text.join ['.'] (Text.split '.' t) := by
      rw [split_ofText hs, split_ofText ht, hsimple]
      exact congrArg (fun names => Text.join ['.'] (names ++ [(ofText t).simple])) hpackage
    _ = t := Text.join_split '.' t

/-- Identifiers with dots between them are accepted. An accepted name consists of such identifiers:
the last one is the simple name of its class, the others are the names of the directories of its
package, in order, and the qualifier is nothing or accepted itself. The class is written in full
by the name again, so that accepted names are equal exactly if their classes are, and exactly if
their directories and their simple names are. -/
theorem accepted_names_round_trip :
    (∀ segments : List Text, segments ≠ [] → (∀ w ∈ segments, IsIdentifier w) →
      qualifiedNameProblem? (Text.join ['.'] segments) = none) ∧
    ∀ s : Text, qualifiedNameProblem? s = none →
      (∃ package : List Text, (∀ w ∈ package ++ [(ofText s).simple], IsIdentifier w) ∧
        s = Text.join ['.'] (package ++ [(ofText s).simple]) ∧
        (ofText s).qualifier = Text.join ['.'] package ∧
        packageDir (ofText s).qualifier = Text.join ['/'] package ∧
        FilePlace.ofPath (packageDir (ofText s).qualifier) = ⟨false, package⟩) ∧
      ((ofText s).qualifier = [] ∨ qualifiedNameProblem? (ofText s).qualifier = none) ∧
      (ofText s).qualified = s ∧
      ∀ t : Text, qualifiedNameProblem? t = none → List.TFAE [
        s = t,
        ofText s = ofText t,
        packageDir (ofText s).qualifier = packageDir (ofText t).qualifier ∧
          (ofText s).simple = (ofText t).simple,
        FilePlace.ofPath (packageDir (ofText s).qualifier) =
            FilePlace.ofPath (packageDir (ofText t).qualifier) ∧
          (ofText s).simple = (ofText t).simple] := by
  constructor
  · intro segments hne hsegments
    exact qualifiedNameProblem?_eq_none_iff.2
      (isQualifiedName_iff_join.2 ⟨segments, hne, hsegments, rfl⟩)
  · intro s hs
    have hname := qualifiedNameProblem?_eq_none_iff.1 hs
    have hsegments := split_ofText hname
    refine ⟨⟨packageSegments (ofText s).qualifier, ?_, ?_, ?_, packageDir_ofText hname,
      ofPath_packageDir hname⟩, ?_, qualified_ofText hname.head?_ne_dot, ?_⟩
    · rw [← hsegments]
      exact hname
    · rw [← hsegments]
      exact (Text.join_split '.' s).symm
    · exact (join_packageSegments _).symm
    · exact (isQualifiedName_qualifier hname).imp_right qualifiedNameProblem?_eq_none_iff.2
    · intro t ht
      tfae_have 1 → 2 := congrArg ofText
      tfae_have 2 → 3 := fun h => by rw [h]; exact ⟨rfl, rfl⟩
      tfae_have 3 → 4 := fun h => ⟨congrArg FilePlace.ofPath h.1, h.2⟩
      tfae_have 4 → 1 := fun h =>
        eq_of_ofPath_packageDir hname (qualifiedNameProblem?_eq_none_iff.1 ht) h.1 h.2
      tfae_finish

/-- Two names that differ in one segment of their packages, by an accent. -/
def accentedEntry : Text := "java.útil.Map$Entry".toList

def plainEntry : Text := "java.util.Map$Entry".toList

theorem accentedEntry_round_trip :
    qualifiedNameProblem? accentedEntry = none ∧ qualifiedNameProblem? plainEntry = none ∧
      (∃ package, accentedEntry = Text.join ['.'] (package ++ ["Map$Entry".toList]) ∧
        FilePlace.ofPath (packageDir (ofText accentedEntry).qualifier) = ⟨false, package⟩) ∧
      qualifiedNameProblem? (ofText accentedEntry).qualifier = none ∧
      (ofText accentedEntry).qualified = accentedEntry ∧ ofText accentedEntry ≠ ofText plainEntry ∧
      qualifiedNameProblem? (Text.join ['.'] [(ofText accentedEntry).simple]) = none := by
  obtain ⟨hjoined, hsplit⟩ := accepted_names_round_trip
  have haccented : qualifiedNameProblem? accentedEntry = none := by decide +kernel
  have hplain : qualifiedNameProblem? plainEntry = none := by decide +kernel
  have hne : accentedEntry ≠ plainEntry := by decide +kernel
  have hqualifier : (ofText accentedEntry).qualifier ≠ [] := by decide +kernel
  have hsimple : (ofText accentedEntry).simple = "Map$Entry".toList := by decide +kernel
  obtain ⟨⟨package, hidentifiers, hwhole, -, -, hplace⟩, haccepted, hfull, hequal⟩ :=
    hsplit accentedEntry haccented
  have hlast : IsIdentifier (ofText accentedEntry).simple :=
    hidentifiers _ (List.mem_append_right _ (List.mem_singleton_self _))
  refine ⟨haccented, hplain, ⟨package, ?_, hplace⟩, haccepted.resolve_left hqualifier, hfull, ?_,
    ?_⟩
  · rw [← hsimple]
    exact hwhole
  · exact fun h => hne (((hequal plainEntry hplain).out 0 1).2 h)
  · exact hjoined _ (List.cons_ne_nil _ _) fun w hw => List.mem_singleton.1 hw ▸ hlast

end ClassName

end JavaSource
