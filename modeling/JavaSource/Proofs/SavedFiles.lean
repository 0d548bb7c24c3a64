import JavaSource.Output
import Mathlib.Logic.Function.Basic

/-!
# Files saved one after the other

A storage may have any state and refuse a write for any reason, as long as it shows a map from the
keys of paths to bytes and a refused write leaves this map alone. On such a storage saving files is
a fold of the map over the files. The report says which files were in place when their turn came,
and the first refused write ends the run where it stands.
-/

namespace JavaSource

/-- Files by the keys of their paths; paths that mean one file have one key. -/
abbrev KeyedFiles (κ : Type) := κ → Option (List UInt8)

/-! ### Files put into a map -/

namespace KeyedFiles

variable {κ : Type} (key : OutputFile → κ)

def holds (files : KeyedFiles κ) (f : OutputFile) : Bool :=
  files (key f) = some (Text.toUtf8 f.content)

variable {key} {files : KeyedFiles κ} {f : OutputFile} {fs : List OutputFile}

theorem holds_iff : holds key files f = true ↔ files (key f) = some (Text.toUtf8 f.content) :=
  decide_eq_true_iff

theorem not_holds_iff : holds key files f = false ↔ files (key f) ≠ some (Text.toUtf8 f.content) :=
  decide_eq_false_iff_not

variable [DecidableEq κ] (key)

def put (files : KeyedFiles κ) (f : OutputFile) : KeyedFiles κ :=
  Function.update files (key f) (some (Text.toUtf8 f.content))

def putAll (files : KeyedFiles κ) (fs : List OutputFile) : KeyedFiles κ := fs.foldl (put key) files

/-- The files of a list, each with whether it is in place at its turn, when those before it have
been put into the map. -/
def turns (files : KeyedFiles κ) (fs : List OutputFile) : List (OutputFile × Bool) :=
  fs.mapIdx fun i f => (f, holds key (putAll key files (fs.take i)) f)

/-- The paths of the files that are in place at their turn, or of those that are not. -/
def pathsAt (inPlace : Bool) (files : KeyedFiles κ) (fs : List OutputFile) : List Text :=
  ((turns key files fs).filter fun t => t.2 = inPlace).map fun t => t.1.path

variable {key}

theorem put_of_holds (h : holds key files f = true) : put key files f = files := by
  unfold put
  rw [← holds_iff.1 h, Function.update_eq_self]

theorem putAll_append (front back : List OutputFile) :
    putAll key files (front ++ back) = putAll key (putAll key files front) back :=
  List.foldl_append

theorem putAll_of_forall_ne {k : κ} (h : ∀ f ∈ fs, key f ≠ k) :
    putAll key files fs k = files k := by
  induction fs generalizing files with
  | nil => rfl
  | cons f fs ih =>
    have hf := h f (List.mem_cons_self ..)
    have hrest : putAll key (put key files f) fs k = put key files f k :=
      ih fun g hg => h g (List.mem_cons_of_mem _ hg)
    exact hrest.trans (Function.update_of_ne (Ne.symm hf) _ _)

/-- Of the files with one key the last one stays. -/
theorem putAll_of_last {front back : List OutputFile} (h : ∀ g ∈ back, key g ≠ key f) :
    putAll key files (front ++ f :: back) (key f) = some (Text.toUtf8 f.content) := by
  rw [putAll_append]
  show putAll key (put key (putAll key files front) f) back (key f) = _
  rw [putAll_of_forall_ne h]
  exact Function.update_self ..

theorem putAll_of_nodup (h : (fs.map key).Nodup) (hf : f ∈ fs) :
    putAll key files fs (key f) = some (Text.toUtf8 f.content) := by
  obtain ⟨front, back, rfl⟩ := List.append_of_mem hf
  rw [List.map_append, List.map_cons, List.nodup_append, List.nodup_cons] at h
  obtain ⟨-, ⟨hback, -⟩, -⟩ := h
  exact putAll_of_last fun g hg heq => hback (List.mem_map.2 ⟨g, hg, heq⟩)

theorem putAll_of_holds (h : ∀ f ∈ fs, holds key files f = true) : putAll key files fs = files := by
  induction fs with
  | nil => rfl
  | cons f fs ih =>
    show putAll key (put key files f) fs = files
    rw [put_of_holds (h f (List.mem_cons_self ..))]
    exact ih fun g hg => h g (List.mem_cons_of_mem _ hg)

theorem turns_cons :
    turns key files (f :: fs) = (f, holds key files f) :: turns key (put key files f) fs := by
  unfold turns
  rw [List.mapIdx_cons]
  rfl

theorem pathsAt_cons (inPlace : Bool) :
    pathsAt key inPlace files (f :: fs) =
      (if holds key files f = inPlace then [f.path] else []) ++
        pathsAt key inPlace (put key files f) fs := by
  unfold pathsAt
  rw [turns_cons, List.filter_cons]
  by_cases h : holds key files f = inPlace
  · simp [h]
  · simp [h]

theorem pathsAt_of_holds (h : ∀ f ∈ fs, holds key files f = true) (inPlace : Bool) :
    pathsAt key inPlace files fs = if inPlace = true then fs.map OutputFile.path else [] := by
  induction fs with
  | nil => cases inPlace <;> rfl
  | cons f fs ih =>
    have hf := h f (List.mem_cons_self ..)
    rw [pathsAt_cons, put_of_holds hf, hf, ih fun g hg => h g (List.mem_cons_of_mem _ hg)]
    cases inPlace <;> rfl

theorem length_pathsAt (files : KeyedFiles κ) (fs : List OutputFile) :
    (pathsAt key false files fs).length + (pathsAt key true files fs).length = fs.length := by
  induction fs generalizing files with
  | nil => rfl
  | cons f fs ih =>
    have hrest := ih (put key files f)
    rw [pathsAt_cons, pathsAt_cons, List.length_append, List.length_append, List.length_cons]
    cases holds key files f with
    | false => simp; omega
    | true => simp; omega

end KeyedFiles

/-! ### Storages that show a map of files -/

/-- What a storage shows of its state is a map of files: reading answers from this map, a write
that succeeds puts its bytes there under the key of its path, and a refused one changes no file. -/
structure Storage.Keeps {σ κ : Type} [DecidableEq κ] (storage : Storage (StateM σ))
    (key : Text → κ) (files : σ → KeyedFiles κ) : Prop where
  read : ∀ path s, (storage.read? path s).1 = files s (key path)
  unchanged : ∀ path s, files (storage.read? path s).2 = files s
  written : ∀ path content s, (storage.write path content s).1 = true →
    files (storage.write path content s).2 = Function.update (files s) (key path) (some content)
  refused : ∀ path content s, (storage.write path content s).1 = false →
    files (storage.write path content s).2 = files s

namespace Storage

variable {σ κ : Type} [DecidableEq κ] {storage : Storage (StateM σ)} {key : Text → κ}
  {files : σ → KeyedFiles κ}

def keyBelow (key : Text → κ) (base : Text) (f : OutputFile) : κ :=
  key (appendPathPart base f.path)

theorem save?_eq (path content : Text) (s : σ) :
    storage.save? path content s =
      if (storage.read? path s).1 = some (Text.toUtf8 content) then
        (some .unchanged, (storage.read? path s).2)
      else
        let w := storage.write path (Text.toUtf8 content) (storage.read? path s).2
        (if w.1 then some .written else none, w.2) := by
  by_cases h : (storage.read? path s).1 = some (Text.toUtf8 content)
  · rw [if_pos h]
    exact congrFun (if_pos h) _
  · rw [if_neg h]
    exact congrFun (if_neg h) _

/-- A file that is saved is in its place afterwards, and is reported as unchanged exactly if it was
there before; a file that cannot be saved was not there, and nothing has changed. -/
theorem Keeps.save?_cases (h : storage.Keeps key files) (base : Text) (f : OutputFile) (s : σ) :
    (∃ outcome s', storage.save? (appendPathPart base f.path) f.content s = (some outcome, s') ∧
      KeyedFiles.holds (keyBelow key base) (files s) f = decide (outcome = .unchanged) ∧
      files s' = KeyedFiles.put (keyBelow key base) (files s) f) ∨
    ∃ s', storage.save? (appendPathPart base f.path) f.content s = (none, s') ∧
      KeyedFiles.holds (keyBelow key base) (files s) f = false ∧ files s' = files s := by
  have hread : (storage.read? (appendPathPart base f.path) s).1 = files s (keyBelow key base f) :=
    h.read (appendPathPart base f.path) s
  have hunchanged := h.unchanged (appendPathPart base f.path) s
  rw [save?_eq, hread]
  cases hin : KeyedFiles.holds (keyBelow key base) (files s) f with
  | true =>
    rw [if_pos (KeyedFiles.holds_iff.1 hin)]
    refine Or.inl ⟨.unchanged, _, rfl, rfl, ?_⟩
    rw [hunchanged, KeyedFiles.put_of_holds hin]
  | false =>
    rw [if_neg (KeyedFiles.not_holds_iff.1 hin)]
    generalize (storage.read? (appendPathPart base f.path) s).2 = s₁ at hunchanged ⊢
    cases hw : (storage.write (appendPathPart base f.path) (Text.toUtf8 f.content) s₁).1 with
    | true =>
      have hput := h.written _ _ _ hw
      rw [hunchanged] at hput
      exact Or.inl ⟨.written, _, by simp [hw], rfl, hput⟩
    | false =>
      have hsame := h.refused _ _ _ hw
      exact Or.inr ⟨_, by simp [hw], rfl, hsame.trans hunchanged⟩

theorem saveAll?_cons_some {base : Text} {f : OutputFile} {fs : List OutputFile}
    {report : WriteReport} {outcome : WriteOutcome} {s s' : σ}
    (h : storage.save? (appendPathPart base f.path) f.content s = (some outcome, s')) :
    storage.saveAll? base (f :: fs) report s =
      storage.saveAll? base fs (report.add f.path outcome) s' := by
  simp [saveAll?, StateT.bind, bind, h]

theorem saveAll?_cons_none {base : Text} {f : OutputFile} {fs : List OutputFile}
    {report : WriteReport} {s s' : σ}
    (h : storage.save? (appendPathPart base f.path) f.content s = (none, s')) :
    storage.saveAll? base (f :: fs) report s = (none, s') := by
  unfold saveAll?
  simp only [StateT.bind, bind, h]
  rfl

theorem add_eq (report : WriteReport) (path : Text) {outcome : WriteOutcome} {inPlace : Bool}
    (h : inPlace = decide (outcome = .unchanged)) :
    report.add path outcome = ⟨report.written ++ if inPlace = false then [path] else [],
      report.unchanged ++ if inPlace = true then [path] else []⟩ := by
  subst h
  cases outcome with
  | written => simp [WriteReport.add]
  | unchanged => simp [WriteReport.add]

/-- A run over files either puts all of them into the map and reports on each, or it stops at a
refused write, and then it has done what the run over the files before that one does. -/
theorem Keeps.saveAll?_cases (h : storage.Keeps key files) (base : Text) (fs : List OutputFile)
    (report : WriteReport) (s : σ) :
    (∃ s', storage.saveAll? base fs report s =
        (some ⟨report.written ++ KeyedFiles.pathsAt (keyBelow key base) false (files s) fs,
          report.unchanged ++ KeyedFiles.pathsAt (keyBelow key base) true (files s) fs⟩, s') ∧
      files s' = KeyedFiles.putAll (keyBelow key base) (files s) fs) ∨
    ∃ front f back done s₁ s', fs = front ++ f :: back ∧
      storage.saveAll? base front report s = (some done, s₁) ∧
      storage.save? (appendPathPart base f.path) f.content s₁ = (none, s') ∧
      storage.saveAll? base fs report s = (none, s') ∧
      KeyedFiles.holds (keyBelow key base) (files s₁) f = false ∧ files s' = files s₁ := by
  -- Along the files: a saved one leads to a run over the others from the map with it, and a refused
  -- one ends the run behind an empty front.
  induction fs generalizing report s with
  | nil =>
    refine Or.inl ⟨s, ?_, rfl⟩
    simp only [KeyedFiles.pathsAt, KeyedFiles.turns, List.mapIdx_nil, List.filter_nil, List.map_nil,
      List.append_nil]
    rfl
  | cons f fs ih =>
    rcases h.save?_cases base f s with ⟨outcome, s₁, hsave, hfound, hput⟩ | ⟨s', hsave, hin, hsame⟩
    · have hadd := add_eq report f.path hfound
      rcases ih (report.add f.path outcome) s₁ with
        ⟨s', hrun, hall⟩ | ⟨front, g, back, done, s₂, s', rfl, hfront, hrest⟩
      · refine Or.inl ⟨s', ?_, ?_⟩
        · rw [saveAll?_cons_some hsave, hrun, hadd, hput, KeyedFiles.pathsAt_cons,
            KeyedFiles.pathsAt_cons, List.append_assoc, List.append_assoc]
        · rw [hall, hput]
          rfl
      · refine Or.inr ⟨f :: front, g, back, done, s₂, s', rfl, ?_, ?_⟩
        · exact (saveAll?_cons_some hsave).trans hfront
        · rw [saveAll?_cons_some hsave]
          exact hrest
    · exact Or.inr ⟨[], f, fs, report, s, s', rfl, rfl, hsave, saveAll?_cons_none hsave, hin, hsame⟩

/-- Saving files below a directory takes them in their order. Where every write succeeds, the report
lists each of them once, as unchanged exactly if its bytes were in place at its turn; in the end
each key has the bytes of the last file with it, and all other keys have what they had. Where a
write is refused, the files are those that the run over the earlier files leaves, and the state is
the one in which the refused write left the storage. -/
theorem saveAll?_reports_or_stops (storage : Storage (StateM σ)) (key : Text → κ)
    (files : σ → KeyedFiles κ) (h : storage.Keeps key files) (base : Text) (fs : List OutputFile)
    (s : σ) :
    (∃ report s', storage.saveAll? base fs {} s = (some report, s') ∧
      report.total = fs.length ∧
      report.written = KeyedFiles.pathsAt (keyBelow key base) false (files s) fs ∧
      report.unchanged = KeyedFiles.pathsAt (keyBelow key base) true (files s) fs ∧
      (∀ front f back, fs = front ++ f :: back →
        (∀ g ∈ back, keyBelow key base g ≠ keyBelow key base f) →
        files s' (keyBelow key base f) = some (Text.toUtf8 f.content)) ∧
      ∀ k, (∀ f ∈ fs, keyBelow key base f ≠ k) → files s' k = files s k) ∨
    ∃ front f back done s₁ s', fs = front ++ f :: back ∧
      storage.saveAll? base front {} s = (some done, s₁) ∧
      files s₁ = KeyedFiles.putAll (keyBelow key base) (files s) front ∧
      storage.save? (appendPathPart base f.path) f.content s₁ = (none, s') ∧
      storage.saveAll? base fs {} s = (none, s') ∧
      files s₁ (keyBelow key base f) ≠ some (Text.toUtf8 f.content) ∧ files s' = files s₁ := by
  rcases h.saveAll?_cases base fs {} s with
    ⟨s', hrun, hall⟩ | ⟨front, f, back, done, s₁, s', hfs, hfront, hsave, hrun, hin, hsame⟩
  · refine Or.inl ⟨_, s', hrun, KeyedFiles.length_pathsAt _ _, rfl, rfl, ?_, ?_⟩
    · rintro front f back rfl hlast
      rw [hall]
      exact KeyedFiles.putAll_of_last hlast
    · intro k hk
      rw [hall]
      exact KeyedFiles.putAll_of_forall_ne hk
  · refine Or.inr ⟨front, f, back, done, s₁, s', hfs, hfront, ?_, hsave, hrun,
      KeyedFiles.not_holds_iff.1 hin, hsame⟩
    -- the run over the front did not stop, so that it has put all of it into the map
    rcases h.saveAll?_cases base front {} s with
      ⟨s₂, hagain, hall⟩ | ⟨_, _, _, _, _, _, -, -, -, hstopped, -⟩
    · rw [hfront] at hagain
      rw [(Prod.mk.inj hagain).2, hall]
    · rw [hfront] at hstopped
      cases hstopped

/-! ### Files that may be locked -/

/-- Files by their paths, of which those at locked paths cannot be written. -/
def lockable (locked : Text → Bool) : Storage (StateM (KeyedFiles Text)) where
  read? path := return (← getThe (KeyedFiles Text)) path
  write path content := modifyGet fun files : KeyedFiles Text =>
    if locked path then (false, files) else (true, Function.update files path (some content))

theorem keeps_lockable (locked : Text → Bool) : (lockable locked).Keeps id id where
  read := fun _ _ => rfl
  unchanged := fun _ _ => rfl
  written := by
    intro path content files hw
    by_cases hlocked : locked path = true
    · have hrefused : ((lockable locked).write path content files).1 = false :=
        congrArg Prod.fst (if_pos hlocked)
      rw [hrefused] at hw
      cases hw
    · exact congrArg Prod.snd (if_neg hlocked)
  refused := by
    intro path content files hw
    by_cases hlocked : locked path = true
    · exact congrArg Prod.snd (if_pos hlocked)
    · have hwritten : ((lockable locked).write path content files).1 = true :=
        congrArg Prod.fst (if_neg hlocked)
      rw [hwritten] at hw
      cases hw

/-- A file that comes three times, and another one. -/
def repeatedFiles : List OutputFile :=
  [⟨"A.java".toList, "1".toList⟩, ⟨"B.java".toList, "2".toList⟩, ⟨"A.java".toList, "1".toList⟩,
    ⟨"A.java".toList, "3".toList⟩]

def isB (path : Text) : Bool := path = "o/B.java".toList

def olderB : KeyedFiles Text := fun path => if isB path then some [50] else none

theorem repeatedFiles_saved :
    (∃ after, (lockable fun _ => false).Keeps id id ∧
      (lockable fun _ => false).saveAll? "o".toList repeatedFiles {} olderB =
        (some ⟨["A.java".toList, "A.java".toList], ["B.java".toList, "A.java".toList]⟩, after) ∧
      after "o/A.java".toList = some [51] ∧ after "o/B.java".toList = some [50] ∧
      after "o/C.java".toList = none) ∧
    ∃ front f back done after, (lockable isB).Keeps id id ∧
      repeatedFiles = front ++ f :: back ∧
      (lockable isB).saveAll? "o".toList front {} (fun _ => none) = (some done, after) ∧
      (lockable isB).saveAll? "o".toList repeatedFiles {} (fun _ => none) = (none, after) ∧
      after "o/A.java".toList = some [49] ∧ after "o/B.java".toList = none := by
  constructor
  · have hrun : ((lockable fun _ => false).saveAll? "o".toList repeatedFiles {} olderB).1 =
        some ⟨["A.java".toList, "A.java".toList], ["B.java".toList, "A.java".toList]⟩ := by
      decide +kernel
    rcases saveAll?_reports_or_stops _ _ _ (keeps_lockable fun _ => false) "o".toList
        repeatedFiles olderB with
      ⟨report, after, hsaved, -, -, -, hlast, hother⟩ | ⟨_, _, _, _, _, _, -, -, -, -, hstopped, -⟩
    · rw [hsaved] at hrun
      obtain rfl := Option.some_inj.1 hrun
      refine ⟨after, keeps_lockable _, hsaved, ?_, ?_, ?_⟩
      · exact hlast (repeatedFiles.take 3) _ [] rfl (by simp)
      · exact hlast (repeatedFiles.take 1) _ (repeatedFiles.drop 2) rfl (by decide +kernel)
      · exact hother "o/C.java".toList (by decide +kernel)
    · rw [hstopped] at hrun
      cases hrun
  · have hrun : ((lockable isB).saveAll? "o".toList repeatedFiles {} (fun _ => none)).1 = none := by
      decide +kernel
    have hfiles : ((lockable isB).saveAll? "o".toList repeatedFiles {} (fun _ => none)).2
          "o/A.java".toList = some [49] ∧
        ((lockable isB).saveAll? "o".toList repeatedFiles {} (fun _ => none)).2
          "o/B.java".toList = none := by decide +kernel
    rcases saveAll?_reports_or_stops _ _ _ (keeps_lockable isB) "o".toList repeatedFiles
        (fun _ => none) with
      ⟨_, _, hsaved, -⟩ | ⟨front, f, back, done, s, after, hfs, hfront, -, -, hstopped, -, hsame⟩
    · rw [hsaved] at hrun
      cases hrun
    · rw [hstopped] at hfiles
      refine ⟨front, f, back, done, after, keeps_lockable _, hfs, ?_, hstopped, hfiles⟩
      rw [hfront]
      exact congrArg (Prod.mk _) hsame.symm

end Storage

end JavaSource
