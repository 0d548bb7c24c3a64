import JavaSource.Imports
import Mathlib.Data.List.Induction
import Mathlib.Data.List.Nodup
import Mathlib.Data.List.Perm.Basic

/-!
# The first claim wins

What the imports of a file hold after any run of claims and registrations, said over the list of
the classes that were claimed: the owners are the first classes with their simple names, the
conflicts are all others, both in the order of their first claims. Everything that a file asks of
its imports follows from that.
-/

namespace JavaSource

namespace Imports

/-! ### Runs -/

inductive Op
  | claim (c : ClassName)
  | register (t : JavaType)

def Op.names : Op → List ClassName
  | claim c => [c]
  | register t => t.classNames

def perform (r : Imports) : Op → Imports
  | .claim c => (r.claim c).1
  | .register t => r.register t

/-- Imports without a claim: of a file in a package, or with no implicit package at all. -/
def start : Option Text → Imports
  | none => empty
  | some package => forPackage package

def run (package : Option Text) (ops : List Op) : Imports := ops.foldl perform (start package)

def claimed (ops : List Op) : List ClassName := ops.flatMap Op.names

/-- The packages that need no import line. -/
def implicitPackages : Option Text → List Text
  | none => []
  | some package => ["java.lang".toList, package]

theorem perform_eq_claimAll (r : Imports) (op : Op) : r.perform op = r.claimAll op.names := by
  cases op with
  | claim c => rfl
  | register t => rfl

theorem foldl_perform (r : Imports) (ops : List Op) :
    ops.foldl perform r = r.claimAll (claimed ops) := by
  induction ops generalizing r with
  | nil => rfl
  | cons op ops ih =>
    simp only [List.foldl_cons, claimed, List.flatMap_cons]
    rw [ih, perform_eq_claimAll, ← claimAll_append]
    rfl

theorem run_eq_claimAll (package : Option Text) (ops : List Op) :
    run package ops = (start package).claimAll (claimed ops) :=
  foldl_perform (start package) ops

theorem run_append (package : Option Text) (ops more : List Op) :
    run package (ops ++ more) = (run package ops).claimAll (claimed more) := by
  rw [run_eq_claimAll, run_eq_claimAll, ← claimAll_append]
  simp only [claimed, List.flatMap_append]

/-! ### The first class with a simple name -/

def firstWith (ns : List ClassName) (simple : Text) : Option ClassName :=
  ns.find? fun d => d.simple = simple

/-- The first class with the simple name of `c` is `c` itself. -/
def IsFirst (ns : List ClassName) (c : ClassName) : Prop := firstWith ns c.simple = some c

instance (ns : List ClassName) (c : ClassName) : Decidable (IsFirst ns c) :=
  inferInstanceAs (Decidable (_ = _))

theorem mem_of_firstWith {ns : List ClassName} {s : Text} {d : ClassName}
    (h : firstWith ns s = some d) : d ∈ ns ∧ d.simple = s := by
  refine ⟨List.mem_of_find?_eq_some h, ?_⟩
  simpa using List.find?_some h

theorem IsFirst.mem {ns : List ClassName} {c : ClassName} (h : IsFirst ns c) : c ∈ ns :=
  (mem_of_firstWith h).1

theorem isFirst_of_firstWith {ns : List ClassName} {s : Text} {d : ClassName}
    (h : firstWith ns s = some d) : IsFirst ns d := by
  have hd := (mem_of_firstWith h).2
  unfold IsFirst
  rw [hd, h]

theorem firstWith_eq_none_iff {ns : List ClassName} {s : Text} :
    firstWith ns s = none ↔ ∀ d ∈ ns, d.simple ≠ s := by
  simp [firstWith]

theorem exists_firstWith_of_mem {ns : List ClassName} {c : ClassName} (h : c ∈ ns) :
    ∃ d, firstWith ns c.simple = some d := by
  cases hf : firstWith ns c.simple with
  | none => exact absurd rfl (firstWith_eq_none_iff.1 hf c h)
  | some d => exact ⟨d, rfl⟩

theorem IsFirst.eq {ns : List ClassName} {c d : ClassName} (hc : IsFirst ns c)
    (hd : IsFirst ns d) (h : c.simple = d.simple) : c = d := by
  unfold IsFirst at hc hd
  rw [h, hd] at hc
  exact (Option.some_inj.1 hc).symm

theorem firstWith_append (ns ms : List ClassName) (s : Text) :
    firstWith (ns ++ ms) s = (firstWith ns s).or (firstWith ms s) :=
  List.find?_append

/-- What follows a class does not change whether it is the first with its simple name. -/
theorem isFirst_append_of_mem {ns : List ClassName} {c : ClassName} (ms : List ClassName)
    (h : c ∈ ns) : IsFirst (ns ++ ms) c ↔ IsFirst ns c := by
  obtain ⟨d, hd⟩ := exists_firstWith_of_mem h
  unfold IsFirst
  rw [firstWith_append, hd, Option.some_or]

theorem isFirst_iff_qualifier {ns : List ClassName} {c : ClassName} :
    IsFirst ns c ↔ (firstWith ns c.simple).map ClassName.qualifier = some c.qualifier := by
  constructor
  · intro h
    unfold IsFirst at h
    rw [h]
    rfl
  · intro h
    obtain ⟨d, hd, hq⟩ := Option.map_eq_some_iff.1 h
    have hs := (mem_of_firstWith hd).2
    have hdc : d = c := by
      cases d
      cases c
      simp_all
    unfold IsFirst
    rw [hd, hdc]

/-! ### Lists without repetitions -/

theorem eraseDups_concat_of_mem {α : Type} [BEq α] [LawfulBEq α] {l : List α} {a : α}
    (h : a ∈ l) : (l ++ [a]).eraseDups = l.eraseDups := by
  rw [List.eraseDups_append]
  simp [List.removeAll, h]

theorem eraseDups_concat_of_not_mem {α : Type} [BEq α] [LawfulBEq α] {l : List α} {a : α}
    (h : a ∉ l) : (l ++ [a]).eraseDups = l.eraseDups ++ [a] := by
  rw [List.eraseDups_append]
  simp [List.removeAll, h, List.eraseDups_cons]

theorem nodup_eraseDups {α : Type} [BEq α] [LawfulBEq α] (l : List α) :
    l.eraseDups.Nodup := by
  induction l using List.reverseRecOn with
  | nil => simp
  | append_singleton l a ih =>
    by_cases h : a ∈ l
    · rw [eraseDups_concat_of_mem h]
      exact ih
    · have ha : a ∉ l.eraseDups := fun hm => h (List.mem_eraseDups.1 hm)
      rw [eraseDups_concat_of_not_mem h, List.nodup_append]
      refine ⟨ih, List.nodup_singleton a, ?_⟩
      intro b hb x hx hbx
      rw [List.mem_singleton.1 hx] at hbx
      exact ha (hbx ▸ hb)

theorem filter_eraseDups_concat {p q : ClassName → Bool} {ns : List ClassName} (c : ClassName)
    (h : ∀ d ∈ ns, p d = q d) :
    (ns ++ [c]).eraseDups.filter p =
      ns.eraseDups.filter q ++ if c ∉ ns ∧ p c = true then [c] else [] := by
  have hold : ns.eraseDups.filter p = ns.eraseDups.filter q :=
    List.filter_congr fun d hd => h d (List.mem_eraseDups.1 hd)
  by_cases hc : c ∈ ns
  · simp [eraseDups_concat_of_mem hc, hc, hold]
  · rw [eraseDups_concat_of_not_mem hc, List.filter_append, hold]
    cases hp : p c with
    | true => simp [hc, hp]
    | false => simp [hp]

/-! ### The state after claims -/

/-- The imports hold what the claims `ns` leave behind. -/
structure AfterClaims (r : Imports) (ns : List ClassName) : Prop where
  owners_eq : r.owners = ns.eraseDups.filter fun c => IsFirst ns c
  conflicts_eq : r.conflicts = ns.eraseDups.filter fun c => ¬IsFirst ns c

theorem afterClaims_start (package : Option Text) : AfterClaims (start package) [] := by
  cases package with
  | none => exact ⟨rfl, rfl⟩
  | some p => exact ⟨rfl, rfl⟩

theorem afterClaims_forPackage (package : Text) : AfterClaims (forPackage package) [] :=
  afterClaims_start (some package)

namespace AfterClaims

variable {r : Imports} {ns : List ClassName}

theorem mem_owners (h : AfterClaims r ns) {c : ClassName} : c ∈ r.owners ↔ IsFirst ns c := by
  rw [h.owners_eq, List.mem_filter, List.mem_eraseDups, decide_eq_true_iff]
  exact ⟨And.right, fun hc => ⟨hc.mem, hc⟩⟩

theorem mem_conflicts (h : AfterClaims r ns) {c : ClassName} :
    c ∈ r.conflicts ↔ c ∈ ns ∧ ¬IsFirst ns c := by
  rw [h.conflicts_eq, List.mem_filter, List.mem_eraseDups, decide_eq_true_iff]

theorem owner?_eq (h : AfterClaims r ns) (s : Text) : r.owner? s = firstWith ns s := by
  cases ho : r.owner? s with
  | none =>
    cases hf : firstWith ns s with
    | none => rfl
    | some d =>
      have hd : d ∈ r.owners := h.mem_owners.2 (isFirst_of_firstWith hf)
      have hs := List.find?_eq_none.1 ho d hd
      simp [(mem_of_firstWith hf).2] at hs
  | some d =>
    have hd : IsFirst ns d := h.mem_owners.1 (List.mem_of_find?_eq_some ho)
    have hs : d.simple = s := by simpa using List.find?_some ho
    rw [← hs]
    exact hd.symm

theorem isShort_iff (h : AfterClaims r ns) (c : ClassName) :
    r.isShort c = true ↔ IsFirst ns c := by
  simp only [isShort, h.owner?_eq, decide_eq_true_iff]
  rfl

/-- One more claim: the step that carries the description of the state along a run. -/
theorem claim (h : AfterClaims r ns) (c : ClassName) :
    AfterClaims (r.claim c).1 (ns ++ [c]) := by
  have hold : ∀ d ∈ ns, (IsFirst (ns ++ [c]) d ↔ IsFirst ns d) :=
    fun d hd => isFirst_append_of_mem [c] hd
  have howners := filter_eraseDups_concat (p := fun d => IsFirst (ns ++ [c]) d)
    (q := fun d => IsFirst ns d) c (fun d hd => decide_eq_decide.2 (hold d hd))
  have hconflicts := filter_eraseDups_concat (p := fun d => ¬IsFirst (ns ++ [c]) d)
    (q := fun d => ¬IsFirst ns d) c (fun d hd => decide_eq_decide.2 (not_congr (hold d hd)))
  rw [← h.owners_eq] at howners
  rw [← h.conflicts_eq] at hconflicts
  -- owners and conflicts share the class list: a new class goes to the end of one of them, and
  -- to which one is settled by the owner of its simple name
  suffices hsplit :
      (r.claim c).1.owners =
        r.owners ++ (if c ∉ ns ∧ IsFirst (ns ++ [c]) c then [c] else []) ∧
      (r.claim c).1.conflicts =
        r.conflicts ++ (if c ∉ ns ∧ ¬IsFirst (ns ++ [c]) c then [c] else []) by
    refine ⟨?_, ?_⟩
    · simpa [howners] using hsplit.1
    · rw [hconflicts]
      simpa using hsplit.2
  cases ho : r.owner? c.simple with
  | none =>
    have hf : firstWith ns c.simple = none := by rw [← h.owner?_eq, ho]
    have hc : c ∉ ns := fun hm => firstWith_eq_none_iff.1 hf c hm rfl
    have hfirst : IsFirst (ns ++ [c]) c := by
      unfold IsFirst
      rw [firstWith_append, hf]
      simp [firstWith]
    simp [Imports.claim, ho, hc, hfirst]
  | some owner =>
    have hf : firstWith ns c.simple = some owner := by rw [← h.owner?_eq, ho]
    have hfirst : IsFirst (ns ++ [c]) c ↔ owner = c := by
      unfold IsFirst
      rw [firstWith_append, hf, Option.some_or, Option.some_inj]
    by_cases hown : owner = c
    · have hc : c ∈ ns := hown ▸ (mem_of_firstWith hf).1
      simp [Imports.claim, ho, hown, hc]
    · have hmem : c ∈ r.conflicts ↔ c ∈ ns := by
        rw [h.mem_conflicts]
        unfold IsFirst
        rw [hf, Option.some_inj]
        exact ⟨And.left, fun hc => ⟨hc, hown⟩⟩
      by_cases hc : c ∈ ns
      · simp [Imports.claim, ho, hown, hmem, hc]
      · simp [Imports.claim, ho, hown, hmem, hc, hfirst]

theorem claimAll (h : AfterClaims r ns) (cs : List ClassName) :
    AfterClaims (r.claimAll cs) (ns ++ cs) := by
  induction cs generalizing r ns with
  | nil => simpa using h
  | cons c cs ih =>
    have hstep := ih (h.claim c)
    rwa [List.append_assoc, List.singleton_append] at hstep

theorem nodup_owners (h : AfterClaims r ns) : (r.owners.map ClassName.simple).Nodup := by
  have hn : r.owners.Nodup := by
    rw [h.owners_eq]
    exact (nodup_eraseDups ns).filter _
  refine hn.map_on ?_
  intro c hc d hd hs
  exact (h.mem_owners.1 hc).eq (h.mem_owners.1 hd) hs

theorem nodup_conflicts (h : AfterClaims r ns) : r.conflicts.Nodup := by
  rw [h.conflicts_eq]
  exact (nodup_eraseDups ns).filter _

theorem size_eq (h : AfterClaims r ns) :
    r.size = (ns.map ClassName.simple).eraseDups.length := by
  have hp : (r.owners.map ClassName.simple).Perm (ns.map ClassName.simple).eraseDups := by
    refine (List.perm_ext_iff_of_nodup h.nodup_owners (nodup_eraseDups _)).2 ?_
    intro s
    rw [List.mem_eraseDups, List.mem_map, List.mem_map]
    constructor
    · rintro ⟨c, hc, rfl⟩
      exact ⟨c, (h.mem_owners.1 hc).mem, rfl⟩
    · rintro ⟨c, hc, rfl⟩
      obtain ⟨d, hd⟩ := exists_firstWith_of_mem hc
      exact ⟨d, h.mem_owners.2 (isFirst_of_firstWith hd), (mem_of_firstWith hd).2⟩
  have hl := hp.length_eq
  rwa [List.length_map] at hl

theorem claim_eq_of_mem (h : AfterClaims r ns) {c : ClassName} (hc : c ∈ ns) :
    (r.claim c).1 = r := by
  obtain ⟨owner, hf⟩ := exists_firstWith_of_mem hc
  have ho : r.owner? c.simple = some owner := by rw [h.owner?_eq, hf]
  by_cases hown : owner = c
  · simp [Imports.claim, ho, hown]
  · have hm : c ∈ r.conflicts := by
      rw [h.mem_conflicts]
      unfold IsFirst
      rw [hf, Option.some_inj]
      exact ⟨hc, hown⟩
    simp [Imports.claim, ho, hown, hm]

theorem claimAll_eq_of_subset (h : AfterClaims r ns) {cs : List ClassName} (hcs : cs ⊆ ns) :
    r.claimAll cs = r := by
  induction cs with
  | nil => rfl
  | cons c cs ih =>
    have hc : c ∈ ns := hcs (List.mem_cons_self ..)
    rw [claimAll_cons, h.claim_eq_of_mem hc]
    exact ih fun d hd => hcs (List.mem_cons_of_mem _ hd)

/-- A claimed class is short after further claims exactly if it was short before them. -/
theorem isShort_claimAll (h : AfterClaims r ns) (cs : List ClassName) {c : ClassName}
    (hc : c ∈ ns) : (r.claimAll cs).isShort c = r.isShort c := by
  rw [Bool.eq_iff_iff, (h.claimAll cs).isShort_iff, h.isShort_iff]
  exact isFirst_append_of_mem cs hc

end AfterClaims

theorem claim_snd (r : Imports) (c : ClassName) : (r.claim c).2 = (r.claim c).1.isShort c := by
  cases ho : r.owner? c.simple with
  | none =>
    have hnone : r.owners.find? (fun d => d.simple = c.simple) = none := ho
    simp [claim, isShort, owner?, List.find?_append, hnone]
  | some owner =>
    by_cases hown : owner = c
    · simp [claim, ho, hown, isShort]
    · by_cases hc : c ∈ r.conflicts
      · simp [claim, ho, hown, hc, isShort]
      · have hsome : r.owners.find? (fun d => d.simple = c.simple) = some owner := ho
        simp [claim, hown, hc, isShort, owner?, hsome]

@[simp] theorem implicit_claim (r : Imports) (c : ClassName) :
    (r.claim c).1.implicit = r.implicit := by
  unfold claim
  split
  · rfl
  · split
    · rfl
    · split
      · rfl
      · rfl

@[simp] theorem implicit_claimAll (r : Imports) (cs : List ClassName) :
    (r.claimAll cs).implicit = r.implicit := by
  induction cs generalizing r with
  | nil => rfl
  | cons c cs ih => rw [claimAll_cons, ih, implicit_claim]

/-! ### Import lines -/

theorem needsImport_start_iff (package : Option Text) (c : ClassName) :
    (start package).needsImport c = true ↔
      c.qualifier ≠ [] ∧ c.qualifier ∉ implicitPackages package := by
  cases package with
  | none => simp [needsImport, start, empty, implicitPackages]
  | some p =>
    by_cases hp : p = []
    · simp [needsImport, start, forPackage, implicitPackages, hp]
      tauto
    · simp [needsImport, start, forPackage, implicitPackages, hp]

theorem needsImport_run_iff (package : Option Text) (ops : List Op) (c : ClassName) :
    (run package ops).needsImport c = true ↔
      c.qualifier ≠ [] ∧ c.qualifier ∉ implicitPackages package := by
  rw [← needsImport_start_iff, run_eq_claimAll]
  simp only [needsImport, implicit_claimAll]

theorem AfterClaims.importLines_eq {r : Imports} {ns : List ClassName} (h : AfterClaims r ns) :
    r.importLines = ns.eraseDups.filter fun c => IsFirst ns c ∧ r.needsImport c = true := by
  rw [importLines, h.owners_eq, List.filter_filter]
  refine List.filter_congr fun c _ => ?_
  rw [Bool.decide_and, Bool.decide_eq_true, Bool.and_comm]

theorem afterClaims_run (package : Option Text) (ops : List Op) :
    AfterClaims (run package ops) (claimed ops) := by
  rw [run_eq_claimAll]
  exact (afterClaims_start package).claimAll (claimed ops)

/-- The end of a run decides nothing about the classes that were claimed before. -/
theorem isShort_run_append (package : Option Text) (ops more : List Op) {c : ClassName}
    (hc : c ∈ claimed ops) :
    (run package (ops ++ more)).isShort c = (run package ops).isShort c := by
  rw [run_append]
  exact (afterClaims_run package ops).isShort_claimAll (claimed more) hc

/-- After any run from a start without claims, a class is short exactly if the first claim of its
simple name was for its qualifier, each claim answers with what holds from then on, the import
lines, conflicts and size are read off the claimed classes, and nothing that a run has settled
changes in a longer run. -/
theorem run_first_claim_wins (package : Option Text) (ops : List Op) :
    (∀ c, (run package ops).isShort c = true ↔
      (firstWith (claimed ops) c.simple).map ClassName.qualifier = some c.qualifier) ∧
    (∀ before c after, ops = before ++ .claim c :: after →
      ((run package before).claim c).2 = (run package (before ++ [.claim c])).isShort c ∧
      ((run package before).claim c).2 = (run package ops).isShort c) ∧
    (run package ops).importLines.Nodup ∧
    (run package ops).importLines = (claimed ops).eraseDups.filter (fun c =>
      IsFirst (claimed ops) c ∧ c.qualifier ≠ [] ∧ c.qualifier ∉ implicitPackages package) ∧
    (run package ops).conflicts.Nodup ∧
    (run package ops).conflicts = (claimed ops).eraseDups.filter (fun c =>
      (firstWith (claimed ops) c.simple).map ClassName.qualifier ≠ some c.qualifier) ∧
    (run package ops).size = ((claimed ops).map ClassName.simple).eraseDups.length ∧
    (∀ more c, (run package ops).isShort c = true →
      (run package (ops ++ more)).isShort c = true) ∧
    (∀ more c, c ∈ (run package ops).conflicts →
      (run package (ops ++ more)).isShort c = false) ∧
    ∀ op ∈ ops, (run package ops).perform op = run package ops := by
  have h := afterClaims_run package ops
  refine ⟨?_, ?_, ?_, ?_, h.nodup_conflicts, ?_, h.size_eq, ?_, ?_, ?_⟩
  · intro c
    rw [h.isShort_iff, isFirst_iff_qualifier]
  · rintro before c after rfl
    have hsnd : ((run package before).claim c).2 =
        (run package (before ++ [.claim c])).isShort c := by
      rw [claim_snd, run_append]
      rfl
    have hc : c ∈ claimed (before ++ [.claim c]) := by
      simp [claimed, Op.names]
    have hlater := isShort_run_append package (before ++ [.claim c]) after hc
    rw [List.append_assoc, List.singleton_append] at hlater
    exact ⟨hsnd, hsnd.trans hlater.symm⟩
  · rw [h.importLines_eq]
    exact (nodup_eraseDups _).filter _
  · rw [h.importLines_eq]
    refine List.filter_congr fun c _ => decide_eq_decide.2 ?_
    rw [needsImport_run_iff]
  · rw [h.conflicts_eq]
    refine List.filter_congr fun c _ => decide_eq_decide.2 (not_congr ?_)
    exact isFirst_iff_qualifier
  · intro more c hc
    rw [isShort_run_append package ops more ((h.isShort_iff c).1 hc).mem]
    exact hc
  · intro more c hc
    obtain ⟨hm, hn⟩ := h.mem_conflicts.1 hc
    rw [isShort_run_append package ops more hm]
    exact Bool.eq_false_iff.2 fun hs => hn ((h.isShort_iff c).1 hs)
  · intro op hop
    rw [perform_eq_claimAll]
    refine h.claimAll_eq_of_subset fun c hc => ?_
    exact List.mem_flatMap.2 ⟨op, hop, hc⟩

/-- The class that claimed a name first keeps it when another claims it in between. -/
example : (run none [.claim ⟨['a'], ['F']⟩, .claim ⟨['b'], ['F']⟩, .claim ⟨['a'], ['F']⟩]).owners =
    [⟨['a'], ['F']⟩] := by decide

end Imports

end JavaSource
