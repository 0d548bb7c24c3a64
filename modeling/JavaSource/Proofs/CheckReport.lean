import JavaSource.CommandLine.Run
import JavaSource.Proofs.BuiltNames
import JavaSource.Proofs.Callables
import JavaSource.Proofs.FileLines
import JavaSource.Proofs.WrittenFiles

/-!
# What a check promises

A check reads and builds a manifest just as a generation does, and prints for each unit the
signatures of its methods. No character of an accepted name ends a line, so each signature stands
on one line of the report, and in the file of the unit on one line as well. This file is what a dry
run shows, and what is read back after a run that writes it.
-/

namespace JavaSource

open Text

/-! ### Built methods -/

theorem Method.unbroken_signature {naming : Naming} {m : Method} (hname : m.name.Unbroken)
    (harguments : ∀ a ∈ m.arguments, a.name.Unbroken)
    (hclasses : ∀ c ∈ m.classNames, (naming c).Unbroken) : (m.signature naming).Unbroken :=
  unbroken_iff.2 fun _ hx =>
    m.break_not_mem_signature hx (hname.break_not_mem hx)
      (fun a ha => (harguments a ha).break_not_mem hx)
      fun c hc => (hclasses c hc).break_not_mem hx

theorem unbroken_argumentsFrom {args : List ArgumentDecl} (h : ∀ a ∈ args, a.Accepted)
    (position : Nat) : ∀ x ∈ argumentsFrom position args, x.name.Unbroken :=
  fun _ hx => (isIdentifier_of_mem_argumentsFrom h hx).unbroken

namespace Manifest

variable {m : Manifest} {c : ClassDecl}

theorem unbroken_memberNames (h : m.Accepted) (hc : c ∈ m.classes) :
    ∀ x ∈ (m.classOf c).methods, x.name.Unbroken ∧ ∀ a ∈ x.arguments, a.name.Unbroken := by
  have ha := h.classes c hc
  have hsimple : c.simpleName.Unbroken := (ha.name _ (ClassName.simple_mem_split c.name)).unbroken
  intro x hx
  rcases List.mem_append.1 hx with hx | hx
  · obtain ⟨k, hk, rfl⟩ := List.mem_map.1 hx
    have hargs := unbroken_argumentsFrom (ha.constructors k hk).signature.argument 0
    simp only [ConstructorDecl.toMethod, Method.withMember, Method.addArguments_eq]
    exact ⟨hsimple, hargs⟩
  · obtain ⟨k, hk, rfl⟩ := List.mem_map.1 hx
    have hm := ha.methods k hk
    have hargs := unbroken_argumentsFrom hm.signature.argument 0
    simp only [MethodDecl.toMethod, Method.withMember, Method.addArguments_eq]
    exact ⟨hm.name.unbroken, hargs⟩

theorem unbroken_signature (h : m.Accepted) (hc : c ∈ m.classes) :
    ∀ x ∈ (m.classOf c).methods, (x.signature (m.unitOf c).imports.name).Unbroken := by
  intro x hx
  obtain ⟨hname, hargs⟩ := unbroken_memberNames h hc x hx
  refine Method.unbroken_signature hname hargs fun d hd => ?_
  have hmentioned : d ∈ (m.classOf c).classNames :=
    List.mem_append_right _ (List.mem_flatMap.2 ⟨x, hx, hd⟩)
  exact Imports.unbroken_name _ (proper_classOf h hc d hmentioned)

theorem accepted_of_ofFile {path : Text} {bytes : Option (List UInt8)}
    (h : ofFile path bytes = .ok m) : m.Accepted := by
  unfold ofFile at h
  split at h
  · next source _ =>
    unfold ofText at h
    split at h
    · cases h
    · split at h
      · cases h
      · next hnone =>
        cases h
        exact problem?_eq_none_iff.1 hnone
  · cases h

end Manifest

/-! ### Reports -/

namespace CommandLine

/-- The report names the class of a unit and then its methods, each on a line of its own. -/
theorem endedLines_summary {u : CompilationUnit} (hname : u.classDef.name.qualified.Unbroken)
    (h : ∀ x ∈ u.classDef.methods, (x.signature u.imports.name).Unbroken) :
    endedLines (summary u) =
      ("    ".toList ++ u.classDef.kind.keyword ++ ' ' :: u.classDef.name.qualified) ::
        u.classDef.methods.map fun x => "      ".toList ++ x.signature u.imports.name := by
  have hkeyword : u.classDef.kind.keyword.Unbroken := by
    cases u.classDef.kind <;> decide
  have hhead : '\n' ∉
      "    ".toList ++ u.classDef.kind.keyword ++ ' ' :: u.classDef.name.qualified := by
    simp [hkeyword.newline_not_mem, hname.newline_not_mem]
  have htail := endedLines_flatMap_line (l := u.classDef.methods)
    (f := fun x => "      ".toList ++ x.signature u.imports.name) fun x hx => by
      simp [(h x hx).newline_not_mem]
  unfold summary
  rw [endedLines_append (Or.inr ⟨_, rfl⟩), endedLines_line hhead, htail]
  rfl

theorem load_of_error {path : Text} {bytes : Option (List UInt8)} {d : Diagnostic}
    (h : Manifest.ofFile path bytes = .error d) : load path bytes = .error (.rejected d) := by
  unfold load
  rw [h]
  rfl

theorem load_of_ok {path : Text} {bytes : Option (List UInt8)} {m : Manifest}
    (h : Manifest.ofFile path bytes = .ok m) :
    load path bytes = .ok (m, m.classes.map m.unitOf) := by
  unfold load
  rw [h]
  simp only [Except.mapError, bind, Except.bind,
    Manifest.units_eq (Manifest.accepted_of_ofFile h)]
  rfl

theorem run_eq {args : List Text} {command : Command} (h : read args = .run command)
    (disk : Disk) :
    run disk args = (command.plan (disk.readPath? command.config)).perform disk := by
  unfold run
  rw [h]

theorem infix_flatMap_text {α : Type} {l : List α} {x : α} (hx : x ∈ l) (f : α → Text) :
    f x <:+: l.flatMap f := by
  rw [List.flatMap_def]
  exact List.infix_of_mem_flatten (List.mem_map_of_mem hx)

theorem summary_infix_checkText {config : Text} {units : List CompilationUnit} {u : CompilationUnit}
    (hu : u ∈ units) : summary u <:+: checkText config units :=
  (infix_flatMap_text hu summary).trans (List.suffix_append _ _).isInfix

/-- A preview shows the file of every unit with its path above it. -/
theorem infix_previewText {m : Manifest} {units : List CompilationUnit} {u : CompilationUnit}
    (hu : u ∈ units) :
    ("── ".toList ++ u.path ++ " ──\n".toList ++ u.render m.settings.indent ++ ['\n']) <:+:
      previewText (outputFiles m units) := by
  have hmem : u.outputFile m.settings.indent ∈ outputFiles m units := List.mem_map_of_mem hu
  have hblock := infix_flatMap_text hmem fun f =>
    "── ".toList ++ f.path ++ " ──\n".toList ++ f.content ++ ['\n']
  refine List.IsInfix.trans hblock (List.IsPrefix.isInfix ?_)
  unfold previewText
  rw [List.append_assoc, List.append_assoc]
  exact List.prefix_append _ _

theorem saveAll?_of_code {disk : Disk} {output : Text} {files : List OutputFile}
    (h : ((Plan.write output files).perform disk).code = 0) :
    ∃ report, disk.saveAll? output files =
      (some report, ((Plan.write output files).perform disk).disk) := by
  unfold Plan.perform at h ⊢
  dsimp only at h ⊢
  split at h
  · next report after hsaved => exact ⟨report, by rw [hsaved]⟩
  · cases h

/-- A check of a manifest succeeds exactly if a dry run of its generation does, and neither touches
the disk; nor does a generation from a manifest that is rejected. From an accepted one the same
units are checked, shown and written: the check reports every unit, the dry run shows the file of
every unit with its path, and after a successful run each file holds just this text. Each signature
that is reported for a unit stands on one line there, and on one line of its file, one unit deep and
before a semicolon or brace, in the same order. -/
theorem check_foretells_generate (disk : Disk) (checkArgs dryArgs writeArgs : List Text)
    (config dryOutput output : Text) (hcheck : read checkArgs = .run (.check config))
    (hdry : read dryArgs = .run (.generate config dryOutput true))
    (hwrite : read writeArgs = .run (.generate config output false)) :
    ((run disk checkArgs).code = 0 ↔ (run disk dryArgs).code = 0) ∧
    (run disk checkArgs).disk = disk ∧ (run disk dryArgs).disk = disk ∧
    (∀ d, Manifest.ofFile config (disk.readPath? config) = .error d →
      (run disk checkArgs).code ≠ 0 ∧ (run disk writeArgs).code ≠ 0 ∧
        (run disk writeArgs).disk = disk) ∧
    ∀ m, Manifest.ofFile config (disk.readPath? config) = .ok m → ∃ units,
      m.units = .ok units ∧
      run disk checkArgs = ⟨0, checkText config units, disk⟩ ∧
      run disk dryArgs = ⟨0, previewText (outputFiles m units), disk⟩ ∧
      run disk writeArgs = (Plan.write output (outputFiles m units)).perform disk ∧
      outputFiles m units = units.map (CompilationUnit.outputFile m.settings.indent) ∧
      ∀ u ∈ units,
        summary u <:+: (run disk checkArgs).stdout ∧
        ("── ".toList ++ u.path ++ " ──\n".toList ++ u.render m.settings.indent ++ ['\n']) <:+:
          (run disk dryArgs).stdout ∧
        ((run disk writeArgs).code = 0 →
          (run disk writeArgs).disk.readPath? (appendPathPart output u.path) =
            some (toUtf8 (u.render m.settings.indent))) ∧
        (∀ x ∈ u.classDef.methods, (x.signature u.imports.name).Unbroken) ∧
        endedLines (summary u) =
          ("    ".toList ++ u.classDef.kind.keyword ++ ' ' :: u.classDef.name.qualified) ::
            (u.classDef.methods.map fun x => "      ".toList ++ x.signature u.imports.name) ∧
        (u.classDef.methods.map (Method.headLine m.settings.indent.unit u.imports.name)).Sublist
          (endedLines (u.render m.settings.indent)) := by
  rw [run_eq hcheck, run_eq hdry, run_eq hwrite]
  cases hfile : Manifest.ofFile config (disk.readPath? config) with
  | error d =>
    have hplan : ∀ command : Command, command.config = config →
        command.plan (disk.readPath? command.config) = .fail (.rejected d) := by
      intro command hconfig
      rw [Command.plan, hconfig, load_of_error hfile]
    rw [hplan _ rfl, hplan _ rfl, hplan _ rfl]
    have hfails : (Plan.perform disk (.fail (.rejected d))).code ≠ 0 := Nat.one_ne_zero
    exact ⟨Iff.rfl, rfl, rfl, fun _ _ => ⟨hfails, hfails, rfl⟩, fun _ hm => nomatch hm⟩
  | ok m =>
    have ha := Manifest.accepted_of_ofFile hfile
    have hload := load_of_ok hfile
    let units := m.classes.map m.unitOf
    have hprinted : (Command.check config).plan (disk.readPath? config) =
        .print (checkText config units) := by
      simp only [Command.plan, Command.config, hload, units]
    have hpreviewed : (Command.generate config dryOutput true).plan (disk.readPath? config) =
        .print (previewText (outputFiles m units)) := by
      simp only [Command.plan, Command.config, hload, if_true, units]
    have hwritten : (Command.generate config output false).plan (disk.readPath? config) =
        .write output (outputFiles m units) := by
      simp only [Command.plan, Command.config, hload, Bool.false_eq_true, if_false, units]
    simp only [Command.config, hprinted, hpreviewed, hwritten]
    refine ⟨Iff.rfl, rfl, rfl, fun _ hd => (nomatch hd), fun n hn => ?_⟩
    cases hn
    refine ⟨units, Manifest.units_eq ha, rfl, rfl, rfl, rfl, fun u hu => ?_⟩
    refine ⟨summary_infix_checkText hu, infix_previewText hu, fun hcode => ?_, ?_⟩
    · obtain ⟨report, hsaved⟩ := saveAll?_of_code hcode
      exact Manifest.readPath?_of_saveAll? ha hsaved u hu
    · obtain ⟨c, hc, rfl⟩ := List.mem_map.1 hu
      have hsignature := Manifest.unbroken_signature ha hc
      have hqualified : (m.classOf c).name.qualified.Unbroken :=
        (ClassName.Proper.unbroken ⟨c.name, (ha.classes c hc).name, rfl⟩).2
      exact ⟨hsignature, endedLines_summary hqualified hsignature,
        CompilationUnit.headLines_sublist _ fun x hx => (hsignature x hx).newline_not_mem⟩

/-- A disk with the manifest of one class with one method, its records written as arrays. -/
def oneClassDisk : Disk :=
  [(defaultConfig, .file (toUtf8 (("classes = [[\"p.A\", false, \"public\", false, false, " ++
    "\"q.Base\", [], [], [], [], [],\n  [[\"run\"]]]]\n").toList)))]

theorem oneClassDisk_foretold :
    (run oneClassDisk ["check".toList]).stdout =
      ("✓ jwrap.toml is valid\n\n  1 class:\n    class p.A\n" ++
        "      public void run()\n").toList ∧
    (run oneClassDisk ["generate".toList, "--dry-run".toList]).code = 0 ∧
    (run oneClassDisk ["generate".toList]).code = 0 ∧
    ∃ content, "    public void run() \x7b".toList ∈ endedLines content ∧
      ("── ".toList ++ "p/A.java".toList ++ " ──\n".toList ++ content ++ ['\n']) <:+:
        (run oneClassDisk ["generate".toList, "--dry-run".toList]).stdout ∧
      (run oneClassDisk ["generate".toList]).disk.readPath? "out/p/A.java".toList =
        some (toUtf8 content) := by
  obtain ⟨hcodes, -, -, hrejected, haccepted⟩ := check_foretells_generate oneClassDisk
    ["check".toList] ["generate".toList, "--dry-run".toList] ["generate".toList] defaultConfig
    defaultOutput defaultOutput (by decide +kernel) (by decide +kernel) (by decide +kernel)
  have hrun : (run oneClassDisk ["check".toList]).code = 0 ∧
      (run oneClassDisk ["check".toList]).stdout =
        ("✓ jwrap.toml is valid\n\n  1 class:\n    class p.A\n" ++
          "      public void run()\n").toList := by
    decide +kernel
  have hwritten : (run oneClassDisk ["generate".toList]).code = 0 := by decide +kernel
  refine ⟨hrun.2, hcodes.1 hrun.1, hwritten, ?_⟩
  cases hm : Manifest.ofFile defaultConfig (oneClassDisk.readPath? defaultConfig) with
  | error d => exact absurd hrun.1 (hrejected d hm).1
  | ok m =>
    obtain ⟨units, hbuilt, -, -, -, -, hunits⟩ := haccepted m hm
    rw [Manifest.units_eq (Manifest.accepted_of_ofFile hm)] at hbuilt
    have hloaded := load_of_ok hm
    rw [Except.ok.inj hbuilt] at hloaded
    have hheads : ((load defaultConfig (oneClassDisk.readPath? defaultConfig)).toOption.map fun p =>
        p.2.map fun u => (u.path,
          u.classDef.methods.map (Method.headLine p.1.settings.indent.unit u.imports.name))) =
        some [("p/A.java".toList, ["    public void run() \x7b".toList])] := by
      decide +kernel
    rw [hloaded] at hheads
    have hunit := Option.some.inj hheads
    obtain ⟨u, hu, hhead⟩ := List.mem_map.1 (hunit ▸ List.mem_singleton_self _)
    obtain ⟨hpath, hlines⟩ := Prod.mk.inj hhead
    obtain ⟨-, hshown, hread, -, -, hsublist⟩ := hunits u hu
    rw [hlines] at hsublist
    rw [hpath] at hshown hread
    exact ⟨u.render m.settings.indent, hsublist.subset (List.mem_singleton_self _), hshown,
      hread hwritten⟩

end CommandLine

end JavaSource
