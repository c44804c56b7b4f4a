import TypedClient.Proofs.Cleaning

/-!
# Dry runs

A dry run lists the files, and the run that it stands for goes through them one by one: it looks at
a file's size when it is the file's turn, when others have been removed already (`Clean.inTurn`).
Neither notices the difference, because no place is listed twice and removing a file leaves what is
at other places (`inTurn_generatedFiles`). So both report the same sizes, and the same total.

On the command line the two differ in one flag, which can be put before any arguments
(`parse_flag_cons`).
-/

namespace TypedClient

/-! ## One file after the other -/

namespace Clean

open FileTree

variable {t : FileTree} {root : Place}

/-- The files at some places removed, each with the size that it has when it is its turn. Where no
file is any more, nothing is done. -/
def inTurn : List Place → FileTree → List (Place × Nat) × FileTree
  | [], t => ([], t)
  | place :: rest, t =>
    match t.at? place with
    | some (.file bytes) =>
      let (others, t) := inTurn rest (t.erase place)
      ((place, bytes.size) :: others, t)
    | _ => inTurn rest t

/-- The step: a file that is there is reported with its size, and its removal leaves the ones that
come after it. -/
theorem inTurn_eq {files : List (Place × Nat)} (hnodup : (files.map (·.1)).Nodup)
    (hthere : ∀ file ∈ files, ∃ bytes, t.at? file.1 = some (.file bytes) ∧ bytes.size = file.2) :
    inTurn (files.map (·.1)) t = (files, removeFiles (files.map (·.1)) t) := by
  induction files generalizing t with
  | nil => rfl
  | cons file rest ih =>
      obtain ⟨place, size⟩ := file
      rw [List.map_cons, List.nodup_cons] at hnodup
      rw [List.forall_mem_cons] at hthere
      obtain ⟨⟨bytes, hplace, rfl⟩, hrest⟩ := hthere
      have hothers : ∀ file ∈ rest, ∃ bytes,
          (t.erase place).at? file.1 = some (.file bytes) ∧ bytes.size = file.2 := by
        intro file hfile
        have hne : file.1 ≠ place := fun hsame =>
          hnodup.1 (List.mem_map.2 ⟨file, hfile, hsame⟩)
        rw [at?_erase hne]
        exact hrest file hfile
      rw [List.map_cons, inTurn, hplace]
      dsimp only
      rw [ih hnodup.2 hothers]
      rfl

/-- What is listed before anything is removed is what is removed, with the sizes found then. -/
theorem inTurn_generatedFiles (h : t.Unambiguous) (root : Place) :
    inTurn ((generatedFiles t root).map (·.1)) t = (generatedFiles t root, cleared t root) := by
  refine inTurn_eq (generatedFiles_nodup h) fun file hfile => ?_
  obtain ⟨bytes, hmem, htarget, hsize⟩ := mem_generatedFiles.1 hfile
  exact ⟨bytes, (h.at?_iff (Bool.and_eq_true_iff.1 htarget).1).2 hmem, hsize⟩

end Clean

/-! ## The flag -/

namespace CommandLine

open FileTree

namespace Arguments

variable {specs : List OptionSpec} {a : Arguments} {earlier : List (String × OptionValue)}
  {before rest : List Argument} {args : List String}

/-- Arguments after some options that were given before them. -/
def after (earlier : List (String × OptionValue)) (a : Arguments) : Arguments :=
  { a with options := a.options ++ earlier }

theorem undisputed_none (a : Arguments) : undisputed none a = .ok a := by
  simp [undisputed]

theorem takePositional_after (before : List Argument) :
    (a.after earlier).takePositional before = (a.takePositional before).after earlier := by
  rw [takePositional, takePositional]
  split
  · rfl
  · show (if a.isPositionalTaken then _ else _) = _
    split <;> rfl

/-- The step: what is collected does not depend on the options so far, which stay behind the new
ones. -/
theorem collect_after (pending : Option OptionSpec) (before rest : List Argument) :
    collect none (a.after earlier) pending before rest =
      (collect none a pending before rest).map (after earlier) := by
  induction rest generalizing a pending before with
  | nil =>
      cases pending with
      | some spec => rfl
      | none =>
          rw [collect, collect, undisputed_none, undisputed_none, takePositional_after]
          rfl
  | cons first rest ih =>
      cases pending with
      | some spec =>
          cases first with
          | positional s =>
              simp only [collect, undisputed_none]
              cases convert spec.kind s with
              | error e => rfl
              | ok value => exact @ih (a.give spec.name value) none []
          | separator => rfl
          | option spec attached => rfl
          | unknown => rfl
      | none =>
          cases first with
          | positional s => exact ih none _
          | separator => exact ih none _
          | option spec attached =>
              simp only [collect, undisputed_none, takePositional_after]
              show (valueAtOnce spec attached >>= _) =
                Except.map _ (valueAtOnce spec attached >>= _)
              cases valueAtOnce spec attached with
              | error e => rfl
              | ok value =>
                  cases value with
                  | none => exact ih (some spec) []
                  | some value =>
                      exact @ih ((a.takePositional before.reverse).give spec.name value) none []
          | unknown =>
              simp only [collect, undisputed_none, takePositional_after]
              exact @ih { a.takePositional before.reverse with hasExtra := true } none []

theorem classify_dryRun : classify (helpOptions ++ cleanSpecs) "--dry-run" =
    .ok (.option ⟨"--dry-run", .flag⟩ none) := by
  decide +kernel

/-- The flag before any arguments. -/
theorem parse_flag_cons (args : List String) :
    parse cleanSpecs none ("--dry-run" :: args) =
      (parse cleanSpecs none args).map (after [("--dry-run", .set)]) := by
  rw [parse, parse, classifyAll, if_neg (by decide), classify_dryRun]
  cases classifyAll (helpOptions ++ cleanSpecs) args with
  | error e => rfl
  | ok found =>
      show (collect none {} none [] (.option ⟨"--dry-run", .flag⟩ none :: found) >>= _) =
        Except.map _ (collect none {} none [] found >>= _)
      have hflag : collect none {} none [] (.option ⟨"--dry-run", .flag⟩ none :: found) =
          (collect none {} none [] found).map (after [("--dry-run", .set)]) :=
        collect_after (a := {}) none [] found
      rw [hflag]
      cases collect none {} none [] found with
      | error e => rfl
      | ok a =>
          show (if a.hasExtra then _ else _) = Except.map _ (if a.hasExtra then _ else _)
          split <;> rfl

end Arguments

/-! ## Both runs -/

/-- Arguments of a dry run, and those of the run that it stands for. -/
def Rehearses (dryArgs args : List String) : Prop :=
  ∃ d a, Arguments.parse cleanSpecs none dryArgs = .ok d ∧
    Arguments.parse cleanSpecs none args = .ok a ∧ d.isSet "--dry-run" = true ∧
    a.isSet "--dry-run" = false ∧ d.positional = a.positional

/-- Any arguments are rehearsed with the flag before them. -/
theorem rehearses_flag_cons {args : List String} {a : Arguments}
    (hparse : Arguments.parse cleanSpecs none args = .ok a) (hwet : a.isSet "--dry-run" = false) :
    Rehearses ("--dry-run" :: args) args := by
  have hdry : Arguments.parse cleanSpecs none ("--dry-run" :: args) =
      .ok (a.after [("--dry-run", .set)]) := by
    rw [Arguments.parse_flag_cons, hparse]
    rfl
  refine ⟨_, a, hdry, hparse, ?_, hwet, rfl⟩
  rw [Arguments.isSet, Arguments.value?, Arguments.after, List.lookup_append, Option.isSome_or]
  exact Bool.or_true _

/-- What a dry run and the run that it stands for do about the generated files. -/
structure Foretold (t : FileTree) (outDir : Path) (root : Place) (files : List (Place × Nat))
    (dry wet : Outcome) : Prop where
  /-- The dry run lists the files and their total, and leaves everything as it is. -/
  listed : dry = ⟨.code 0, unlines ([cleaningLine outDir] ++
    fileLines outDir root "Would remove" files ++
    ["", "Would free: " ++ FileSize.text (files.map (·.2)).sum, "",
      "Run without --dry-run to actually clean."]), "", t⟩
  /-- The run reports these files, and if it ends well their total. -/
  reported : ∃ ends, wet.out = unlines ([cleaningLine outDir] ++
      fileLines outDir root "Removing" files ++ ends) ∧
    (wet.exit = .code 0 → ∃ removed : List Place,
      ends = removed.map (fun p => "  Removed empty directory: " ++ shownPlace outDir root p) ++
        ["", "Freed: " ++ FileSize.text (files.map (·.2)).sum])
  /-- The sizes are those that the files have when it is their turn to be removed. -/
  sized : Clean.inTurn (files.map (·.1)) t = (files, Clean.cleared t root)
  /-- The listed files were there, each once. -/
  there : ∀ file ∈ files, ∃ bytes, t.at? file.1 = some (.file bytes) ∧ bytes.size = file.2
  distinct : (files.map (·.1)).Nodup
  /-- Of all files it is the listed ones that the run removes. -/
  gone : ∀ place bytes, t.at? place = some (.file bytes) →
    wet.files.at? place = if (place, bytes.size) ∈ files then none else some (.file bytes)
  /-- The run ends well if the path does not lead through what lies below the directory. -/
  ends : outDir.PassesBy t.home root → wet.exit = .code 0

variable {around : Surroundings} {args dryArgs : List String} {outDir : Path} {root : Place}
  {a d : Arguments}

theorem cleanCommand_dry (hparse : Arguments.parse cleanSpecs none args = .ok a)
    (hdry : a.isSet "--dry-run" = true)
    (hlocated : around.files.locate (Path.ofText (a.positional.getD "generated")) = .ok root)
    (hdirectory : around.files.at? root = some .directory) :
    cleanCommand around args =
      dryClean around (Path.ofText (a.positional.getD "generated")) root := by
  rw [cleanCommand, hparse]
  dsimp only
  rw [hlocated, (isDirectory_iff hlocated).2 hdirectory]
  dsimp only
  rw [if_pos hdry]

/-- With the flag, every tree is left as it is. -/
theorem cleanCommand_files_dry (hparse : Arguments.parse cleanSpecs none args = .ok a)
    (hdry : a.isSet "--dry-run" = true) : (cleanCommand around args).files = around.files := by
  rw [cleanCommand, hparse]
  dsimp only
  split
  · rfl
  · rw [if_pos hdry]
    rfl
  · rfl

/-- Where there is no directory, the flag makes no difference. -/
theorem cleanCommand_eq_of_no_directory (hargs : Rehearses dryArgs args)
    (hnone : ∀ outDir root, ¬ Cleans around args outDir root) :
    cleanCommand around dryArgs = cleanCommand around args := by
  obtain ⟨d, a, hd, ha, _, hwet, hsame⟩ := hargs
  rw [cleanCommand, cleanCommand, hd, ha]
  dsimp only
  rw [hsame]
  split
  · rfl
  · next root hlocated hdirectory =>
      exact absurd ⟨⟨a, ha, hwet, rfl⟩, hlocated, (isDirectory_iff hlocated).1 hdirectory⟩
        (hnone _ root)
  · rfl

/-- The generated files are reported first, and then what came of the directories. -/
theorem wetClean_out (around : Surroundings) (outDir : Path) (root : Place) :
    ∃ ends, (wetClean around outDir root).out = unlines ([cleaningLine outDir] ++
        fileLines outDir root "Removing" (Clean.generatedFiles around.files root) ++ ends) ∧
      ((wetClean around outDir root).exit = .code 0 → ∃ removed : List Place,
        ends = removed.map (fun p => "  Removed empty directory: " ++ shownPlace outDir root p) ++
          ["", "Freed: " ++ FileSize.text
            ((Clean.generatedFiles around.files root).map (·.2)).sum]) := by
  rw [wetClean]
  dsimp only
  split
  · refine ⟨[], ?_, fun hexit => by cases hexit⟩
    rw [List.append_nil]
    rfl
  · refine ⟨_, congrArg unlines (List.append_assoc _ _ _),
      fun _ => ⟨(Clean.sweep around.files root).removed, ?_⟩⟩
    rw [Clean.Report.total, List.sum_eq_foldr, List.foldr_map]
    rfl

/-- However far the directories are gone through, the files that are left are those that were
not listed. -/
theorem wetClean_files (h : around.files.Unambiguous) (outDir : Path) {place : Place}
    {bytes : ByteArray} (hplace : around.files.at? place = some (.file bytes)) :
    (wetClean around outDir root).files.at? place =
      if (place, bytes.size) ∈ Clean.generatedFiles around.files root then none
      else some (.file bytes) := by
  rcases wetClean_cases around outDir root with hends | ⟨_, _, n, hfiles⟩
  · rw [hends]
    exact Clean.at?_removeEmpty_file h (fun _ hp => hp) hplace
  · rw [hfiles]
    exact Clean.at?_removeEmpty_file h (fun _ hp => List.mem_of_mem_take hp) hplace

theorem Cleans.foretold (h : around.files.Unambiguous) (hargs : Rehearses dryArgs args)
    (hcleans : Cleans around args outDir root) :
    Foretold around.files outDir root (Clean.generatedFiles around.files root)
      (cleanCommand around dryArgs) (cleanCommand around args) where
  listed := by
    obtain ⟨d, a, hd, ha, hdry, _, hsame⟩ := hargs
    obtain ⟨a', ha', _, rfl⟩ := hcleans.accepted
    obtain rfl : a = a' := Except.ok.inj (ha.symm.trans ha')
    have hlocated := hcleans.located
    rw [← hsame] at hlocated ⊢
    rw [cleanCommand_dry hd hdry hlocated hcleans.directory, dryClean, Clean.Report.total,
      List.sum_eq_foldr, List.foldr_map]
    rfl
  reported := by
    rw [cleanCommand_eq hcleans]
    exact wetClean_out around outDir root
  sized := Clean.inTurn_generatedFiles h root
  there := by
    intro file hfile
    obtain ⟨bytes, hmem, htarget, hsize⟩ := Clean.mem_generatedFiles.1 hfile
    exact ⟨bytes, (h.at?_iff (Bool.and_eq_true_iff.1 htarget).1).2 hmem, hsize⟩
  distinct := Clean.generatedFiles_nodup h
  gone := by
    rw [cleanCommand_eq hcleans]
    exact fun _ _ => wetClean_files h outDir
  ends := hcleans.exit

/-- A dry run foretells the run that it stands for, whatever the tree: it changes nothing, and lists
the files that the run removes, in the order and with the sizes in which they are removed, and what
they come to. Where there is nothing to clean, both say so. -/
theorem dry_run_foretells (h : around.files.Unambiguous) (hargs : Rehearses dryArgs args) :
    (cleanCommand around dryArgs).files = around.files ∧
      (∀ outDir root, Cleans around args outDir root →
        Foretold around.files outDir root (Clean.generatedFiles around.files root)
          (cleanCommand around dryArgs) (cleanCommand around args)) ∧
      ((∀ outDir root, ¬ Cleans around args outDir root) →
        cleanCommand around dryArgs = cleanCommand around args) := by
  refine ⟨?_, fun _ _ hcleans => hcleans.foretold h hargs, cleanCommand_eq_of_no_directory hargs⟩
  obtain ⟨d, _, hd, _, hdry, _⟩ := hargs
  exact cleanCommand_files_dry hd hdry

/-- Of two modules and a file that was written by hand, the modules are listed and removed. -/
theorem dry_run_foretells_of_mixed :
    mixedFiles.Unambiguous ∧ Rehearses ["--dry-run", "out"] ["out"] ∧
      Foretold mixedFiles ⟨"", ["out"]⟩ ["work", "out"]
        (Clean.generatedFiles mixedFiles ["work", "out"])
        (cleanCommand ⟨mixedFiles, []⟩ ["--dry-run", "out"])
        (cleanCommand ⟨mixedFiles, []⟩ ["out"]) ∧
      (cleanCommand ⟨mixedFiles, []⟩ ["--dry-run", "out"]).files = mixedFiles ∧
      (cleanCommand ⟨mixedFiles, []⟩ ["out"]).files.at? ["work", "out", "pets.ts"] = none ∧
      (cleanCommand ⟨mixedFiles, []⟩ ["out"]).files.at? ["work", "out", "notes.ts"] =
        some (.file "let notes\n".toUTF8) := by
  have hunambiguous : mixedFiles.Unambiguous := by decide +kernel
  have hargs : Rehearses ["--dry-run", "out"] ["out"] :=
    rehearses_flag_cons (a := { positional := some "out", isPositionalTaken := true })
      (by decide +kernel) (by decide +kernel)
  have hcleans : Cleans ⟨mixedFiles, []⟩ ["out"] ⟨"", ["out"]⟩ ["work", "out"] :=
    { accepted := ⟨{ positional := some "out", isPositionalTaken := true }, by decide +kernel,
        by decide +kernel, by decide +kernel⟩
      located := rfl
      directory := rfl }
  have hfiles : (Surroundings.mk mixedFiles []).files.Unambiguous := hunambiguous
  obtain ⟨hsame, hruns, _⟩ := dry_run_foretells hfiles hargs
  have hforetold := hruns _ _ hcleans
  refine ⟨hunambiguous, hargs, hforetold, hsame, ?_, ?_⟩
  · rw [hforetold.gone _ (generatedMarker ++ "\n").toUTF8 rfl, if_pos]
    exact Clean.mem_generatedFiles.2 ⟨_, by simp [mixedFiles], by decide +kernel, rfl⟩
  · rw [hforetold.gone _ "let notes\n".toUTF8 rfl, if_neg]
    intro hlisted
    obtain ⟨bytes, hmem, htarget, _⟩ := Clean.mem_generatedFiles.1 hlisted
    obtain rfl : bytes = "let notes\n".toUTF8 := by simpa [mixedFiles] using hmem
    exact absurd htarget (by decide +kernel)

end CommandLine

end TypedClient
