import TypedClient.Proofs.GenerateRuns
import TypedClient.Proofs.OptionPrecedence

/-!
# Failures that are explained

A command that fails for a reason of its own ends with code 1, and a message on
the error stream is what tells its user the reason. `Explained` says this of an
outcome, and each command is followed to where its messages come from: what can
fail on the way to a client or to a type has a text, and so has a schema that
cannot be read. Cleaning does not end with code 1 at all, and a name that no
command has is reported with the output.

One way is left on which nothing is said, that of a command to generate a client
which is not told where the document is. The options may come from a file as
well as from the arguments, so that is known only after both have been read.
`silent_iff` is the exact condition. An argument that is not empty settles it,
and without an argument and a file there is nothing to settle.
-/

namespace TypedClient.CommandLine

variable {around : Surroundings}

/-- An outcome that, if its code is 1, is a message and nothing else. -/
def Explained (around : Surroundings) (o : Outcome) : Prop :=
  o.exit = .code 1 → ∃ reason, o = quiet around (.code 1) "" ("error: " ++ reason ++ "\n")

/-! ## Commands that explain themselves -/

theorem explained_of_ne {o : Outcome} (h : o.exit ≠ .code 1) : Explained around o :=
  fun hexit => absurd hexit h

theorem rejected_exit (e : ArgumentsError) : (rejected around e).exit ≠ .code 1 := by
  cases e <;> simp [rejected, quiet]

theorem rejected_explained (e : ArgumentsError) : Explained around (rejected around e) :=
  explained_of_ne (rejected_exit e)

theorem failed_explained (failure : Failure) : Explained around (failed around failure) := by
  cases failure with
  | malformed fault => exact explained_of_ne (by simp [failed, quiet])
  | schema e => exact fun _ => ⟨e.message, rfl⟩
  | option e => exact fun _ => ⟨e.message, rfl⟩

theorem unreadable_explained (reason : String) : Explained around (unreadable around reason) := by
  refine fun _ => ⟨"cannot read schema:" ++ reason, ?_⟩
  rw [← String.append_assoc]
  rfl

theorem resolveSource_explained (a : Arguments) (text : String) :
    Explained around (resolveSource around a text) := by
  rw [resolveSource]
  split
  · exact unreadable_explained ""
  · exact failed_explained _
  · split
    · exact failed_explained _
    · exact explained_of_ne (by simp [quiet])

theorem resolveCommand_explained (args : List String) :
    Explained around (resolveCommand around args) := by
  rw [resolveCommand]
  split
  · exact rejected_explained _
  · split
    · exact resolveSource_explained _ _
    · dsimp only
      split
      · exact resolveSource_explained _ _
      · split
        · exact unreadable_explained _
        · exact failed_explained _
    · exact failed_explained _
    · exact rejected_explained _

theorem wetClean_exit (outDir : Path) (root : Place) :
    (wetClean around outDir root).exit ≠ .code 1 := by
  rw [wetClean]
  dsimp only
  split <;> simp

theorem cleanCommand_exit (args : List String) : (cleanCommand around args).exit ≠ .code 1 := by
  rw [cleanCommand]
  split
  · exact rejected_exit _
  · dsimp only
    split
    · simp [quiet]
    · split
      · simp [dryClean]
      · exact wetClean_exit _ _
    · simp [quiet]

theorem writeClient_exit (outDir : Path) (files : List GeneratedFile) :
    (writeClient around outDir files).exit ≠ .code 1 := by
  rcases writeClient_cases around outDir files with ⟨_, _, hwrite⟩ | ⟨_, _, _, hwrite⟩ <;>
    rw [hwrite] <;> simp

/-! ## Runs without a document -/

/-- Arguments and options that are accepted, but do not say where the document
is. -/
def Sourceless (files : FileTree) (args : List String) : Prop :=
  ∃ a store options, Arguments.parse generateSpecs none args = .ok a ∧
    optionsOf files a = .ok (store, options) ∧ store.truthy options.src = false

theorem generate_sourceless {args : List String} (h : Sourceless around.files args) :
    generate around args = quiet around (.code 1) "" "" := by
  obtain ⟨a, store, options, hparse, hoptions, hsource⟩ := h
  simp only [generate, hparse, hoptions, hsource, Bool.not_false, if_true]

theorem generate_explained {args : List String} (h : ¬Sourceless around.files args) :
    Explained around (generate around args) := by
  rw [generate]
  split
  · exact rejected_explained _
  · next a hparse =>
      split
      · exact failed_explained _
      · next store options hoptions =>
          split
          · next hsource =>
              have hfalse : store.truthy options.src = false := by simpa using hsource
              exact absurd ⟨a, store, options, hparse, hoptions, hfalse⟩ h
          · split
            · exact failed_explained _
            · exact explained_of_ne (writeClient_exit _ _)

/-! ## Where the document is named -/

theorem overridesOf_names (nothing : Value) (a : Arguments) :
    (overridesOf nothing a).map (·.1) = ["src", "out_dir", "language", "indent", "semicolon", "host",
      "timeout", "strict"] := rfl

/-- The arguments name the document before the file of options does. -/
theorem ofEntries_src {store : Store} {entries : Entries} {nothing : Value} {a : Arguments}
    {options : ClientOptions}
    (h : ClientOptions.ofEntries store entries (overridesOf nothing a) = .ok options) :
    options.src = (a.positional.map Value.text).getD (ClientOptions.settled entries [] "src") := by
  have hnames : ∀ override ∈ overridesOf nothing a, override.1 ∈ ClientOptions.names := by
    intro override hmem
    have hall : ∀ name ∈ (overridesOf nothing a).map (·.1), name ∈ ClientOptions.names := by
      rw [overridesOf_names]
      decide
    exact hall override.1 (List.mem_map_of_mem hmem)
  have hdistinct : ((overridesOf nothing a).map (·.1)).Nodup := by
    rw [overridesOf_names]
    decide
  have hsrc : ClientOptions.override? (overridesOf nothing a) "src" = a.positional.map Value.text := by
    rw [ClientOptions.override?, overridesOf]
    cases a.positional <;> rfl
  rw [((ClientOptions.ofEntries_eq_ok hnames hdistinct).1 h).2.src, ClientOptions.settled, hsrc,
    Option.getD_or]
  rfl

theorem optionsOf_src {files : FileTree} {a : Arguments} {store : Store} {options : ClientOptions}
    (h : optionsOf files a = .ok (store, options)) :
    (∀ s, a.positional = some s → options.src = .text s) ∧
      (a.positional = none → a.text? "--config" = none → options.src = .null) := by
  rw [optionsOf] at h
  dsimp only at h
  split at h
  · next path hconfig =>
      obtain ⟨loaded, -, h⟩ := bind_eq_ok.1 h
      obtain ⟨found, hfound, h⟩ := bind_eq_ok.1 h
      have hsrc := ofEntries_src hfound
      obtain ⟨-, rfl⟩ := Prod.mk.inj (pure_eq_ok.1 h)
      refine ⟨fun s hs => by rw [hsrc, hs]; rfl, fun _ hnone => ?_⟩
      rw [hconfig] at hnone
      cases hnone
  · obtain ⟨found, hfound, hpair⟩ := map_eq_ok.1 h
    have hsrc := ofEntries_src hfound
    obtain ⟨-, rfl⟩ := Prod.mk.inj hpair
    exact ⟨fun s hs => by rw [hsrc, hs]; rfl, fun hs _ => by rw [hsrc, hs]; rfl⟩

/-- No document is named if the argument for it is empty, or if there is none and the file of
options, if it is given, does not make up for it. -/
theorem sourceless_iff {files : FileTree} {args : List String} :
    Sourceless files args ↔
      ∃ a store options, Arguments.parse generateSpecs none args = .ok a ∧
        optionsOf files a = .ok (store, options) ∧
        (a.positional = some "" ∨ a.positional = none ∧
          (a.text? "--config" = none ∨ store.truthy options.src = false)) := by
  constructor
  · rintro ⟨a, store, options, hparse, hoptions, hfalse⟩
    refine ⟨a, store, options, hparse, hoptions, ?_⟩
    cases hs : a.positional with
    | none => exact .inr ⟨rfl, .inr hfalse⟩
    | some s =>
        rw [(optionsOf_src hoptions).1 s hs] at hfalse
        have hempty : s = "" := by simpa [Store.truthy, Value.text, Scalar.truthy] using hfalse
        exact .inl (congrArg some hempty)
  · rintro ⟨a, store, options, hparse, hoptions, hnone⟩
    refine ⟨a, store, options, hparse, hoptions, ?_⟩
    rcases hnone with hempty | ⟨hs, hconfig | hfalse⟩
    · rw [(optionsOf_src hoptions).1 "" hempty]
      rfl
    · rw [(optionsOf_src hoptions).2 hs hconfig]
      rfl
    · exact hfalse

/-! ## Runs that say nothing -/

/-- An outcome with code 1 and nothing said. -/
def Silent (o : Outcome) : Prop := o.exit = .code 1 ∧ o.out = "" ∧ o.err = ""

theorem Explained.not_silent {o : Outcome} (h : Explained around o) : ¬Silent o := by
  intro hsilent
  obtain ⟨reason, rfl⟩ := h hsilent.1
  have herr : "error: " ++ reason ++ "\n" = "" := hsilent.2.2
  exact absurd (String.append_eq_empty_iff.1 herr).2 (by decide)

theorem run_sourceless {args : List String} (h : Sourceless around.files args) :
    run around ("generate" :: args) = quiet around (.code 1) "" "" :=
  generate_sourceless h

/-- What is printed for a name that no command has. -/
def unknownCommand (command : String) : String :=
  "Unknown command: " ++ command ++ "\nAvailable commands: " ++ ", ".intercalate commandNames
    ++ "\n"

theorem run_cases (around : Surroundings) (argv : List String) :
    Explained around (run around argv) ∨
      (∃ args, argv = "generate" :: args ∧ Sourceless around.files args) ∨
      ∃ command, run around argv = quiet around (.code 1) (unknownCommand command) "" := by
  cases argv with
  | nil => exact .inl (explained_of_ne (by simp [run, quiet]))
  | cons command args =>
    rw [run]
    split
    · exact .inl (explained_of_ne (by simp [quiet]))
    · split
      · next hgenerate =>
          by_cases hsource : Sourceless around.files args
          · exact .inr (.inl ⟨args, by rw [hgenerate], hsource⟩)
          · exact .inl (generate_explained hsource)
      · split
        · exact .inl (resolveCommand_explained args)
        · split
          · exact .inl (explained_of_ne (cleanCommand_exit args))
          · exact .inr (.inr ⟨command, rfl⟩)

/-- A run says nothing of its failure exactly if it is to generate a client and
no document is named, neither by the argument for it nor by the file of options.
Else code 1 goes with a message on one of the streams, and in no case is a file
changed. -/
theorem silent_iff (around : Surroundings) (argv : List String) :
    (Silent (run around argv) ↔
      ∃ args, argv = "generate" :: args ∧ Sourceless around.files args) ∧
    (∀ args, Sourceless around.files args ↔
      ∃ a store options, Arguments.parse generateSpecs none args = .ok a ∧
        optionsOf around.files a = .ok (store, options) ∧
        (a.positional = some "" ∨ a.positional = none ∧
          (a.text? "--config" = none ∨ store.truthy options.src = false))) ∧
    ((run around argv).exit = .code 1 ↔
      run around argv = quiet around (.code 1) "" "" ∨
      (∃ reason, run around argv = quiet around (.code 1) "" ("error: " ++ reason ++ "\n")) ∨
      ∃ command, run around argv = quiet around (.code 1) (unknownCommand command) "") := by
  refine ⟨?_, fun _ => sourceless_iff, ?_⟩
  · constructor
    · intro hsilent
      rcases run_cases around argv with hexplained | hsourceless | ⟨command, hrun⟩
      · exact absurd hsilent hexplained.not_silent
      · exact hsourceless
      · have hout : unknownCommand command = "" := by
          rw [hrun] at hsilent
          exact hsilent.2.1
        exact absurd (String.append_eq_empty_iff.1 hout).2 (by decide)
    · intro hsourceless
      obtain ⟨args, rfl, hargs⟩ := hsourceless
      rw [run_sourceless hargs]
      exact ⟨rfl, rfl, rfl⟩
  · constructor
    · intro hexit
      rcases run_cases around argv with hexplained | ⟨args, rfl, hargs⟩ | hunknown
      · exact .inr (.inl (hexplained hexit))
      · exact .inl (run_sourceless hargs)
      · exact .inr (.inr hunknown)
    · intro hends
      rcases hends with hrun | ⟨reason, hrun⟩ | ⟨command, hrun⟩ <;> rw [hrun] <;> rfl

/-- The command to generate alone ends with code 1 and says nothing. -/
theorem generate_silent : Silent (run {} ["generate"]) := by
  unfold Silent
  decide +kernel

end TypedClient.CommandLine
