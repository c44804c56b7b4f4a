import TypedClient.Proofs.RegistryWrites

/-!
# A registry is the history of its declarations

A registry that is kept for long is told and asked many things, and some of them
it refuses. What it holds at any time should depend on little of that: on the
declarations since it was last emptied, refused ones and repeated ones included,
and of each name on the first of them. This file says so by a second machine,
whose state is the list of these declarations and which answers every command by
looking through that list.

The registry is told in place: a declaration is written where it turns out to be
new, and one that is refused ends the command with whatever was written by then.
That this is nothing has to be shown as well. The two machines are related by
`Refines`. One command keeps it (`Refines.perform`), and so does a run of any
length.
-/

namespace TypedClient

/-! ## The registry as a machine -/

namespace Registry

/-- A declaration entered into the registry in place. -/
def enter (name declaration : String) : Run (Option EnumCollision) := do
  let r ← get
  match r.lookup name with
  | none =>
    set (r.append name declaration)
    return none
  | some existing =>
    if existing = declaration then return none
    if r.strict then throw (.schema (.collision name existing declaration none))
    return some ⟨name, existing, declaration⟩

/-- What a registry can be told and asked. -/
inductive Command where
  | insert (name declaration : String)
  | lookup (name : String)
  | contains (name : String)
  | iterate
  | reset
  deriving DecidableEq, Repr

/-- What a registry answers, unless it refuses. -/
inductive Answer where
  /-- The command was carried out, with at most one warning. -/
  | done (warning : Option String)
  | declaration (found : Option String)
  | truth (holds : Bool)
  | names (found : List String)
  deriving DecidableEq, Repr

/-- A command carried out. -/
def perform : Command → Run Answer
  | .insert name declaration => do
    let collision ← enter name declaration
    return .done (collision.map EnumCollision.warning)
  | .lookup name => return .declaration ((← get).lookup name)
  | .contains name => return .truth ((← get).contains name)
  | .iterate => return .names (← get).names
  | .reset => do
    modify reset
    return .done none

/-- The answer to a command, and the registry after it. -/
def reply (r : Registry) (command : Command) : Except Failure Answer × Registry :=
  (perform command).run.run r

/-- The registry after commands, those that it refused included. -/
def after (r : Registry) (commands : List Command) : Registry :=
  commands.foldl (fun r command => (r.reply command).2) r

variable {r : Registry} {name declaration : String}

/-- A declaration is entered as `insert` has it, and nothing is written if it is
refused. -/
theorem enter_run :
    (enter name declaration).run.run r = match r.insert name declaration with
      | .ok (r', collision) => (.ok collision, r')
      | .error e => (.error (.schema e), r) := by
  rw [enter, run_get_bind, insert]
  cases r.lookup name with
  | none => rfl
  | some existing =>
      by_cases hsame : existing = declaration
      · simp only [if_pos hsame]
        rfl
      · cases hstrict : r.strict <;> simp only [if_neg hsame] <;> rfl

end Registry

/-! ## The history as a machine -/

/-- The declarations since a registry was last emptied, each with its name. -/
abbrev Declared := List (String × String)

namespace Declared

open Registry (Command Answer)

/-- The history after a command. -/
def note (log : Declared) : Command → Declared
  | .insert name declaration => log ++ [(name, declaration)]
  | .reset => []
  | _ => log

/-- The history that commands leave. -/
def ofCommands (commands : List Command) : Declared := commands.foldl note []

/-- The names, in the order in which they were first declared. -/
def names (log : Declared) : List String := (log.map (·.1)).eraseDups

/-- The first declaration of a name. -/
def first? (log : Declared) (name : String) : Option String :=
  (log.find? (·.1 = name)).map (·.2)

/-- A declaration and the first one of its name, if that is another one. -/
def collision? (log : Declared) (name declaration : String) : Option EnumCollision :=
  (log.first? name).bind fun first =>
    if first = declaration then none else some ⟨name, first, declaration⟩

/-- The answer to a command that the history gives. -/
def answer (strict : Bool) (log : Declared) : Command → Except Failure Answer
  | .insert name declaration =>
    match log.collision? name declaration with
    | none => .ok (.done none)
    | some c =>
      if strict then .error (.schema (.collision c.name c.existing c.incoming none))
      else .ok (.done (some c.warning))
  | .lookup name => .ok (.declaration (log.first? name))
  | .contains name => .ok (.truth (name ∈ log.names))
  | .iterate => .ok (.names log.names)
  | .reset => .ok (.done none)

variable {log : Declared} {name other declaration : String}

theorem first?_concat :
    (log ++ [(name, declaration)]).first? other =
      (log.first? other).or (if other = name then some declaration else none) := by
  rw [first?, first?, List.find?_append]
  cases log.find? (·.1 = other) with
  | some entry => rfl
  | none => by_cases h : other = name <;> simp [h, eq_comm]

theorem first?_eq_none : log.first? name = none ↔ name ∉ log.names := by
  simp only [first?, names, Option.map_eq_none_iff, List.find?_eq_none, List.mem_eraseDups,
    List.mem_map, not_exists, not_and, decide_eq_true_eq]

theorem names_concat :
    Declared.names (log ++ [(name, declaration)]) =
      if name ∈ log.names then log.names else log.names ++ [name] := by
  simp only [names, List.map_append, List.map_singleton, eraseDups_concat, List.mem_eraseDups]

theorem collision?_ne_none :
    log.collision? name declaration ≠ none ↔
      ∃ first, log.first? name = some first ∧ first ≠ declaration := by
  rw [collision?]
  cases log.first? name with
  | none => simp
  | some first => by_cases h : first = declaration <;> simp [h]

end Declared

/-! ## One for the other -/

/-- A registry that shows of a history all that there is to see of a registry:
the names in the order in which they first came up, none of them twice, and with
each the declaration that came first. -/
structure Refines (strict : Bool) (log : Declared) (r : Registry) : Prop where
  strict : r.strict = strict
  names : r.names = log.names
  nodup : r.names.Nodup
  length : r.entries.length = log.names.length
  declarations : r.declarations.map some = log.names.map log.first?
  lookup : ∀ name, r.lookup name = log.first? name
  contains : ∀ name, r.contains name = decide (name ∈ log.names)

variable {strict : Bool} {log : Declared} {r : Registry} {name declaration : String}

/-- Names and look-ups determine the rest. -/
theorem refines_of_lookup (hstrict : r.strict = strict) (hnames : r.names = log.names)
    (hlookup : ∀ name, r.lookup name = log.first? name) : Refines strict log r where
  strict := hstrict
  names := hnames
  nodup := hnames ▸ nodup_eraseDups _
  length := by rw [← hnames, Registry.names, List.length_map]
  declarations := by
    have hkeys : r.names.Nodup := hnames ▸ nodup_eraseDups _
    rw [← hnames, Registry.names, Registry.declarations, List.map_map, List.map_map]
    refine List.map_congr_left fun entry hentry => ?_
    rw [Function.comp_apply, Function.comp_apply, ← hlookup]
    exact ((lookup_iff_mem hkeys).2 hentry).symm
  lookup := hlookup
  contains := fun name => by
    rw [Registry.contains, hlookup, Bool.eq_iff_iff, decide_eq_true_iff,
      ← not_iff_not, ← Declared.first?_eq_none]
    simp

theorem refines_empty (strict : Bool) : Refines strict [] { strict } :=
  refines_of_lookup rfl rfl fun _ => rfl

namespace Refines

variable (h : Refines strict log r)
include h

/-- A name that is declared already only makes the history longer. -/
theorem note_old (hold : name ∈ log.names) :
    Refines strict (log.note (.insert name declaration)) r := by
  refine refines_of_lookup h.strict ?_ fun other => ?_
  · rw [h.names, Declared.note, Declared.names_concat, if_pos hold]
  · rw [h.lookup, Declared.note, Declared.first?_concat]
    cases hother : log.first? other with
    | some first => rfl
    | none =>
        have hne : other ≠ name := fun heq => Declared.first?_eq_none.1 hother (heq ▸ hold)
        rw [if_neg hne, Option.or_none]

theorem note_new (hnew : name ∉ log.names) :
    Refines strict (log.note (.insert name declaration)) (r.append name declaration) := by
  refine refines_of_lookup h.strict ?_ fun other => ?_
  · rw [Registry.names_append, h.names, Declared.note, Declared.names_concat, if_neg hnew]
  · rw [Registry.lookup_append, h.lookup, Declared.note, Declared.first?_concat]

/-- A declaration is appended if its name is new. Otherwise the registry stays
as it is, whether it refuses the declaration, drops it, or has it already. -/
theorem reply_insert (name declaration : String) :
    r.reply (.insert name declaration) =
      (log.answer strict (.insert name declaration),
        if name ∈ log.names then r else r.append name declaration) := by
  rw [Registry.reply, Registry.perform, Run.run_bind, Registry.enter_run, Registry.insert,
    h.lookup, h.strict, Declared.answer, Declared.collision?]
  cases hfirst : log.first? name with
  | none =>
      rw [if_neg (Declared.first?_eq_none.1 hfirst)]
      rfl
  | some first =>
      have hold : name ∈ log.names := by
        by_contra hnew
        rw [Declared.first?_eq_none.2 hnew] at hfirst
        cases hfirst
      rw [if_pos hold]
      by_cases hsame : first = declaration
      · simp only [if_pos hsame, Option.bind_some]
        rfl
      · cases strict <;> simp only [if_neg hsame, Option.bind_some] <;> rfl

/-- One command: the registry answers what the history answers, and goes on
refining it. -/
theorem perform (command : Registry.Command) :
    (r.reply command).1 = log.answer strict command ∧
      Refines strict (log.note command) (r.reply command).2 := by
  cases command with
  | insert name declaration =>
      rw [h.reply_insert]
      refine ⟨rfl, ?_⟩
      by_cases hold : name ∈ log.names
      · rw [if_pos hold]
        exact h.note_old hold
      · rw [if_neg hold]
        exact h.note_new hold
  | lookup name =>
      rw [Declared.answer, ← h.lookup]
      exact ⟨rfl, h⟩
  | contains name =>
      rw [Declared.answer, ← h.contains]
      exact ⟨rfl, h⟩
  | iterate =>
      rw [Declared.answer, ← h.names]
      exact ⟨rfl, h⟩
  | reset => exact ⟨rfl, refines_of_lookup h.strict rfl fun _ => rfl⟩

end Refines

theorem refines_after (strict : Bool) (commands : List Registry.Command) :
    Refines strict (.ofCommands commands) (Registry.after { strict } commands) := by
  induction commands using List.reverseRecOn with
  | nil => exact refines_empty strict
  | append_singleton earlier command ih =>
      rw [Declared.ofCommands, Registry.after, List.foldl_append, List.foldl_append]
      exact (ih.perform command).2

/-- After any commands a registry, strict or not, shows the history of its
declarations since it was last emptied, and answers the next command from it. It
refuses a declaration, or warns about it, just when its name is there with
another one, and then it stays as it is. -/
theorem registry_refines_history (strict : Bool) (commands : List Registry.Command) :
    Refines strict (.ofCommands commands) (Registry.after { strict } commands) ∧
      (∀ command, ((Registry.after { strict } commands).reply command).1 =
        Declared.answer strict (.ofCommands commands) command) ∧
      ∀ name declaration,
        (((Registry.after { strict } commands).reply (.insert name declaration)).1 ≠
            .ok (.done none) ↔
          ∃ first, Declared.first? (.ofCommands commands) name = some first ∧
            first ≠ declaration) ∧
        (name ∈ Declared.names (.ofCommands commands) →
          ((Registry.after { strict } commands).reply (.insert name declaration)).2 =
            Registry.after { strict } commands) := by
  have h := refines_after strict commands
  refine ⟨h, fun command => (h.perform command).1, fun name declaration => ⟨?_, ?_⟩⟩
  · rw [(h.perform _).1, ← Declared.collision?_ne_none, Declared.answer]
    cases Declared.collision? (.ofCommands commands) name declaration with
    | none => simp
    | some c => cases strict <;> simp
  · intro hold
    rw [h.reply_insert, if_pos hold]

end TypedClient
