import TypedClient.Proofs.EnumRegistry
import TypedClient.Proofs.StraightLine

/-!
# Sessions

Several documents may be generated from one after the other, against one
registry of enums. A run that fails leaves behind what it registered until
then, so after some history the registry may hold anything at all, except that
it is still as strict as it was: no action of a run touches that flag, which is
one step lemma and an induction over the actions.

So emptying the registry gives the registry that a session starts with, and a
run empties it before it first looks at it. The one failure that comes earlier
is that the document lists no paths. Then the registry stays as the history
left it; in every other case the run is the one that the document has alone.
-/

namespace TypedClient

variable {r r' : Registry}

theorem Registry.insert_strict {name declaration : String} {collision : Option EnumCollision}
    (h : r.insert name declaration = .ok (r', collision)) : r'.strict = r.strict := by
  rw [insert] at h
  cases hlookup : r.lookup name with
  | none =>
      rw [hlookup] at h
      cases h
      rfl
  | some existing =>
      rw [hlookup] at h
      dsimp only at h
      split at h
      · cases h
        rfl
      · split at h
        · cases h
        · cases h
          rfl

theorem resolve_strict {store : Store} {config : ResolverConfig} {mode : ResolutionMode}
    {site : SchemaSite} {resolution : Resolution}
    (h : resolve store config mode r site = .ok resolution) :
    resolution.registry.strict = r.strict := by
  obtain ⟨d, written, _, hleaf, rfl⟩ := resolve_eq_ok.1 h
  -- Only an enum is registered, so every other leaf leaves the whole registry alone.
  by_cases henum : ∃ schema, d.leaf = .enumeration schema
  · obtain ⟨schema, hschema⟩ := henum
    rw [hschema] at hleaf
    obtain ⟨_, _, _, _, _, hinsert⟩ := enum_resolve_inserts hleaf
    exact Registry.insert_strict hinsert
  · have hplain : ∀ schema, d.leaf ≠ .enumeration schema := fun schema hschema =>
      henum ⟨schema, hschema⟩
    have hregistry : written.registry = r := leaf_resolve_registry hplain hleaf
    exact congrArg Registry.strict hregistry

namespace Generation

variable {g : Generation} {document : Value}

/-! ## The strictness of the registry -/

theorem act_strict (g : Generation) (a : Action) (r : Registry) :
    ((g.act a).run.run r).2.strict = r.strict := by
  cases a with
  | check result => rfl
  | reset => rfl
  | name site =>
      rw [act, docTypeOf, Run.run_ofResult_bind]
      cases documentType g.store g.config site <;> rfl
  | type mode site =>
      rw [act, Run.run_bind, typeOf_run]
      cases hresolve : resolve g.store g.config mode r site with
      | error e => rfl
      | ok resolution => exact resolve_strict hresolve

theorem perform_strict (g : Generation) (actions : List Action) (r : Registry) :
    ((g.perform actions).run.run r).2.strict = r.strict := by
  induction actions generalizing r with
  | nil => rfl
  | cons a actions ih =>
      rw [perform_cons, Run.run_bind]
      have hstep := act_strict g a r
      cases hact : (g.act a).run.run r with
      | mk result m =>
          rw [hact] at hstep
          cases result with
          | error e => exact hstep
          | ok u => exact (ih m).trans hstep

theorem runClient_strict (g : Generation) (document : Value) (r : Registry) :
    (g.runClient document r).2.strict = r.strict := by
  have hend := congrArg Prod.snd (client_follows g document r)
  rw [runClient]
  rw [ending] at hend
  rw [hend]
  exact perform_strict g (g.clientActions document) r

/-! ## One run -/

/-- Whether a document lists paths. -/
def listsPaths (g : Generation) (document : Value) : Bool :=
  match g.store.member document "paths" with
  | .ok (.mapping _) => true
  | _ => false

/-- A run that gets to the paths starts with an empty registry. -/
theorem runClient_of_paths (h : g.listsPaths document = true) (r : Registry) :
    g.runClient document r = g.runClient document r.reset := by
  rw [listsPaths] at h
  rw [runClient, runClient, client]
  cases hpaths : g.store.member document "paths" with
  | error e =>
      rw [hpaths] at h
      cases h
  | ok paths =>
      rw [hpaths] at h
      cases paths with
      | scalar s | sequence id | typed kind id => cases h
      | mapping id => rfl

/-- A run that does not get to the paths fails in one way, and leaves the registry alone. -/
theorem runClient_without_paths (h : g.listsPaths document = false) :
    ∃ e, ∀ r, g.runClient document r = (.error e, r) := by
  rw [listsPaths] at h
  simp only [runClient, client]
  cases hpaths : g.store.member document "paths" with
  | error e => exact ⟨.malformed e, fun _ => rfl⟩
  | ok paths =>
      rw [hpaths] at h
      cases paths with
      | scalar s | sequence id | typed kind id => exact ⟨pathsMissing, fun _ => rfl⟩
      | mapping id => cases h

/-- What a run is after any history. -/
theorem runClient_after (h : r.strict = true) (g : Generation) (document : Value) :
    g.runClient document r = ((g.runClient document {}).1,
      if g.listsPaths document then (g.runClient document {}).2 else r) := by
  cases hpaths : g.listsPaths document with
  | true =>
      have hreset : r.reset = {} := by rw [Registry.reset, h]
      rw [runClient_of_paths hpaths r, hreset]
      rfl
  | false =>
      obtain ⟨e, he⟩ := runClient_without_paths hpaths
      rw [he r, he {}]
      rfl

/-! ## Many runs -/

/-- The outcomes of runs one after the other, each with the registry after it. -/
def session (g : Generation) : List Value → Registry →
    List (Except Failure (List GeneratedFile) × Registry)
  | [], _ => []
  | document :: rest, r => g.runClient document r :: g.session rest (g.runClient document r).2

/-- The registry that runs one after the other leave. -/
def registryAfter (g : Generation) (documents : List Value) (r : Registry) : Registry :=
  documents.foldl (fun m document => (g.runClient document m).2) r

theorem session_append (g : Generation) (earlier rest : List Value) (r : Registry) :
    g.session (earlier ++ rest) r =
      g.session earlier r ++ g.session rest (g.registryAfter earlier r) := by
  induction earlier generalizing r with
  | nil => rfl
  | cons document earlier ih =>
      rw [List.cons_append, session, session, List.cons_append, ih]
      rfl

theorem length_session (g : Generation) (documents : List Value) (r : Registry) :
    (g.session documents r).length = documents.length := by
  induction documents generalizing r with
  | nil => rfl
  | cons document documents ih => rw [session, List.length_cons, List.length_cons, ih]

theorem registryAfter_strict (g : Generation) (documents : List Value) (r : Registry) :
    (g.registryAfter documents r).strict = r.strict := by
  induction documents generalizing r with
  | nil => rfl
  | cons document documents ih => exact (ih _).trans (runClient_strict g document r)

end Generation

open Generation

/-- A document has the outcome in a session that it has alone, whatever came before it. The
registry after it is also the one that it leaves alone, unless it lists no paths. -/
theorem session_independent (g : Generation) (earlier later : List Value) (document : Value) :
    (g.session (earlier ++ document :: later) {})[earlier.length]? =
      some ((g.runClient document {}).1,
        if g.listsPaths document then (g.runClient document {}).2
        else g.registryAfter earlier {}) := by
  have hstrict : (g.registryAfter earlier {}).strict = true := registryAfter_strict g earlier {}
  have hlength := length_session g earlier {}
  rw [session_append, List.getElem?_append_right (Nat.le_of_eq hlength), hlength, Nat.sub_self,
    session, List.getElem?_cons_zero, runClient_after hstrict]

end TypedClient
