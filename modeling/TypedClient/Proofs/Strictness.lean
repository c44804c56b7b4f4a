import TypedClient.Proofs.CycleGuard
import TypedClient.Proofs.DocumentTypes
import TypedClient.Proofs.OperationOrder
import TypedClient.Proofs.StraightLine

/-!
# Strictness only refuses

A strict run and one that need not be strict go through the same actions, in
lockstep, until a walk gets to an array whose items have no type. There the
strict run is refused, and up to there nothing told the two apart: the answers
were the same and so were the registries. If no walk ever gets to such an array,
the runs are the same to the end.

The observation is made three times, each time one level up: for the leaves of a
schema, where strictness is looked at (`leaf_resolve_refuses`), for a whole walk
(`refuses_of_descent`), and for runs, where it is the relation `Lockstep`. What
makes the last step possible is that a run is a straight line: whether an untyped
array is met is a matter of the list of actions and of nothing else.

The converse needs that no other part of the generator refuses a document with
the error of untyped arrays, so each level also says where that error may come
from.
-/

namespace TypedClient

/-! ## Walks to arrays without types -/

namespace SchemaSite

/-- A walk from a site gets to an array whose items have no type: the array is an
element of the chain, and neither it nor an element before it is barred. -/
def VisitsUntyped (store : Store) (enterMaps : Bool) (maxDepth : Int) (site : SchemaSite) :
    Prop :=
  ∃ i v items, chain store enterMaps site i = some (.value v) ∧
    (∀ j ≤ i, ¬ Barred store enterMaps maxDepth site j) ∧
    SchemaNode.classify store v = .array items ∧ SchemaNode.areItemsTyped store items = false

end SchemaSite

open SchemaSite

variable {store : Store} {enterMaps : Bool} {site : SchemaSite}

theorem step_untyped {node : SchemaNode} :
    node.step store enterMaps = .stop .untypedArray ↔
      ∃ items, node = .array items ∧ SchemaNode.areItemsTyped store items = false := by
  cases node with
  | array items => cases h : SchemaNode.areItemsTyped store items <;> simp [SchemaNode.step, h]
  | map values => cases enterMaps <;> simp [SchemaNode.step]
  | _ => simp [SchemaNode.step]

/-- A walk of one level ends at an untyped array only if it starts there. -/
theorem untyped_alone {last : SchemaSite}
    (h : descendSite store enterMaps 1 last = .ok ⟨[], .untypedArray⟩) :
    ∃ v items, last = .value v ∧ SchemaNode.classify store v = .array items ∧
      SchemaNode.areItemsTyped store items = false := by
  cases last with
  | content schema =>
      rw [descendSite] at h
      split at h
      · cases h
      · cases h
  | value v =>
      cases hstep : (SchemaNode.classify store v).step store enterMaps with
      | stop leaf =>
          rw [descend_alone hstep] at h
          cases h
          obtain ⟨items, hnode, hitems⟩ := step_untyped.1 hstep
          exact ⟨v, items, rfl, hnode, hitems⟩
      | enter layer next =>
          rw [descendSite, descend, hstep] at h
          split at h
          · cases h
          · cases h

theorem visitsUntyped_iff {maxDepth : Int} :
    site.VisitsUntyped store enterMaps maxDepth ↔
      ∃ layers, descendSite store enterMaps (maxDepth + 1).toNat site =
        .ok ⟨layers, .untypedArray⟩ := by
  have hspec := descendSite_spec store enterMaps maxDepth site
  constructor
  · intro h
    obtain ⟨i, v, items, hchain, hfree, hnode, hitems⟩ := h
    have hstep : (SchemaNode.classify store v).step store enterMaps = .stop .untypedArray :=
      step_untyped.2 ⟨items, hnode, hitems⟩
    have hend : below? store enterMaps (.value v) = none := below?_of_stop hstep
    cases hd : descendSite store enterMaps (maxDepth + 1).toNat site with
    | error e =>
        rw [hd] at hspec
        obtain ⟨j, ⟨hbarred, _⟩, _⟩ := hspec
        by_cases hle : j ≤ i
        · exact absurd hbarred (hfree j hle)
        · have hnone := chain_none_of_le (chain_end hchain hend) (Nat.lt_of_not_le hle)
          exact absurd hbarred (not_barred_of_none hnone)
    | ok d =>
        rw [hd] at hspec
        obtain ⟨_, last, hlast, hlastEnd, _, hleaf⟩ := hspec
        -- Nothing is below the array and nothing is below the last element, so they are one.
        have hindex : i = d.layers.length :=
          Nat.le_antisymm (le_of_chain_end hlast hlastEnd hchain)
            (le_of_chain_end hchain hend hlast)
        rw [hindex, hlast] at hchain
        cases hchain
        have halone := hleaf 0
        rw [descend_alone hstep] at halone
        cases d
        cases halone
        exact ⟨_, rfl⟩
  · intro h
    obtain ⟨layers, hd⟩ := h
    rw [hd] at hspec
    obtain ⟨hfree, last, hlast, _, _, hleaf⟩ := hspec
    obtain ⟨v, items, rfl, hnode, hitems⟩ := untyped_alone (hleaf 0)
    exact ⟨layers.length, v, items, hlast, fun j _ => hfree j, hnode, hitems⟩

/-! ## One question, asked twice -/

/-- A result that may be strict differs from another one by being refused, and this
exactly at untyped arrays. -/
structure Refuses {α : Type} (strict other : Except Failure α) (untyped : Prop) : Prop where
  agrees : ¬ untyped → strict = other
  refused : untyped → strict = .error (.schema untypedItems)
  resolvable : ∀ detail source, other = .error (.schema (.unresolvable detail source)) → untyped

theorem leaf_resolve_refuses (store : Store) (config : ResolverConfig) (mode : ResolutionMode)
    (r : Registry) (leaf : Leaf) :
    Refuses (leaf.resolve store { config with strict := true } mode r)
      (leaf.resolve store config mode r) (leaf = .untypedArray) where
  agrees h := by
    cases leaf with
    | untypedArray => exact absurd rfl h
    | _ => rfl
  refused h := by
    rw [h]
    rfl
  resolvable detail source h := by
    rcases leaf_resolve_refusal h with ⟨hleaf, _⟩ | ⟨_, _, _, he⟩
    · exact hleaf
    · cases he

theorem leaf_documentType_refuses (config : ResolverConfig) (leaf : Leaf) :
    Refuses (leaf.documentType { config with strict := true }) (leaf.documentType config)
      (leaf = .untypedArray) where
  agrees h := by
    cases leaf with
    | untypedArray => exact absurd rfl h
    | _ => rfl
  refused h := by
    rw [h]
    rfl
  resolvable _ _ h := (leaf_documentType_refusal h).1

/-- What holds of the leaves holds of all that walks come to. -/
theorem refuses_of_descent {α : Type} {maxDepth : Int} {strict other : Except Failure α}
    {strictLeaf otherLeaf : Leaf → Except Failure α} (around : List Layer → α → α)
    (hleaf : ∀ leaf, Refuses (strictLeaf leaf) (otherLeaf leaf) (leaf = .untypedArray))
    (herror : ∀ e, descendSite store enterMaps (maxDepth + 1).toNat site = .error e →
      strict = .error (.schema e) ∧ other = .error (.schema e))
    (hok : ∀ d, descendSite store enterMaps (maxDepth + 1).toNat site = .ok d →
      strict = (strictLeaf d.leaf).map (around d.layers) ∧
        other = (otherLeaf d.leaf).map (around d.layers)) :
    Refuses strict other (site.VisitsUntyped store enterMaps maxDepth) := by
  have hspec := descendSite_spec store enterMaps maxDepth site
  cases hd : descendSite store enterMaps (maxDepth + 1).toNat site with
  | error e =>
      have hnot : ¬ site.VisitsUntyped store enterMaps maxDepth := by
        rw [visitsUntyped_iff, hd]
        simp
      rw [hd] at hspec
      obtain ⟨i, _, he⟩ := hspec
      obtain ⟨rfl, rfl⟩ := herror e hd
      subst he
      exact ⟨fun _ => rfl, fun h => absurd h hnot, fun _ _ h => nomatch h⟩
  | ok d =>
      obtain ⟨layers, leaf⟩ := d
      have hvisits : site.VisitsUntyped store enterMaps maxDepth ↔ leaf = .untypedArray := by
        rw [visitsUntyped_iff, hd]
        simp
      obtain ⟨rfl, rfl⟩ := hok _ hd
      rw [hvisits]
      refine ⟨fun h => ?_, fun h => ?_, fun detail source h => ?_⟩
      · rw [(hleaf leaf).agrees h]
      · rw [(hleaf leaf).refused h]
        rfl
      · exact (hleaf leaf).resolvable detail source (map_eq_error.1 h)

theorem resolve_refuses (store : Store) (config : ResolverConfig) (mode : ResolutionMode)
    (r : Registry) (site : SchemaSite) :
    Refuses (resolve store { config with strict := true } mode r site)
      (resolve store config mode r site) (site.VisitsUntyped store true config.maxDepth) :=
  refuses_of_descent (fun layers r => { r with text := Layer.aroundAll layers r.text })
    (leaf_resolve_refuses store config mode r)
    (fun _ h => ⟨resolve_of_error h, resolve_of_error h⟩)
    (fun _ h => ⟨resolve_of_ok h, resolve_of_ok h⟩)

theorem documentType_refuses (store : Store) (config : ResolverConfig) (site : SchemaSite) :
    Refuses (documentType store { config with strict := true } site)
      (documentType store config site) (site.VisitsUntyped store false config.maxDepth) :=
  refuses_of_descent Layer.aroundAll (leaf_documentType_refuses config)
    (fun _ h => ⟨documentType_of_error h, documentType_of_error h⟩)
    (fun _ h => ⟨documentType_of_ok h, documentType_of_ok h⟩)

/-! ## Operations are refused for other reasons -/

theorem Parameter.mergeAll_refusal {document : Value} {raws : List Value}
    {merged : List Parameter} {e : SchemaError}
    (h : mergeAll store document raws merged = .error e) :
    ∃ detail field, e = .invalid detail field none := by
  induction raws generalizing merged with
  | nil => cases h
  | cons raw rest ih =>
      rw [mergeAll, bind_eq_error] at h
      rcases h with h | ⟨_, _, h⟩
      · rw [named] at h
        split at h
        · split at h
          · cases h
          · cases h
            exact ⟨_, _, rfl⟩
        · cases h
          exact ⟨_, _, rfl⟩
      · exact ih h

theorem Parameter.collect_refusal {pathItem details document : Value} {e : SchemaError}
    (h : collect store pathItem details document = .error (.schema e)) :
    ∃ detail field, e = .invalid detail field none := by
  rw [collect] at h
  obtain ⟨shared, _, h⟩ := refusal_of_ofFault_bind h
  obtain ⟨own, _, h⟩ := refusal_of_ofFault_bind h
  split at h
  · next hmerge =>
      cases h
      exact mergeAll_refusal hmerge
  · obtain ⟨_, _, h⟩ := refusal_of_ofFault_bind h
    cases h

namespace Operation

theorem ofDetails_refusal {document : Value} {shared : List Value} {path : Scalar}
    {pathItem details : Nat} {method id : String} {e : SchemaError}
    (h : ofDetails store document shared path pathItem method details id = .error (.schema e)) :
    ∃ detail field, e = .invalid detail field none := by
  rw [ofDetails] at h
  obtain ⟨group, _, h⟩ := refusal_of_ofFault_bind h
  rcases bind_eq_error.1 h with h | ⟨parameters, _, h⟩
  · exact Parameter.collect_refusal h
  obtain ⟨response, _, h⟩ := refusal_of_ofFault_bind h
  dsimp only at h
  split at h
  · cases h
  · obtain ⟨_, _, h⟩ := refusal_of_ofFault_bind h
    cases h

theorem build_refusal {document : Value} {e : SchemaError}
    (h : build store document = .error (.schema e)) :
    ∃ detail field, e = .invalid detail field none := by
  rw [build] at h
  obtain ⟨shared, _, h⟩ := refusal_of_ofFault_bind h
  obtain ⟨paths, _, h⟩ := refusal_of_ofFault_bind h
  rcases bind_eq_error.1 h with h | ⟨_, _, h⟩
  · obtain ⟨_, _, hdetails⟩ := mapM_eq_error h
    exact ofDetails_refusal hdetails
  · cases h

end Operation

/-! ## Two runs in lockstep -/

namespace Generation

/-- An action walks to an array whose items have no type. -/
def MeetsAt (g : Generation) : Action → Prop
  | .type _ site => site.VisitsUntyped g.store true g.config.maxDepth
  | .name site => site.VisitsUntyped g.store false g.config.maxDepth
  | _ => False

/-- One of several actions does, and those before it succeed. -/
def Meets (g : Generation) : List Action → Registry → Prop
  | [], _ => False
  | a :: rest, r => g.MeetsAt a ∨ ∃ m, (g.act a).Yields r () m ∧ g.Meets rest m

variable {g : Generation} {r : Registry}

theorem meets_singleton {a : Action} : g.Meets [a] r ↔ g.MeetsAt a := by
  simp [Meets]

theorem meets_append {first rest : List Action} :
    g.Meets (first ++ rest) r ↔
      g.Meets first r ∨ ∃ m, (g.perform first).Yields r () m ∧ g.Meets rest m := by
  induction first generalizing r with
  | nil =>
      have hnil : ∀ m, (g.perform []).Yields r () m ↔ r = m := fun m =>
        Run.yields_pure.trans (and_iff_right rfl)
      simp [Meets, hnil]
  | cons a first ih =>
      rw [List.cons_append, Meets, Meets, perform_cons]
      simp only [ih, Run.yields_bind]
      constructor
      · rintro (h | ⟨m, hm, h | ⟨m', hm', h⟩⟩)
        · exact .inl (.inl h)
        · exact .inl (.inr ⟨m, hm, h⟩)
        · exact .inr ⟨m', ⟨(), m, hm, hm'⟩, h⟩
      · rintro ((h | ⟨m, hm, h⟩) | ⟨m', ⟨_, m, hm, hm'⟩, h⟩)
        · exact .inl h
        · exact .inr ⟨m, hm, .inl h⟩
        · exact .inr ⟨m, hm, .inr ⟨m', hm', h⟩⟩

/-- A strict run next to another one, which performs the actions. -/
structure Lockstep (g : Generation) {α : Type} (strict other : Run α)
    (actions : List Action) : Prop where
  follows : g.Follows other actions
  agrees : ∀ r, ¬ g.Meets actions r → strict.run.run r = other.run.run r
  refused : ∀ r, g.Meets actions r →
    ∃ m, strict.run.run r = (.error (.schema untypedItems), m)
  resolvable : ∀ r detail source m,
    other.run.run r = (.error (.schema (.unresolvable detail source)), m) → g.Meets actions r

section Locksteps

variable {α β : Type}

/-- A run that asks no questions. -/
theorem Lockstep.quiet {x : Run α} {actions : List Action} (hfollows : g.Follows x actions)
    (hquiet : ∀ r, ¬ g.Meets actions r)
    (hother : ∀ r detail source m,
      x.run.run r ≠ (.error (.schema (.unresolvable detail source)), m)) :
    g.Lockstep x x actions where
  follows := hfollows
  agrees _ _ := rfl
  refused r h := absurd h (hquiet r)
  resolvable r detail source m h := absurd h (hother r detail source m)

theorem Lockstep.chain {x y : Run α} {f h : α → Run β} {first rest : List Action}
    (hx : g.Lockstep x y first) (hf : ∀ r a m, y.Yields r a m → g.Lockstep (f a) (h a) rest) :
    g.Lockstep (x >>= f) (y >>= h) (first ++ rest) where
  follows := hx.follows.bind fun r a m ha => (hf r a m ha).follows
  agrees r hnot := by
    rw [meets_append, not_or] at hnot
    rw [Run.run_bind, Run.run_bind, hx.agrees r hnot.1]
    cases hy : y.run.run r with
    | mk result m =>
        cases result with
        | error e => rfl
        | ok a =>
            have hrest : ¬ g.Meets rest m := fun hmeets =>
              hnot.2 ⟨m, hx.follows.yields hy, hmeets⟩
            exact (hf r a m hy).agrees m hrest
  refused r hmeets := by
    rw [Run.run_bind]
    -- An array met in the second part is reached only if the first part has met none.
    by_cases hfirst : g.Meets first r
    · obtain ⟨m, hm⟩ := hx.refused r hfirst
      rw [hm]
      exact ⟨m, rfl⟩
    · obtain ⟨m, hm, hrest⟩ := (meets_append.1 hmeets).resolve_left hfirst
      obtain ⟨a, ha⟩ := hx.follows.yields_of hm
      rw [hx.agrees r hfirst, show y.run.run r = (.ok a, m) from ha]
      exact (hf r a m ha).refused m hrest
  resolvable r detail source m hrun := by
    rw [Run.run_bind] at hrun
    cases hy : y.run.run r with
    | mk result m' =>
        rw [hy] at hrun
        cases result with
        | error e =>
            cases hrun
            exact meets_append.2 (.inl (hx.resolvable r detail source m hy))
        | ok a =>
            have hrest := (hf r a m' hy).resolvable m' detail source m hrun
            exact meets_append.2 (.inr ⟨m', hx.follows.yields hy, hrest⟩)

variable {strict : Value}

theorem config_withStrict (hstrict : g.store.truthy strict = true) :
    (g.withStrict strict).config = { g.config with strict := true } := by
  rw [config, config, withStrict, hstrict]

theorem lockstep_typeOf (hstrict : g.store.truthy strict = true) (mode : ResolutionMode)
    (site : SchemaSite) :
    g.Lockstep ((g.withStrict strict).typeOf mode site) (g.typeOf mode site)
      [.type mode site] where
  follows := follows_act (ending_discarded _)
  agrees r hnot := by
    have hask := resolve_refuses g.store g.config mode r site
    rw [meets_singleton] at hnot
    rw [typeOf_run, typeOf_run, config_withStrict hstrict]
    exact congrArg (settle r) (hask.agrees hnot)
  refused r hmeets := by
    have hask := resolve_refuses g.store g.config mode r site
    rw [meets_singleton] at hmeets
    refine ⟨r, ?_⟩
    rw [typeOf_run, config_withStrict hstrict]
    exact congrArg (settle r) (hask.refused hmeets)
  resolvable r detail source m hrun := by
    have hask := resolve_refuses g.store g.config mode r site
    rw [meets_singleton]
    rw [typeOf_run] at hrun
    cases hresolve : resolve g.store g.config mode r site with
    | ok resolution =>
        rw [hresolve] at hrun
        cases hrun
    | error f =>
        rw [hresolve] at hrun
        cases hrun
        exact hask.resolvable detail source hresolve

theorem lockstep_docTypeOf (hstrict : g.store.truthy strict = true) (site : SchemaSite) :
    g.Lockstep ((g.withStrict strict).docTypeOf site) (g.docTypeOf site) [.name site] where
  follows := follows_act (ending_discarded _)
  agrees r hnot := by
    have hask := documentType_refuses g.store g.config site
    rw [meets_singleton] at hnot
    rw [docTypeOf, docTypeOf, config_withStrict hstrict, ← hask.agrees hnot]
    rfl
  refused r hmeets := by
    have hask := documentType_refuses g.store g.config site
    rw [meets_singleton] at hmeets
    refine ⟨r, ?_⟩
    rw [docTypeOf, config_withStrict hstrict]
    exact Prod.ext (hask.refused hmeets) rfl
  resolvable r detail source m hrun := by
    have hask := documentType_refuses g.store g.config site
    rw [meets_singleton]
    exact hask.resolvable detail source (congrArg Prod.fst hrun)

theorem lockstep_compatible (hstrict : g.store.truthy strict = true) :
    g.Compatible strict (fun x y actions => g.Lockstep x y actions) where
  ends _ := .quiet (fun _ => rfl) (fun _ h => h) (fun _ _ _ _ h => nomatch h)
  chains := Lockstep.chain
  looks := .quiet (fun _ => rfl) (fun _ h => h) (fun _ _ _ _ h => nomatch h)
  resets := .quiet (follows_act fun _ => rfl) (fun _ h => meets_singleton.1 h)
    (fun _ _ _ _ h => nomatch h)
  faults x := .quiet (follows_act fun _ => rfl) (fun _ h => meets_singleton.1 h)
    (fun _ _ _ _ h => ofFault_ne_schema x _ (congrArg Prod.fst h))
  misses := .quiet (follows_act fun _ => rfl) (fun _ h => meets_singleton.1 h)
    (fun _ _ _ _ h => nomatch h)
  builds document := .quiet (follows_act fun _ => rfl) (fun _ h => meets_singleton.1 h)
    (fun _ _ _ _ h => by
      obtain ⟨_, _, he⟩ := Operation.build_refusal (congrArg Prod.fst h)
      cases he)
  types := lockstep_typeOf hstrict
  names := lockstep_docTypeOf hstrict

end Locksteps

end Generation

/-- An outcome is the error of a schema without a usable type. -/
def Unresolvable {α : Type} (outcome : Except Failure α) : Prop :=
  ∃ detail source, outcome = .error (.schema (.unresolvable detail source))

/-- A run that is made strict has the outcome that it had, registry included, or is refused. It
is refused exactly if the run as it was gets to an array whose items have no type: one of the
actions that this run performs walks to it, and those before succeed. -/
theorem strict_only_refuses (g : Generation) (strict : Value)
    (hstrict : g.store.truthy strict = true) (document : Value) (r : Registry) :
    ((g.withStrict strict).runClient document r = g.runClient document r ∨
        Unresolvable ((g.withStrict strict).runClient document r).1) ∧
      (Unresolvable ((g.withStrict strict).runClient document r).1 ↔
        g.Meets (g.clientActions document) r) ∧
      g.Follows (g.client document) (g.clientActions document) := by
  have hruns := (Generation.lockstep_compatible hstrict).client document
  have hrefused : g.Meets (g.clientActions document) r →
      Unresolvable ((g.withStrict strict).runClient document r).1 := by
    intro hmeets
    obtain ⟨m, hm⟩ := hruns.refused r hmeets
    exact ⟨_, _, congrArg Prod.fst hm⟩
  refine ⟨?_, ⟨?_, hrefused⟩, hruns.follows⟩
  · by_cases hmeets : g.Meets (g.clientActions document) r
    · exact .inr (hrefused hmeets)
    · exact .inl (hruns.agrees r hmeets)
  · rintro ⟨detail, source, hunresolvable⟩
    by_contra hmeets
    have hsame : (g.withStrict strict).runClient document r = g.runClient document r :=
      hruns.agrees r hmeets
    rw [hsame] at hunresolvable
    exact hmeets (hruns.resolvable r detail source _ (Prod.ext hunresolvable rfl))

/-- A document without paths whose one definition is an array without items. -/
def tagsStore : Store where
  mappings := #[
    [(.text "type", .text "array")],
    [(.text "Tags", .mapping 0)],
    [],
    [(.text "paths", .mapping 2), (.text "definitions", .mapping 1)]]

theorem tags_build : Operation.build tagsStore (.mapping 3) = .ok [] :=
  Operation.build_eq_ok.2 ⟨[], [], [], rfl, rfl, .nil, List.mergeSort_nil.symm⟩

/-- That document is refused by a strict run only, at its definition. -/
theorem strict_only_refuses_tags :
    tagsStore.truthy (.bool true) = true ∧
      Unresolvable (Generation.runClient { store := tagsStore, options := { strict := .bool true } }
        (.mapping 3) {}).1 ∧
      Generation.Meets { store := tagsStore, options := {} }
        (Generation.clientActions { store := tagsStore, options := {} } (.mapping 3)) {} ∧
      ∃ files after, Generation.runClient { store := tagsStore, options := {} } (.mapping 3) {} =
        (.ok files, after) := by
  have hstrict : tagsStore.truthy (.bool true) = true := rfl
  have hrefused : (Generation.runClient { store := tagsStore, options := { strict := .bool true } }
      (.mapping 3) {}).1 = .error (.schema untypedItems) := by
    rw [Generation.runClient, Generation.client, tags_build]
    decide +kernel
  have hmeets := (strict_only_refuses { store := tagsStore, options := {} } (.bool true) hstrict
    (.mapping 3) {}).2.1.1 ⟨_, _, hrefused⟩
  have hsome : (Generation.runClient { store := tagsStore, options := {} } (.mapping 3)
      {}).1.toOption.any (fun _ => true) = true := by
    rw [Generation.runClient, Generation.client, tags_build]
    decide +kernel
  obtain ⟨files, after, hrun, _⟩ := ok_of_any hsome
  exact ⟨hstrict, ⟨_, _, hrefused⟩, hmeets, files, after, hrun⟩

end TypedClient
