import TypedClient.Proofs.ResolutionOrder
import TypedClient.Proofs.StraightLine

/-!
# What a resolution writes into the registry

`resolve` takes a registry and gives one back, so a resolution that fails has
none to give. A program that keeps one registry, and writes into it on the way,
does not get that for free: what fails after it has written leaves an entry
behind. The walk in this file is such a program. It takes the layers and the
guards as they come, writes an enum into the registry where it meets it, and
puts the layers around the type on its way back.

`walk_run` says that the walk comes to the same as `resolve`, by induction over
the levels that are left, and above all that a walk that fails leaves the
registry as it was: the one write is followed by nothing that can fail. So
whatever is known of `Registry.insert` is known of the walk, and the rest is
about `insert`. It appends one entry or none, and done again it appends none.
-/

namespace TypedClient

open Generation (settle)

/-! ## Walking -/

/-- An enum written into the registry where it is met. -/
def EnumSchema.write (store : Store) (config : ResolverConfig) (schema : EnumSchema) :
    Run String := do
  let name ← Run.ofFault (Naming.enumName store schema.literals)
  let declaration ← Run.ofFault (schema.declaration store name)
  let r ← get
  match r.lookup name with
  | none => set (r.append name declaration)
  | some existing =>
    if existing ≠ declaration ∧ r.strict = true then
      throw (.schema (.collision name existing declaration none))
  return qualify config.enumsNamespace name

/-- The type of a leaf. Only an enum has to do with the registry. -/
def Leaf.write (store : Store) (config : ResolverConfig) (mode : ResolutionMode) :
    Leaf → Run String
  | .enumeration schema => schema.write store config
  | leaf => Run.ofResult ((leaf.resolve store config mode {}).map (·.text))

/-- The type of a value, written from the inside out on the way back from the
leaf. -/
def walk (store : Store) (config : ResolverConfig) (mode : ResolutionMode) :
    (budget : Nat) → (active : List Nat) → (depth : Nat) → Value → Run String
  | 0, _, depth, _ => throw (.schema (.cyclic depth none))
  | budget + 1, active, depth, v =>
    if v.mapping?.any active.contains then throw (.schema (.cyclic depth none))
    else match (SchemaNode.classify store v).step store true with
      | .stop leaf => leaf.write store config mode
      | .enter layer next => do
        let type ← walk store config mode budget (v.mapping?.toList ++ active) (depth + 1) next
        return layer.around type

/-- The type of the schema at a site. -/
def walkSite (store : Store) (config : ResolverConfig) (mode : ResolutionMode) :
    SchemaSite → Run String
  | .value v => walk store config mode config.budget [] 0 v
  | .content schema =>
    match config.budget with
    | 0 => throw (.schema (.cyclic 0 none))
    | budget + 1 =>
      if schema.isNull then Leaf.untyped.write store config mode
      else do
        let type ← walk store config mode budget [] 1 schema
        return Layer.wrapper.around type

variable {store : Store} {config : ResolverConfig} {mode : ResolutionMode} {r : Registry}

theorem run_get_bind {β : Type} (f : Registry → Run β) (r : Registry) :
    (get >>= f).run.run r = (f r).run.run r := rfl

/-- A fault on the way to a type is a fault on the way to a resolution, and
without one both go on. -/
theorem run_ofFault_bind {α : Type} {x : Except Fault α} {f : α → Run String}
    {g : α → Except Failure Resolution} (h : ∀ a, (f a).run.run r = settle r (g a)) :
    (Run.ofFault x >>= f).run.run r = settle r (Failure.ofFault x >>= g) := by
  rw [Run.ofFault, Run.run_ofResult_bind]
  cases x with
  | error fault => rfl
  | ok a => exact h a

/-- An enum is looked up and written as `insert` has it. -/
theorem enum_write_run (schema : EnumSchema) :
    (schema.write store config).run.run r = settle r (schema.resolve store config r) := by
  refine run_ofFault_bind fun name => run_ofFault_bind fun declaration => ?_
  rw [run_get_bind, Registry.insert]
  cases r.lookup name with
  | none => rfl
  | some existing =>
      by_cases hsame : existing = declaration
      · simp only [hsame, ne_eq, not_true_eq_false, false_and, if_false, if_true]
        rfl
      · cases hstrict : r.strict with
        | false =>
            simp only [hsame, ne_eq, Bool.false_eq_true, and_false, if_false]
            rfl
        | true =>
            simp only [hsame, ne_eq, not_false_eq_true, and_self, if_true, if_false]
            rfl

theorem leaf_write_run (leaf : Leaf) :
    (leaf.write store config mode).run.run r = settle r (leaf.resolve store config mode r) := by
  by_cases henum : ∃ schema, leaf = .enumeration schema
  · obtain ⟨schema, rfl⟩ := henum
    exact enum_write_run schema
  · have hplain : ∀ schema, leaf ≠ .enumeration schema := fun schema h => henum ⟨schema, h⟩
    have hwrite : leaf.write store config mode =
        Run.ofResult ((leaf.resolve store config mode {}).map (·.text)) := by
      cases leaf with
      | enumeration schema => exact absurd rfl (hplain schema)
      | _ => rfl
    rw [hwrite, leaf_resolve_plain r hplain]
    cases leaf.resolve store config mode {} <;> rfl

/-- A resolution below layers, as the walk comes back from it. -/
def within (layers : List Layer) (resolution : Resolution) : Resolution :=
  { resolution with text := Layer.aroundAll layers resolution.text }

theorem run_around (layer : Layer) {x : Run String} {outcome : Except Failure Resolution}
    (h : x.run.run r = settle r outcome) :
    (x >>= fun type => (return layer.around type : Run String)).run.run r =
      settle r (outcome.map (within [layer])) := by
  rw [Run.run_bind, h]
  cases outcome <;> rfl

/-- The walk descends, and writes what the leaf at the end calls for. If it does
not get there, or the leaf is refused, it leaves the registry alone. -/
theorem walk_run (budget : Nat) (active : List Nat) (depth : Nat) (v : Value) :
    (walk store config mode budget active depth v).run.run r =
      settle r (match descend store true budget active depth v with
        | .error e => .error (.schema e)
        | .ok d => (d.leaf.resolve store config mode r).map (within d.layers)) := by
  induction budget generalizing active depth v with
  | zero => rfl
  | succ budget ih =>
      rw [walk, descend]
      split
      · rfl
      · cases (SchemaNode.classify store v).step store true with
        | stop leaf =>
            dsimp only
            rw [leaf_write_run]
            cases leaf.resolve store config mode r <;> rfl
        | enter layer next =>
            dsimp only
            rw [run_around layer (ih _ _ _)]
            cases descend store true budget (v.mapping?.toList ++ active) (depth + 1) next with
            | error e => rfl
            | ok d =>
                dsimp only [Except.map, Descent.below]
                cases d.leaf.resolve store config mode r <;> rfl

/-- The walk from a site comes to what the site is resolved to. -/
theorem walkSite_run (site : SchemaSite) :
    (walkSite store config mode site).run.run r =
      settle r (resolve store config mode r site) := by
  cases site with
  | value v =>
      rw [walkSite, walk_run]
      cases hdescent : descend store true config.budget [] 0 v with
      | error e => rw [resolve_of_error (by rw [descendSite, hdescent])]
      | ok d =>
          rw [resolve_of_ok (by rw [descendSite, hdescent])]
          rfl
  | content schema =>
      rw [walkSite, resolve]
      cases config.budget with
      | zero => rfl
      | succ budget =>
          rw [descendSite]
          dsimp only
          split
          · rfl
          · rw [run_around .wrapper (walk_run budget [] 1 schema)]
            cases descend store true budget [] 1 schema with
            | error e => rfl
            | ok d =>
                dsimp only [Except.map, Descent.below]
                cases d.leaf.resolve store config mode r <;> rfl

/-! ## Writing once -/

namespace Registry

variable {r' : Registry} {name declaration : String} {collision : Option EnumCollision}

/-- A declaration that is not refused is appended if its name is new, and
otherwise changes nothing, whether the registry is strict or not. -/
theorem insert_cases (h : r.insert name declaration = .ok (r', collision)) :
    (r.lookup name = none ∧ r' = r.append name declaration) ∨
      (r.lookup name ≠ none ∧ r' = r) := by
  rw [insert] at h
  split at h
  · next hnew =>
      simp only [Except.ok.injEq, Prod.mk.injEq] at h
      exact .inl ⟨hnew, h.1.symm⟩
  · next existing hold =>
      refine .inr ⟨by simp [hold], ?_⟩
      split at h
      · simp only [Except.ok.injEq, Prod.mk.injEq] at h
        exact h.1.symm
      · split at h
        · cases h
        · simp only [Except.ok.injEq, Prod.mk.injEq] at h
          exact h.1.symm

/-- Done again, it changes nothing. -/
theorem insert_again (h : r.insert name declaration = .ok (r', collision)) :
    ∃ collision', r'.insert name declaration = .ok (r', collision') := by
  rcases insert_cases h with hnew | hold
  · obtain ⟨hnew, rfl⟩ := hnew
    have hfound : (r.append name declaration).lookup name = some declaration := by
      rw [lookup_append, hnew, if_pos rfl, Option.none_or]
    exact ⟨none, by rw [insert, hfound]; exact if_pos rfl⟩
  · obtain ⟨-, rfl⟩ := hold
    exact ⟨collision, h⟩

end Registry

/-- What a resolution that succeeds leaves behind: the registry with the enum
that it ended at, if the name of the enum was new, and otherwise the registry. -/
inductive Leaves (store : Store) (config : ResolverConfig) (site : SchemaSite) (r : Registry) :
    Registry → Prop where
  | added {layers : List Layer} {schema : EnumSchema} {name declaration : String}
      (ends : descendSite store true config.budget site = .ok ⟨layers, .enumeration schema⟩)
      (named : Naming.enumName store schema.literals = .ok name)
      (declared : schema.declaration store name = .ok declaration)
      (new : r.lookup name = none) : Leaves store config site r (r.append name declaration)
  | same (old : ∀ layers schema name,
        descendSite store true config.budget site = .ok ⟨layers, .enumeration schema⟩ →
        Naming.enumName store schema.literals = .ok name → r.lookup name ≠ none) :
      Leaves store config site r r

theorem leaves_of_resolve {site : SchemaSite} {resolution : Resolution}
    (h : resolve store config mode r site = .ok resolution) :
    Leaves store config site r resolution.registry := by
  obtain ⟨⟨layers, leaf⟩, written, hdescent, hleaf, rfl⟩ := resolve_eq_ok.1 h
  by_cases henum : ∃ schema, leaf = .enumeration schema
  · obtain ⟨schema, rfl⟩ := henum
    obtain ⟨name, declaration, hname, hdeclaration, -, hinsert⟩ := enum_resolve_inserts hleaf
    rcases Registry.insert_cases hinsert with hnew | hold
    · rw [hnew.2]
      exact .added hdescent hname hdeclaration hnew.1
    · rw [hold.2]
      refine .same fun layers' schema' name' hends hname' => ?_
      rw [hdescent] at hends
      cases hends
      cases hname.symm.trans hname'
      exact hold.1
  · have hplain : ∀ schema, leaf ≠ .enumeration schema := fun schema h => henum ⟨schema, h⟩
    rw [show written.registry = r from leaf_resolve_registry hplain hleaf]
    refine .same fun layers' schema name hends _ => ?_
    rw [hdescent] at hends
    cases hends
    exact absurd rfl (hplain schema)

theorem leaf_resolve_again {leaf : Leaf} {written : Resolution}
    (h : leaf.resolve store config mode r = .ok written) :
    ∃ again, leaf.resolve store config mode written.registry = .ok again ∧
      again.text = written.text ∧ again.registry = written.registry := by
  by_cases henum : ∃ schema, leaf = .enumeration schema
  · obtain ⟨schema, rfl⟩ := henum
    obtain ⟨name, declaration, hname, hdeclaration, htext, hinsert⟩ := enum_resolve_inserts h
    obtain ⟨collision, hagain⟩ := Registry.insert_again hinsert
    refine ⟨⟨written.text, written.registry, collision⟩, ?_, rfl, rfl⟩
    simp only [Leaf.resolve, EnumSchema.resolve, bind_eq_ok, ofFault_eq_ok]
    refine ⟨name, hname, declaration, hdeclaration, ?_⟩
    rw [hagain, htext]
    rfl
  · have hplain : ∀ schema, leaf ≠ .enumeration schema := fun schema h => henum ⟨schema, h⟩
    rw [leaf_resolve_registry hplain h]
    exact ⟨written, h, rfl, leaf_resolve_registry hplain h⟩

theorem resolve_again {site : SchemaSite} {resolution : Resolution}
    (h : resolve store config mode r site = .ok resolution) :
    ∃ again, resolve store config mode resolution.registry site = .ok again ∧
      again.text = resolution.text ∧ again.registry = resolution.registry := by
  obtain ⟨d, written, hdescent, hleaf, rfl⟩ := resolve_eq_ok.1 h
  obtain ⟨again, hagain, htext, hregistry⟩ := leaf_resolve_again hleaf
  exact ⟨_, resolve_eq_ok.2 ⟨d, again, hdescent, hagain, rfl⟩, by rw [htext], hregistry⟩

/-- A walk writes all or nothing. If it fails, for whatever reason and at
whatever depth, the registry is as before. If it succeeds, at most the one entry
of the enum that it ended at was appended, and the same walk after it gives the
same type and appends nothing. -/
theorem resolution_atomic (store : Store) (config : ResolverConfig) (mode : ResolutionMode)
    (r : Registry) (site : SchemaSite) :
    (walkSite store config mode site).run.run r =
        settle r (resolve store config mode r site) ∧
      match (walkSite store config mode site).run.run r with
      | (.error _, after) => after = r
      | (.ok type, after) =>
        Leaves store config site r after ∧
          (walkSite store config mode site).run.run after = (.ok type, after) := by
  refine ⟨walkSite_run site, ?_⟩
  rw [walkSite_run]
  cases hresolve : resolve store config mode r site with
  | error f => rfl
  | ok resolution =>
      obtain ⟨again, hagain, htext, hregistry⟩ := resolve_again hresolve
      refine ⟨leaves_of_resolve hresolve, ?_⟩
      rw [walkSite_run, hagain, settle, htext, hregistry]

end TypedClient
