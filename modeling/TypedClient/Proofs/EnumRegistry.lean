import TypedClient.Proofs.Outcomes
import TypedClient.Proofs.Tables
import TypedClient.Schema.Resolver

/-!
# What registering an enum does

The registry has one operation that changes it, `insert`, and a type is written
through it in one place, at an enum leaf. This file says once what that
operation can do, and carries it up through `resolve`: a resolution either
leaves a strict registry as it was, or appends the one entry that its leaf
calls for. Later files argue about registries from these lemmas alone.
-/

namespace TypedClient

namespace Registry

variable {r r' : Registry} {name other declaration existing : String}

/-! ## Looking up -/

theorem lookup_append :
    (r.append name declaration).lookup other =
      (r.lookup other).or (if other = name then some declaration else none) := by
  rw [lookup, lookup, append, List.lookup_append, lookup_cons_if, List.lookup_nil]

theorem names_append : (r.append name declaration).names = r.names ++ [name] := by
  rw [names, names, append, List.map_append]
  rfl

/-! ## Inserting -/

theorem insert_eq_error {e : SchemaError} :
    r.insert name declaration = .error e ↔
      r.strict = true ∧ ∃ existing, r.lookup name = some existing ∧ existing ≠ declaration ∧
        e = .collision name existing declaration none := by
  rw [insert]
  cases hlookup : r.lookup name with
  | none => simp
  | some existing =>
      by_cases hsame : existing = declaration
      · simp [hsame]
      · cases hstrict : r.strict with
        | false => simp [hsame]
        | true =>
            simp only [if_neg hsame, if_pos, Except.error.injEq, true_and]
            constructor
            · rintro rfl
              exact ⟨existing, rfl, hsame, rfl⟩
            · intro h
              obtain ⟨_, hexisting, _, rfl⟩ := h
              cases hexisting
              rfl

/-- A strict registry takes a declaration if its name is new, and then appends
it, or if the name has that very declaration, and then stays as it is. -/
theorem insert_eq_ok (hstrict : r.strict = true) {collision : Option EnumCollision} :
    r.insert name declaration = .ok (r', collision) ↔
      collision = none ∧
        ((r.lookup name = none ∧ r' = r.append name declaration) ∨
          (r.lookup name = some declaration ∧ r' = r)) := by
  rw [insert]
  cases hlookup : r.lookup name with
  | none => simp [eq_comm, and_comm]
  | some existing =>
      by_cases hsame : existing = declaration
      · simp [hsame, eq_comm, and_comm]
      · simp [hsame, hstrict]

/-- What a strict registry is after a declaration that it took: the declaration
was new and stands at the end, or it was there. -/
def Takes (r : Registry) (name declaration : String) (r' : Registry) : Prop :=
  (r.lookup name = none ∧ r' = r.append name declaration) ∨
    (r.lookup name = some declaration ∧ r' = r)

theorem Takes.strict (h : r.Takes name declaration r') : r'.strict = r.strict := by
  rcases h with ⟨_, rfl⟩ | ⟨_, rfl⟩ <;> rfl

theorem Takes.lookup_self (h : r.Takes name declaration r') :
    r'.lookup name = some declaration := by
  rcases h with ⟨hnew, rfl⟩ | ⟨hold, rfl⟩
  · rw [lookup_append, hnew, if_pos rfl, Option.none_or]
  · exact hold

theorem Takes.lookup_mono (h : r.Takes name declaration r')
    (hother : r.lookup other = some existing) : r'.lookup other = some existing := by
  rcases h with ⟨_, rfl⟩ | ⟨_, rfl⟩
  · rw [lookup_append, hother, Option.some_or]
  · exact hother

theorem Takes.names (h : r.Takes name declaration r') :
    r'.names = if name ∈ r.names then r.names else r.names ++ [name] := by
  have hmem : r.lookup name = none ↔ name ∉ r.names := lookup_eq_none
  rcases h with ⟨hnew, hafter⟩ | ⟨hold, hafter⟩
  · rw [hafter, if_neg (hmem.1 hnew), names_append]
  · have hin : name ∈ r.names := by
      by_contra hout
      rw [hmem.2 hout] at hold
      cases hold
    rw [hafter, if_pos hin]

end Registry

/-! ## Resolving -/

variable {store : Store} {config : ResolverConfig} {mode : ResolutionMode}
  {r : Registry} {site : SchemaSite} {resolution : Resolution}

theorem resolve_of_error {e : SchemaError}
    (h : descendSite store true config.budget site = .error e) :
    resolve store config mode r site = .error (.schema e) := by
  rw [resolve, h]

theorem resolve_of_ok {d : Descent} (h : descendSite store true config.budget site = .ok d) :
    resolve store config mode r site = (d.leaf.resolve store config mode r).map fun written =>
      { written with text := Layer.aroundAll d.layers written.text } := by
  rw [resolve, h]
  cases hleaf : d.leaf.resolve store config mode r <;> simp only [hleaf] <;> rfl

theorem resolve_eq_ok :
    resolve store config mode r site = .ok resolution ↔
      ∃ d leaf, descendSite store true config.budget site = .ok d ∧
        d.leaf.resolve store config mode r = .ok leaf ∧
        resolution = { leaf with text := Layer.aroundAll d.layers leaf.text } := by
  rw [resolve]
  cases descendSite store true config.budget site with
  | error e => simp
  | ok d =>
      simp only [bind_eq_ok, pure_eq_ok, Except.ok.injEq]
      constructor
      · intro h
        obtain ⟨leaf, hleaf, rfl⟩ := h
        exact ⟨d, leaf, rfl, hleaf, rfl⟩
      · intro h
        obtain ⟨_, leaf, rfl, hleaf, rfl⟩ := h
        exact ⟨leaf, hleaf, rfl⟩

/-- The type of an enum is its name, and its declaration goes into the registry. -/
theorem enum_resolve_inserts {schema : EnumSchema}
    (h : schema.resolve store config r = .ok resolution) :
    ∃ name declaration, Naming.enumName store schema.literals = .ok name ∧
      schema.declaration store name = .ok declaration ∧
      resolution.text = qualify config.enumsNamespace name ∧
      r.insert name declaration = .ok (resolution.registry, resolution.collision) := by
  simp only [EnumSchema.resolve, bind_eq_ok, ofFault_eq_ok] at h
  obtain ⟨name, hname, declaration, hdeclaration, h⟩ := h
  refine ⟨name, declaration, hname, hdeclaration, ?_⟩
  cases hinsert : r.insert name declaration with
  | error e =>
      rw [hinsert] at h
      cases h
  | ok inserted =>
      rw [hinsert, pure_eq_ok] at h
      subst h
      exact ⟨rfl, rfl⟩

/-- A strict registry takes the declaration of an enum whose type was written. -/
theorem enum_resolve_eq_ok {schema : EnumSchema} (hstrict : r.strict = true)
    (h : schema.resolve store config r = .ok resolution) :
    ∃ name declaration, Naming.enumName store schema.literals = .ok name ∧
      schema.declaration store name = .ok declaration ∧
      resolution.text = qualify config.enumsNamespace name ∧
      r.Takes name declaration resolution.registry := by
  obtain ⟨name, declaration, hname, hdeclaration, htext, hinsert⟩ := enum_resolve_inserts h
  exact ⟨name, declaration, hname, hdeclaration, htext,
    ((Registry.insert_eq_ok hstrict).1 hinsert).2⟩

/-- A leaf that is no enum leaves the registry alone. -/
theorem leaf_resolve_registry {leaf : Leaf} (hplain : ∀ schema, leaf ≠ .enumeration schema)
    (h : leaf.resolve store config mode r = .ok resolution) : resolution.registry = r := by
  cases leaf with
  | enumeration schema => exact absurd rfl (hplain schema)
  | untypedArray =>
      rw [Leaf.resolve] at h
      split at h
      · cases h
      · cases h
        rfl
  | primitive type format =>
      simp only [Leaf.resolve, bind_eq_ok, pure_eq_ok] at h
      obtain ⟨text, _, rfl⟩ := h
      rfl
  | absent => cases h; rfl
  | reference target => cases h; rfl
  | closedMap => cases h; rfl
  | object => cases h; rfl
  | untyped => cases h; rfl

end TypedClient
