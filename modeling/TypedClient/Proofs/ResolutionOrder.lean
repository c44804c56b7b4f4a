import TypedClient.Proofs.ClientRuns
import TypedClient.Proofs.EnumRegistry

/-!
# The order of resolutions

Resolving one schema after the other against one strict registry may fail
halfway, because two enums derive one name, and then it depends on the order
which of them is refused. Success does not depend on the order. A schema has a
type and calls for at most one declaration whatever the registry holds
(`demand`), and a registry takes declarations as long as no name gets two
(`Holds`). So a list of schemas succeeds if and only if each of them has a type
and their declarations agree, which is said without an order, and the registry
afterwards holds these declarations.
-/

namespace TypedClient

/-! ## What a registry holds -/

namespace Registry

variable {r r' : Registry} {seen more : List (String × String)} {name declaration : String}

/-- No name has two declarations. -/
def Consistent (declared : List (String × String)) : Prop :=
  ∀ name first second, (name, first) ∈ declared → (name, second) ∈ declared → first = second

theorem Consistent.mono (h : Consistent more) (hsub : seen ⊆ more) : Consistent seen :=
  fun name _ _ hfirst hsecond => h name _ _ (hsub hfirst) (hsub hsecond)

/-- A strict registry after these declarations, which it took one after the other. -/
structure Holds (r : Registry) (declared : List (String × String)) : Prop where
  strict : r.strict = true
  entries : r.entries = declared.eraseDups
  consistent : Consistent declared

namespace Holds

theorem empty : Holds {} [] :=
  ⟨rfl, rfl, fun _ _ _ hmem => absurd hmem List.not_mem_nil⟩

theorem of_consistent (h : Consistent seen) : Holds ⟨true, seen.eraseDups⟩ seen := ⟨rfl, rfl, h⟩

/-- There is one such registry. -/
theorem unique (h : r.Holds seen) (h' : r'.Holds seen) : r = r' := by
  cases r
  cases r'
  rw [Registry.mk.injEq]
  exact ⟨h.strict.trans h'.strict.symm, h.entries.trans h'.entries.symm⟩

theorem mem_entries (h : r.Holds seen) {entry : String × String} :
    entry ∈ r.entries ↔ entry ∈ seen := by
  rw [h.entries, List.mem_eraseDups]

theorem lookup_eq_some (h : r.Holds seen) :
    r.lookup name = some declaration ↔ (name, declaration) ∈ seen := by
  constructor
  · intro hlookup
    exact h.mem_entries.1 (mem_of_lookup hlookup)
  · intro hmem
    cases hlookup : r.lookup name with
    | none =>
        exact absurd (List.mem_map_of_mem (f := (·.1)) (h.mem_entries.2 hmem))
          (lookup_eq_none.1 hlookup)
    | some existing =>
        have hexisting : (name, existing) ∈ seen := h.mem_entries.1 (mem_of_lookup hlookup)
        rw [h.consistent name existing declaration hexisting hmem]

theorem lookup_eq_none (h : r.Holds seen) :
    r.lookup name = none ↔ ∀ declaration, (name, declaration) ∉ seen := by
  rw [Option.eq_none_iff_forall_ne_some]
  exact forall_congr' fun declaration => not_congr h.lookup_eq_some

theorem names_nodup (h : r.Holds seen) : r.names.Nodup := by
  have hnodup : r.entries.Nodup := h.entries ▸ nodup_eraseDups seen
  refine hnodup.map_on fun first hfirst second hsecond hname => Prod.ext hname ?_
  have hmem : (first.1, second.2) ∈ seen := hname ▸ h.mem_entries.1 hsecond
  exact h.consistent first.1 first.2 second.2 (h.mem_entries.1 hfirst) hmem

/-- Taking one more declaration is holding it too. -/
theorem takes_iff (h : r.Holds seen) :
    r.Takes name declaration r' ↔ r'.Holds (seen ++ [(name, declaration)]) := by
  constructor
  · intro htakes
    refine ⟨htakes.strict.trans h.strict, ?_, ?_⟩
    · rw [eraseDups_concat, ← h.entries]
      rcases htakes with ⟨hnew, rfl⟩ | ⟨hold, rfl⟩
      · rw [if_neg (h.lookup_eq_none.1 hnew declaration), append]
      · rw [if_pos (h.lookup_eq_some.1 hold)]
    · -- What was declared before is looked up in the registry that took the declaration.
      have hheld : ∀ other existing, (other, existing) ∈ seen ++ [(name, declaration)] →
          r'.lookup other = some existing := by
        intro other existing hmem
        rcases List.mem_append.1 hmem with hseen | hlast
        · exact htakes.lookup_mono (h.lookup_eq_some.2 hseen)
        · cases List.mem_singleton.1 hlast
          exact htakes.lookup_self
      intro other first second hfirst hsecond
      exact Option.some.inj ((hheld other first hfirst).symm.trans (hheld other second hsecond))
  · intro h'
    have hlast : (name, declaration) ∈ seen ++ [(name, declaration)] :=
      List.mem_append_right _ (List.mem_singleton_self _)
    by_cases hmem : (name, declaration) ∈ seen
    · refine .inr ⟨h.lookup_eq_some.2 hmem, ?_⟩
      cases r
      cases r'
      rw [Registry.mk.injEq]
      refine ⟨h'.strict.trans h.strict.symm, h'.entries.trans ?_⟩
      rw [eraseDups_concat, if_pos hmem]
      exact h.entries.symm
    · refine .inl ⟨h.lookup_eq_none.2 fun existing hexisting => hmem ?_, ?_⟩
      · rw [← h'.consistent name existing declaration (List.mem_append_left _ hexisting) hlast]
        exact hexisting
      · cases r
        cases r'
        rw [append, Registry.mk.injEq]
        refine ⟨h'.strict.trans h.strict.symm, h'.entries.trans ?_⟩
        rw [eraseDups_concat, if_neg hmem]
        exact congrArg (· ++ [(name, declaration)]) h.entries.symm

/-- The same declarations in another order are held by a registry with the same entries. -/
theorem perm (h : r.Holds seen) (horder : seen.Perm more) :
    ∃ r', Holds r' more ∧ r.entries.Perm r'.entries ∧
      ∀ name, r'.lookup name = r.lookup name := by
  have h' : Holds ⟨true, more.eraseDups⟩ more :=
    of_consistent (h.consistent.mono horder.symm.subset)
  refine ⟨_, h', ?_, fun name => ?_⟩
  · rw [h.entries, List.perm_ext_iff_of_nodup (nodup_eraseDups _) (nodup_eraseDups _)]
    intro entry
    rw [List.mem_eraseDups, List.mem_eraseDups, horder.mem_iff]
  · refine Option.ext fun declaration => ?_
    rw [h'.lookup_eq_some, h.lookup_eq_some, horder.mem_iff]

end Holds

end Registry

/-! ## One schema -/

variable {store : Store} {config : ResolverConfig} {r r' : Registry} {text : String}
  {declared : List (String × String)}

/-- The type of a request, with the declarations that it calls for: none, or that of an enum. -/
def demand (store : Store) (config : ResolverConfig) (q : Request) :
    Except Failure (String × List (String × String)) :=
  (resolve store config q.mode {} q.site).map fun alone => (alone.text, alone.registry.entries)

/-- Of a strict registry that an enum is resolved against, only the look-up of its name matters. -/
theorem enum_resolve_iff {schema : EnumSchema} {collision : Option EnumCollision}
    (hstrict : r.strict = true) :
    schema.resolve store config r = .ok ⟨text, r', collision⟩ ↔
      collision = none ∧ ∃ name declaration, Naming.enumName store schema.literals = .ok name ∧
        schema.declaration store name = .ok declaration ∧
        text = qualify config.enumsNamespace name ∧ r.Takes name declaration r' := by
  constructor
  · intro h
    obtain ⟨name, declaration, hname, hdeclaration, htext, hinsert⟩ := enum_resolve_inserts h
    obtain ⟨hnone, htakes⟩ := (Registry.insert_eq_ok hstrict).1 hinsert
    exact ⟨hnone, name, declaration, hname, hdeclaration, htext, htakes⟩
  · intro h
    obtain ⟨rfl, name, declaration, hname, hdeclaration, rfl, htakes⟩ := h
    have hinsert : r.insert name declaration = .ok (r', none) :=
      (Registry.insert_eq_ok hstrict).2 ⟨rfl, htakes⟩
    simp only [EnumSchema.resolve, bind_eq_ok, ofFault_eq_ok]
    refine ⟨name, hname, declaration, hdeclaration, ?_⟩
    rw [hinsert]
    rfl

/-- A leaf that is no enum has one type for all registries. -/
theorem leaf_resolve_plain {mode : ResolutionMode} {leaf : Leaf} (r : Registry)
    (hplain : ∀ schema, leaf ≠ .enumeration schema) :
    leaf.resolve store config mode r =
      (leaf.resolve store config mode {}).map fun alone => { alone with registry := r } := by
  cases leaf with
  | enumeration schema => exact absurd rfl (hplain schema)
  | untypedArray =>
      rw [Leaf.resolve, Leaf.resolve]
      split <;> rfl
  | primitive type format =>
      rw [Leaf.resolve, Leaf.resolve]
      cases Failure.ofFault (primitiveType type format) <;> rfl
  | absent => rfl
  | reference target => rfl
  | closedMap => rfl
  | object => rfl
  | untyped => rfl

theorem demand_eq_ok {q : Request} :
    demand store config q = .ok (text, declared) ↔
      ∃ alone, resolve store config q.mode {} q.site = .ok alone ∧ alone.text = text ∧
        alone.registry.entries = declared := by
  rw [demand, map_eq_ok]
  simp only [Prod.mk.injEq]

theorem enum_iff_alone {schema : EnumSchema} {seen : List (String × String)} (h : r.Holds seen) :
    (∃ collision, schema.resolve store config r = .ok ⟨text, r', collision⟩) ↔
      ∃ alone, schema.resolve store config {} = .ok alone ∧ alone.text = text ∧
        r'.Holds (seen ++ alone.registry.entries) := by
  constructor
  · rintro ⟨collision, hthere⟩
    obtain ⟨-, name, declaration, hname, hdeclaration, htext, htakes⟩ :=
      (enum_resolve_iff h.strict).1 hthere
    have halone : schema.resolve store config {} = .ok ⟨text, ⟨true, [(name, declaration)]⟩, none⟩ :=
      (enum_resolve_iff rfl).2
        ⟨rfl, name, declaration, hname, hdeclaration, htext, .inl ⟨rfl, rfl⟩⟩
    exact ⟨_, halone, rfl, h.takes_iff.1 htakes⟩
  · rintro ⟨⟨_, after, _⟩, halone, rfl, hholds⟩
    obtain ⟨-, name, declaration, hname, hdeclaration, htext, htakes⟩ :=
      (enum_resolve_iff rfl).1 halone
    have hnew : after = ⟨true, [(name, declaration)]⟩ := by
      rcases htakes with ⟨-, hafter⟩ | ⟨hold, -⟩
      · exact hafter
      · cases hold
    subst hnew
    exact ⟨none, (enum_resolve_iff h.strict).2
      ⟨rfl, name, declaration, hname, hdeclaration, htext, h.takes_iff.2 hholds⟩⟩

/-- The step: against a registry, a leaf has the type that it has alone, and the registry afterwards
holds what the leaf calls for, too. -/
theorem leaf_iff_alone {mode : ResolutionMode} {leaf : Leaf} {seen : List (String × String)}
    (h : r.Holds seen) :
    (∃ collision, leaf.resolve store config mode r = .ok ⟨text, r', collision⟩) ↔
      ∃ alone, leaf.resolve store config mode {} = .ok alone ∧ alone.text = text ∧
        r'.Holds (seen ++ alone.registry.entries) := by
  by_cases henum : ∃ schema, leaf = .enumeration schema
  · obtain ⟨schema, rfl⟩ := henum
    exact enum_iff_alone h
  · have hplain : ∀ schema, leaf ≠ .enumeration schema := fun schema hschema =>
      henum ⟨schema, hschema⟩
    rw [leaf_resolve_plain r hplain]
    constructor
    · rintro ⟨collision, hthere⟩
      obtain ⟨alone, halone, hsame⟩ := map_eq_ok.1 hthere
      obtain ⟨rfl, rfl, rfl⟩ := Resolution.mk.inj hsame
      refine ⟨alone, halone, rfl, ?_⟩
      rw [leaf_resolve_registry hplain halone]
      rwa [List.append_nil]
    · rintro ⟨alone, halone, rfl, hholds⟩
      rw [leaf_resolve_registry hplain halone, List.append_nil] at hholds
      rw [halone, hholds.unique h]
      exact ⟨alone.collision, rfl⟩

/-- What holds of leaves holds of requests, whose types have the layers of one descent around
them. -/
theorem resolve_iff_demand {q : Request} {seen : List (String × String)} (h : r.Holds seen) :
    (∃ collision, resolve store config q.mode r q.site = .ok ⟨text, r', collision⟩) ↔
      ∃ declared, demand store config q = .ok (text, declared) ∧ r'.Holds (seen ++ declared) := by
  simp only [demand_eq_ok]
  cases hdescent : descendSite store true config.budget q.site with
  | error e =>
      have hfails : ∀ r, resolve store config q.mode r q.site = .error (.schema e) :=
        fun r => resolve_of_error hdescent
      simp [hfails]
  | ok d =>
      simp only [resolve_of_ok hdescent, map_eq_ok]
      constructor
      · rintro ⟨collision, written, hwritten, hsame⟩
        obtain ⟨rfl, rfl, rfl⟩ := Resolution.mk.inj hsame
        obtain ⟨alone, halone, htext, hholds⟩ := (leaf_iff_alone h).1 ⟨written.collision, hwritten⟩
        exact ⟨_, ⟨_, ⟨alone, halone, rfl⟩, congrArg (Layer.aroundAll d.layers) htext, rfl⟩, hholds⟩
      · rintro ⟨_, ⟨_, ⟨alone, halone, rfl⟩, rfl, rfl⟩, hholds⟩
        obtain ⟨collision, hwritten⟩ := (leaf_iff_alone h).2 ⟨alone, halone, rfl, hholds⟩
        exact ⟨collision, _, hwritten, rfl⟩

/-! ## Schemas in order -/

/-- Requests resolved one after the other: their types, and the registry after the last one. -/
def resolveAll (store : Store) (config : ResolverConfig) (r : Registry) :
    List Request → Except Failure (List String × Registry)
  | [] => .ok ([], r)
  | q :: rest => do
    let first ← resolve store config q.mode r q.site
    let (texts, after) ← resolveAll store config first.registry rest
    return (first.text :: texts, after)

/-- The type that a request has alone, if it has one. -/
def typeAlone (store : Store) (config : ResolverConfig) (q : Request) : String :=
  ((demand store config q).toOption.map (·.1)).getD ""

/-- The declarations that a request calls for, if it has a type. -/
def declaredAlone (store : Store) (config : ResolverConfig) (q : Request) :
    List (String × String) :=
  ((demand store config q).toOption.map (·.2)).getD []

theorem alone_of_demand {q : Request} (h : demand store config q = .ok (text, declared)) :
    typeAlone store config q = text ∧ declaredAlone store config q = declared := by
  rw [typeAlone, declaredAlone, h]
  exact ⟨rfl, rfl⟩

theorem resolveAll_cons {q : Request} {rest : List Request} {texts : List String} :
    resolveAll store config r (q :: rest) = .ok (texts, r') ↔
      ∃ first m others, (∃ collision,
        resolve store config q.mode r q.site = .ok ⟨first, m, collision⟩) ∧
        resolveAll store config m rest = .ok (others, r') ∧ texts = first :: others := by
  simp only [resolveAll, bind_eq_ok, pure_eq_ok, Prod.mk.injEq]
  constructor
  · rintro ⟨⟨first, m, collision⟩, hfirst, ⟨others, after⟩, hrest, rfl, rfl⟩
    exact ⟨first, m, others, ⟨collision, hfirst⟩, hrest, rfl⟩
  · rintro ⟨first, m, others, ⟨collision, hfirst⟩, hrest, rfl⟩
    exact ⟨_, hfirst, _, hrest, rfl, rfl⟩

/-- The run: requests succeed in order if and only if each has a type and the registry afterwards
holds all that they call for. -/
theorem resolveAll_iff {requests : List Request} {texts : List String}
    {seen : List (String × String)} (h : r.Holds seen) :
    resolveAll store config r requests = .ok (texts, r') ↔
      (∀ q ∈ requests, ∃ alone, demand store config q = .ok alone) ∧
        texts = requests.map (typeAlone store config) ∧
        r'.Holds (seen ++ requests.flatMap (declaredAlone store config)) := by
  induction requests generalizing r seen texts with
  | nil =>
      rw [List.map_nil, List.flatMap_nil, List.append_nil, resolveAll, Except.ok.injEq,
        Prod.mk.injEq]
      constructor
      · rintro ⟨rfl, rfl⟩
        exact ⟨fun _ hq => absurd hq List.not_mem_nil, rfl, h⟩
      · rintro ⟨-, rfl, h'⟩
        exact ⟨rfl, h.unique h'⟩
  | cons q rest ih =>
      rw [resolveAll_cons, List.forall_mem_cons, List.map_cons, List.flatMap_cons,
        ← List.append_assoc]
      constructor
      · rintro ⟨first, m, others, hfirst, hrest, rfl⟩
        obtain ⟨declared, hdemand, hm⟩ := (resolve_iff_demand h).1 hfirst
        obtain ⟨rfl, rfl⟩ := alone_of_demand hdemand
        obtain ⟨hall, rfl, hafter⟩ := (ih hm).1 hrest
        exact ⟨⟨⟨_, hdemand⟩, hall⟩, rfl, hafter⟩
      · rintro ⟨⟨⟨⟨first, declared⟩, hdemand⟩, hall⟩, rfl, hafter⟩
        obtain ⟨rfl, rfl⟩ := alone_of_demand hdemand
        -- The registry between is the one that holds what was called for up to here.
        have hm := Registry.Holds.of_consistent
          (hafter.consistent.mono (List.subset_append_left _ _))
        exact ⟨_, _, _, (resolve_iff_demand h).2 ⟨_, hdemand, hm⟩,
          (ih hm).2 ⟨hall, rfl, hafter⟩, rfl⟩

/-- Requests that succeed one after the other against an empty registry succeed in any other order.
Each has the same type then, which is the one that it has alone, and the registries have the same
declarations under the same names. -/
theorem resolution_order_irrelevant {requests requests' : List Request} {texts : List String}
    {after : Registry} (horder : requests.Perm requests')
    (hrun : resolveAll store config {} requests = .ok (texts, after)) :
    ∃ (type : Request → String) (after' : Registry),
      texts = requests.map type ∧
      resolveAll store config {} requests' = .ok (requests'.map type, after') ∧
      (∀ q ∈ requests, ∃ alone,
        resolve store config q.mode {} q.site = .ok alone ∧ alone.text = type q) ∧
      after.names.Nodup ∧ after.entries.Perm after'.entries ∧
      ∀ name, after'.lookup name = after.lookup name := by
  obtain ⟨hall, rfl, hafter⟩ := (resolveAll_iff .empty).1 hrun
  have hcalled : (requests.flatMap (declaredAlone store config)).Perm
      (requests'.flatMap (declaredAlone store config)) := horder.flatMap_right _
  obtain ⟨after', hafter', hentries, hlookup⟩ := hafter.perm hcalled
  have hall' : ∀ q ∈ requests', ∃ alone, demand store config q = .ok alone :=
    fun q hq => hall q (horder.mem_iff.2 hq)
  refine ⟨typeAlone store config, after', rfl, (resolveAll_iff .empty).2 ⟨hall', rfl, hafter'⟩,
    fun q hq => ?_, hafter.names_nodup, hentries, hlookup⟩
  obtain ⟨⟨text, declared⟩, hdemand⟩ := hall q hq
  obtain ⟨alone, halone, htext, -⟩ := demand_eq_ok.1 hdemand
  exact ⟨alone, halone, htext.trans (alone_of_demand hdemand).1.symm⟩

/-- The parts of a document with two enums, and an array of the first. -/
def signalStore : Store where
  sequences := #[[.text "on", .text "off"], [.text "red", .text "green"]]
  mappings := #[
    [(.text "type", .text "string"), (.text "enum", .sequence 0)],
    [(.text "type", .text "string"), (.text "enum", .sequence 1)],
    [(.text "type", .text "array"), (.text "items", .mapping 0)]]

/-- The array, and the two enums. -/
def signals : List Request :=
  [⟨.default, .value (.mapping 2)⟩, ⟨.default, .value (.mapping 1)⟩,
    ⟨.typesModule, .value (.mapping 0)⟩]

/-- Backwards, the first enum is declared last. -/
theorem resolution_order_irrelevant_of_signals :
    ∃ after after' : Registry,
      resolveAll signalStore {} {} signals =
        .ok (["enums.onoff[]", "enums.redgreen", "enums.onoff"], after) ∧
      resolveAll signalStore {} {} signals.reverse =
        .ok (["enums.onoff", "enums.redgreen", "enums.onoff[]"], after') ∧
      after.entries.Perm after'.entries := by
  have htypes : (resolveAll signalStore {} {} signals).map (·.1) =
      .ok ["enums.onoff[]", "enums.redgreen", "enums.onoff"] := by
    decide +kernel
  obtain ⟨⟨texts, after⟩, hrun, rfl⟩ := map_eq_ok.1 htypes
  obtain ⟨type, after', heach, hreverse, _, _, hperm, _⟩ :=
    resolution_order_irrelevant (List.reverse_perm signals).symm hrun
  rw [List.map_reverse, ← heach] at hreverse
  exact ⟨after, after', hrun, hreverse, hperm⟩

end TypedClient
