import Mathlib.Data.List.Permutation
import TypedClient.Proofs.SchemasAlike

/-!
# Schemas within schemas

A schema may be the schema of a parameter, of the values of a map, or of the
items of an array. This file says that resolving it there is resolving it alone
and writing the layers around what comes out: nothing of a layer reaches the
schema within it, and nothing of the schema reaches out.

Two things a layer does take away. It uses up a level of the limit, so the
schema alone gets as many levels less, and an error that names a depth names one
that is as much less. And it is one mapping more in which the schema must not
lie. The second is why the schema has to be `TreeShaped`. A layer around a tree
is a tree again, and the chain of a tree never comes back to where it was
(`TreeShaped.not_repeats`), so of the two guards only the limit is left. From
one layer to all of them it is an induction over the list of layers.
-/

namespace TypedClient

open SchemaSite

/-! ## Trees -/

/-- A value whose parts, and theirs in turn, come to an end: it never contains
itself. -/
inductive TreeShaped (store : Store) : Value → Prop where
  | scalar (s : Scalar) : TreeShaped store (.scalar s)
  | sequence {id : Nat} (items : ∀ v ∈ store.items id, TreeShaped store v) :
      TreeShaped store (.sequence id)
  | mapping {id : Nat} (entries : ∀ entry ∈ store.entries id, TreeShaped store entry.2) :
      TreeShaped store (.mapping id)
  | typed {kind : TypedKind} {id : Nat} (items : ∀ v ∈ store.items id, TreeShaped store v) :
      TreeShaped store (.typed kind id)

variable {store : Store} {enterMaps : Bool}

theorem SchemaNode.of_below {node : SchemaNode} {layer : Layer} {w : Value}
    (h : node.below? store enterMaps = some (layer, w)) :
    node = .wrapped w ∨ node = .array w ∨ node = .map w := by
  cases node with
  | wrapped schema =>
      simp only [below?, Option.some.injEq, Prod.mk.injEq] at h
      simp [h.2]
  | array items | map values =>
      simp only [below?, Option.ite_none_right_eq_some, Option.some.injEq, Prod.mk.injEq] at h
      simp [h.2.2]
  | _ => simp [below?] at h

/-- The keys under which a schema has another one. -/
def nestingKeys : List String := ["schema", "items", "additionalProperties"]

/-- What lies below a value is under one of its keys. -/
theorem below?_get {v w : Value} {layer : Layer}
    (h : below? store enterMaps (.value v) = some (layer, w)) :
    ∃ id, ∃ key ∈ nestingKeys, v = .mapping id ∧ store.get id key = w := by
  obtain ⟨id, -, rfl⟩ := mapping_of_below h
  have hnode := SchemaNode.of_below h
  simp only [SchemaNode.classify, SchemaNode.classifyEntries] at hnode
  split at hnode
  · simp only [SchemaNode.classifyPlain] at hnode
    split at hnode
    · simp at hnode
    · split at hnode
      · simp only [SchemaNode.wrapped.injEq, reduceCtorEq, or_false] at hnode
        exact ⟨id, "schema", by decide, rfl, hnode⟩
      · split at hnode
        · simp at hnode
        · simp only [SchemaNode.array.injEq, reduceCtorEq, or_false, false_or] at hnode
          exact ⟨id, "items", by decide, rfl, hnode⟩
        · split at hnode
          · simp at hnode
          · simp only [SchemaNode.map.injEq, reduceCtorEq, false_or] at hnode
            exact ⟨id, "additionalProperties", by decide, rfl, hnode⟩
        · simp at hnode
  · simp at hnode

/-- What holds of all entries of a mapping, and of null, holds of what is found
under a key. -/
theorem forall_get {p : Value → Prop} {id : Nat} (hnull : p .null)
    (h : ∀ entry ∈ store.entries id, p entry.2) (key : String) : p (store.get id key) := by
  rw [Store.get, Entries.get]
  cases hvalue : (store.entries id).value? key with
  | none => exact hnull
  | some v =>
      obtain ⟨entry, hfind, rfl⟩ := Option.map_eq_some_iff.1 hvalue
      exact h entry (List.mem_of_find?_eq_some hfind)

/-- A chain that comes back to a value comes back to what lies below the value. -/
theorem Returns.below {v : Value} (h : Returns store enterMaps (.value v)) :
    ∃ layer w, below? store enterMaps (.value v) = some (layer, w) ∧
      Returns store enterMaps (.value w) := by
  obtain ⟨n, hn⟩ := h
  cases hbelow : below? store enterMaps (.value v) with
  | none => simp [chain_of_end hbelow] at hn
  | some below =>
      obtain ⟨layer, w⟩ := below
      refine ⟨layer, w, rfl, n, ?_⟩
      rw [chain_of_below hbelow] at hn
      rw [chain_add, hn, Option.bind_some, chain_of_below hbelow]
      rfl

namespace TreeShaped

theorem of_below {v w : Value} {layer : Layer} (h : TreeShaped store v)
    (hbelow : below? store enterMaps (.value v) = some (layer, w)) : TreeShaped store w := by
  obtain ⟨id, key, -, rfl, rfl⟩ := below?_get hbelow
  cases h with
  | mapping entries => exact forall_get (.scalar .null) entries key

theorem of_chain {v w : Value} {i : Nat} (h : TreeShaped store v)
    (hchain : chain store enterMaps (.value v) i = some (.value w)) : TreeShaped store w := by
  induction i generalizing v with
  | zero =>
      simp only [chain, Option.some.injEq, SchemaSite.value.injEq] at hchain
      rwa [← hchain]
  | succ i ih =>
      rw [chain_succ] at hchain
      obtain ⟨⟨layer, u⟩, hbelow, hrest⟩ := Option.bind_eq_some_iff.1 hchain
      exact ih (h.of_below hbelow) hrest

/-- The induction is on the tree: a chain that comes back to a value comes back
to what lies below the value, too. -/
theorem not_returns {v : Value} (h : TreeShaped store v) :
    ¬ Returns store enterMaps (.value v) := by
  induction h with
  | scalar s | sequence items | typed items =>
      intro hreturns
      obtain ⟨id, hid⟩ := hreturns.mapping
      cases hid
  | @mapping id entries ih =>
      intro hreturns
      obtain ⟨layer, w, hbelow, hback⟩ := hreturns.below
      have hnull : ¬ Returns store enterMaps (.value .null) := by
        intro hnull
        obtain ⟨id, hid⟩ := hnull.mapping
        cases hid
      obtain ⟨id', key, -, hid, rfl⟩ := below?_get hbelow
      cases hid
      exact forall_get (p := fun w => ¬ Returns store enterMaps (.value w)) hnull ih key hback

theorem not_repeats {v : Value} (h : TreeShaped store v) (i : Nat) :
    ¬ Repeats store enterMaps (.value v) i := by
  intro hrepeats
  obtain ⟨id, hid, j, hj, hsame⟩ := hrepeats
  have hnever : ¬ Returns store enterMaps (.value (.mapping id)) := (h.of_chain hsame).not_returns
  refine hnever ⟨i - j - 1, ?_⟩
  rw [show i - j - 1 + 1 = i - j by omega, ← hid, ← Nat.add_sub_cancel' (Nat.le_of_lt hj),
    chain_add, hsame, Option.bind_some, Nat.add_sub_cancel_left]

/-- Of the two guards a tree meets only the limit. -/
theorem barred_iff {v : Value} (h : TreeShaped store v) {maxDepth : Int} {i : Nat} :
    Barred store enterMaps maxDepth (.value v) i ↔
      maxDepth < i ∧ (chain store enterMaps (.value v) i).isSome :=
  or_iff_left (h.not_repeats i)

end TreeShaped

/-! ## Layers -/

/-- A mapping that is one layer around a value, and nothing else. -/
inductive Encloses (store : Store) : Layer → Value → Value → Prop where
  | wrapper {id : Nat} {inner : Value} (entries : store.entries id = [(.text "schema", inner)])
      (given : inner ≠ .null) : Encloses store .wrapper (.mapping id) inner
  | map {id : Nat} {inner : Value}
      (entries : (store.entries id).Perm
        [(.text "type", .text "object"), (.text "additionalProperties", inner)])
      (given : inner ≠ .null) (allowed : inner ≠ .bool false) :
      Encloses store .map (.mapping id) inner
  | array {id : Nat} {inner : Value}
      (entries : (store.entries id).Perm [(.text "type", .text "array"), (.text "items", inner)])
      (typed : SchemaNode.areItemsTyped store inner = true) :
      Encloses store .array (.mapping id) inner

/-- A value with layers around it, from the outside in. -/
inductive Layered (store : Store) : List Layer → Value → Value → Prop where
  | here (v : Value) : Layered store [] v v
  | around {layer : Layer} {layers : List Layer} {outer middle inner : Value}
      (first : Encloses store layer outer middle) (rest : Layered store layers middle inner) :
      Layered store (layer :: layers) outer inner

theorem Encloses.treeShaped {layer : Layer} {outer inner : Value}
    (h : Encloses store layer outer inner) (htree : TreeShaped store inner) :
    TreeShaped store outer := by
  cases h with
  | wrapper entries _ =>
      refine .mapping fun entry hentry => ?_
      simp only [entries, List.mem_singleton] at hentry
      rw [hentry]
      exact htree
  | map entries _ _ | array entries _ =>
      refine .mapping fun entry hentry => ?_
      simp only [entries.mem_iff, List.mem_cons, List.not_mem_nil, or_false] at hentry
      rcases hentry with rfl | rfl
      · exact .scalar _
      · exact htree

theorem Layered.treeShaped {layers : List Layer} {outer inner : Value}
    (h : Layered store layers outer inner) (htree : TreeShaped store inner) :
    TreeShaped store outer := by
  induction h with
  | here v => exact htree
  | around first _ ih => exact first.treeShaped (ih htree)

/-- A layer is what the descent takes it for. -/
theorem Encloses.below {layer : Layer} {outer inner : Value}
    (h : Encloses store layer outer inner) :
    below? store true (.value outer) = some (layer, inner) := by
  cases h with
  | @wrapper id _ entries given =>
      have hnode : SchemaNode.classify store (.mapping id) = .wrapped inner := by
        have hgiven : inner.isNull = false := by simpa [Value.isNull] using given
        rw [SchemaNode.classify, entries]
        change (if (!inner.isNull) = true then SchemaNode.wrapped inner else _) = _
        rw [hgiven]
        rfl
      rw [below?, hnode]
      rfl
  | @map id _ entries given allowed =>
      have hnode : SchemaNode.classify store (.mapping id) = .map inner := by
        have hgiven : (inner == .null || inner == .bool false) = false := by
          simp [given, allowed]
        rcases List.perm_pair.1 entries with entries | entries
        all_goals
          rw [SchemaNode.classify, entries]
          change (if (inner == .null || inner == .bool false) = true then _
            else SchemaNode.map inner) = _
          rw [hgiven]
          rfl
      rw [below?, hnode]
      rfl
  | @array id _ entries typed =>
      have hnode : SchemaNode.classify store (.mapping id) = .array inner := by
        rcases List.perm_pair.1 entries with entries | entries
        all_goals
          rw [SchemaNode.classify, entries]
          rfl
      rw [below?, hnode, SchemaNode.below?, if_pos typed]

/-! ## One layer -/

/-- An error as it is reported some layers further out. -/
def SchemaError.deepened (layers : Nat) : SchemaError → SchemaError
  | .cyclic depth source => .cyclic (depth + layers) source
  | e => e

/-- A failure as it is reported some layers further out. -/
def Failure.deepened (layers : Nat) : Failure → Failure
  | .schema e => .schema (e.deepened layers)
  | f => f

/-- A layer around a tree takes away one level, and nothing else changes. -/
theorem descendSite_enclosed {layer : Layer} {outer inner : Value}
    (h : Encloses store layer outer inner) (htree : TreeShaped store inner) (m : Nat) :
    descendSite store true (m + 2) (.value outer) =
      match descendSite store true (m + 1) (.value inner) with
      | .error e => .error (e.deepened 1)
      | .ok d => .ok (d.below layer) := by
  have hbelow := h.below
  have houter := h.treeShaped htree
  have htop : ¬ Barred store true (m + 1 : Nat) (.value outer) 0 := by
    rw [houter.barred_iff]
    omega
  have hsucc : ∀ i, Barred store true (m + 1 : Nat) (.value outer) (i + 1) ↔
      Barred store true m (.value inner) i := by
    intro i
    rw [houter.barred_iff, htree.barred_iff, chain_of_below hbelow]
    exact and_congr_left fun _ => by omega
  have hspec := descendSite_spec store true m (.value inner)
  have hspec' := descendSite_spec store true (m + 1 : Nat) (.value outer)
  rw [show ((m : Int) + 1).toNat = m + 1 by omega] at hspec
  rw [show (((m + 1 : Nat) : Int) + 1).toNat = m + 2 by omega] at hspec'
  cases hinner : descendSite store true (m + 1) (.value inner) with
  | error e =>
      rw [hinner] at hspec
      obtain ⟨i, hleast, rfl⟩ := hspec
      have hleast' := isLeast_succ htop hsucc hleast
      rw [← show (((m + 1 : Nat) : Int) + 1).toNat = m + 2 by omega,
        descendSite_of_isLeast hleast']
      rfl
  | ok d =>
      rw [hinner] at hspec
      have hfree := never_succ htop hsucc hspec.1
      cases houter : descendSite store true (m + 2) (.value outer) with
      | error e =>
          rw [houter] at hspec'
          obtain ⟨i, hleast, -⟩ := hspec'
          exact absurd hleast.1 (hfree i)
      | ok d' =>
          rw [houter] at hspec'
          rw [hspec'.2.unique (hspec.2.below hbelow)]

/-! ## All layers -/

theorem leaf_resolve_maxDepth {config : ResolverConfig} {mode : ResolutionMode} {r : Registry}
    (leaf : Leaf) (m n : Int) :
    leaf.resolve store { config with maxDepth := m } mode r =
      leaf.resolve store { config with maxDepth := n } mode r := by
  cases leaf <;> rfl

/-- A leaf is refused at whatever depth it lies. -/
theorem leaf_resolve_deepened {config : ResolverConfig} {mode : ResolutionMode} {r : Registry}
    {leaf : Leaf} {f : Failure} (h : leaf.resolve store config mode r = .error f) (n : Nat) :
    f.deepened n = f := by
  cases f with
  | schema e =>
      rcases leaf_resolve_refusal h with ⟨_, rfl⟩ | ⟨_, _, _, rfl⟩ <;> rfl
  | option e => rfl
  | malformed fault => rfl

/-- What a schema within layers is resolved to, in terms of what it is resolved
to alone. -/
def surrounded (layers : List Layer) : Except Failure Resolution → Except Failure Resolution
  | .error f => .error (f.deepened layers.length)
  | .ok alone => .ok { alone with text := Layer.aroundAll layers alone.text }

theorem resolve_enclosed {layer : Layer} {outer inner : Value} (config : ResolverConfig)
    (mode : ResolutionMode) (r : Registry) (h : Encloses store layer outer inner)
    (htree : TreeShaped store inner) (m : Nat) :
    resolve store { config with maxDepth := (m + 1 : Nat) } mode r (.value outer) =
      surrounded [layer] (resolve store { config with maxDepth := m } mode r (.value inner)) := by
  have hdescent := descendSite_enclosed h htree m
  have hbudget : ResolverConfig.budget { config with maxDepth := m } = m + 1 := by
    simp [ResolverConfig.budget]
  have hbudget' : ResolverConfig.budget { config with maxDepth := (m + 1 : Nat) } = m + 2 := by
    simp [ResolverConfig.budget]
    omega
  rw [← hbudget, ← hbudget'] at hdescent
  cases hinner : descendSite store true (ResolverConfig.budget { config with maxDepth := m })
      (.value inner) with
  | error e =>
      rw [hinner] at hdescent
      rw [resolve_of_error hinner, resolve_of_error hdescent]
      rfl
  | ok d =>
      rw [hinner] at hdescent
      rw [resolve_of_ok hinner, resolve_of_ok hdescent,
        leaf_resolve_maxDepth (d.below layer).leaf _ m]
      change (d.leaf.resolve _ _ _ _).map _ = _
      cases hleaf : d.leaf.resolve store { config with maxDepth := m } mode r with
      | error f =>
          change _ = Except.error (f.deepened 1)
          rw [leaf_resolve_deepened hleaf]
          rfl
      | ok written => rfl

theorem surrounded_nil (alone : Except Failure Resolution) : surrounded [] alone = alone := by
  cases alone with
  | ok alone => rfl
  | error f =>
      cases f with
      | schema e => cases e <;> simp [surrounded, Failure.deepened, SchemaError.deepened]
      | option e => rfl
      | malformed fault => rfl

theorem surrounded_cons (layer : Layer) (layers : List Layer)
    (alone : Except Failure Resolution) :
    surrounded (layer :: layers) alone = surrounded [layer] (surrounded layers alone) := by
  cases alone with
  | ok alone => rfl
  | error f =>
      cases f with
      | schema e =>
          cases e with
          | cyclic depth source =>
              simp only [surrounded, Failure.deepened, SchemaError.deepened, List.length_cons,
                List.length_nil]
              congr 3
              omega
          | _ => rfl
      | option e => rfl
      | malformed fault => rfl

/-- A schema within layers, resolved with a level more for each, is what the
schema alone is resolved to with the layers written around it. The registry is
the same afterwards. If the schema alone fails, the schema within the layers
fails for the same reason, and a depth that is named is as many levels more as
there are layers. -/
theorem resolve_layered {layers : List Layer} {outer inner : Value}
    (htree : TreeShaped store inner) (hlayers : Layered store layers outer inner)
    (config : ResolverConfig) (mode : ResolutionMode) (r : Registry) (m : Nat) :
    match resolve store { config with maxDepth := m } mode r (.value inner) with
    | .error f =>
      resolve store { config with maxDepth := (layers.length + m : Nat) } mode r (.value outer) =
        .error (f.deepened layers.length)
    | .ok alone =>
      resolve store { config with maxDepth := (layers.length + m : Nat) } mode r (.value outer) =
        .ok ⟨Layer.aroundAll layers alone.text, alone.registry, alone.collision⟩ := by
  suffices hall :
      resolve store { config with maxDepth := (layers.length + m : Nat) } mode r (.value outer) =
        surrounded layers
          (resolve store { config with maxDepth := m } mode r (.value inner)) by
    rw [hall]
    cases resolve store { config with maxDepth := m } mode r (.value inner) <;> rfl
  induction hlayers with
  | here v =>
      rw [surrounded_nil, List.length_nil, Nat.zero_add]
  | @around layer layers outer middle inner first rest ih =>
      rw [surrounded_cons, ← ih htree, ← resolve_enclosed config mode r first
        (rest.treeShaped htree), List.length_cons, Nat.add_right_comm]

/-- The parts of a document in which a reference lies within an array, the array
within a map, and the map within a wrapper. -/
def petShelf : Store where
  mappings := #[
    [(.text "$ref", .text "#/definitions/Pet")],
    [(.text "type", .text "array"), (.text "items", .mapping 0)],
    [(.text "additionalProperties", .mapping 1), (.text "type", .text "object")],
    [(.text "schema", .mapping 2)]]

/-- The reference alone needs no level below it, and within three layers three. -/
theorem resolve_layered_of_pets :
    TreeShaped petShelf (.mapping 0) ∧
      Layered petShelf [.wrapper, .map, .array] (.mapping 3) (.mapping 0) ∧
      resolve petShelf { maxDepth := 3 } .default {} (.value (.mapping 3)) =
        .ok ⟨"\x7b[key: string]: api.Pet[]\x7d", {}, none⟩ := by
  have htree : TreeShaped petShelf (.mapping 0) := by
    refine .mapping fun entry hentry => ?_
    obtain rfl := List.mem_singleton.1 hentry
    exact .scalar _
  have hlayers : Layered petShelf [.wrapper, .map, .array] (.mapping 3) (.mapping 0) :=
    .around (.wrapper rfl (by decide))
      (.around (.map (List.Perm.swap _ _ _) (by decide) (by decide))
        (.around (.array (.refl _) (by decide)) (.here _)))
  have halone : resolve petShelf { maxDepth := (0 : Nat) } .default {} (.value (.mapping 0)) =
      .ok ⟨"api.Pet", {}, none⟩ := by
    decide +kernel
  have hnested := resolve_layered htree hlayers {} .default {} 0
  rw [halone] at hnested
  exact ⟨htree, hlayers, hnested⟩

end TypedClient
