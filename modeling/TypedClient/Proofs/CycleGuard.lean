import Mathlib.Data.Fintype.Pigeonhole
import Mathlib.Order.Bounds.Basic
import TypedClient.Proofs.EnumRegistry

/-!
# The cycle guard, exactly

A schema is resolved by walking down from it, and the walk is guarded twice:
it may not go deeper than `maxDepth`, and it may not enter a mapping that it
is already inside. This file says what the two guards come to for every store
of documents, shared and cyclic parts included.

The walk has a description that knows neither guard, the `chain` of a site:
the site itself, then the value that it leads down to, and so on. An index of
the chain is `Barred` if it lies beyond the limit or holds a mapping that an
earlier index holds. The guard reports the least barred index, and if no index
is barred the chain ends and its last element alone decides what happens.

The proof is one induction over the levels that a descent has left. Below the
top the set of active mappings is no longer empty, so the induction is about
`BarredWithin`, where a mapping may be barred by one that the descent started
inside. Both renderings then follow from `Descent` by the same argument.
-/

namespace TypedClient

/-! ## Chains -/

/-- The layer that a node is left through, and the value below it. A map is
left only if maps are entered. -/
def SchemaNode.below? (store : Store) (enterMaps : Bool) :
    SchemaNode → Option (Layer × Value)
  | .wrapped schema => some (.wrapper, schema)
  | .array items => if areItemsTyped store items then some (.array, items) else none
  | .map values => if enterMaps then some (.map, values) else none
  | _ => none

namespace SchemaSite

/-- The layer that a site is left through, and the value below it. -/
def below? (store : Store) (enterMaps : Bool) : SchemaSite → Option (Layer × Value)
  | .value v => (SchemaNode.classify store v).below? store enterMaps
  | .content schema => if schema.isNull then none else some (.wrapper, schema)

/-- The chain of a site: the site, and at each further index the value that the
element before leads down to, as long as there is one. -/
def chain (store : Store) (enterMaps : Bool) (site : SchemaSite) : Nat → Option SchemaSite
  | 0 => some site
  | i + 1 =>
    ((chain store enterMaps site i).bind (below? store enterMaps)).map fun (_, v) => .value v

/-- The layers that the first elements of a chain are left through. -/
def layers (store : Store) (enterMaps : Bool) (site : SchemaSite) (n : Nat) : List Layer :=
  (List.range n).filterMap fun i =>
    ((chain store enterMaps site i).bind (below? store enterMaps)).map (·.1)

/-- Whether an index of a chain holds a mapping that an earlier index holds. -/
def Repeats (store : Store) (enterMaps : Bool) (site : SchemaSite) (i : Nat) : Prop :=
  ∃ id, chain store enterMaps site i = some (.value (.mapping id)) ∧
    ∃ j < i, chain store enterMaps site j = some (.value (.mapping id))

/-- Whether an index of a chain lies beyond a limit or repeats a mapping. -/
def Barred (store : Store) (enterMaps : Bool) (maxDepth : Int) (site : SchemaSite)
    (i : Nat) : Prop :=
  (maxDepth < i ∧ (chain store enterMaps site i).isSome) ∨ Repeats store enterMaps site i

variable {store : Store} {enterMaps : Bool}

theorem chain_succ (site : SchemaSite) (i : Nat) :
    chain store enterMaps site (i + 1) =
      (below? store enterMaps site).bind fun (_, v) =>
        chain store enterMaps (.value v) i := by
  induction i with
  | zero =>
      simp only [chain, Option.bind_some]
      cases below? store enterMaps site <;> rfl
  | succ n ih =>
      rw [chain, ih]
      cases below? store enterMaps site <;> rfl

theorem chain_of_below {site : SchemaSite} {layer : Layer} {v : Value}
    (h : below? store enterMaps site = some (layer, v)) (i : Nat) :
    chain store enterMaps site (i + 1) = chain store enterMaps (.value v) i := by
  rw [chain_succ, h]
  rfl

theorem chain_of_end {site : SchemaSite} (h : below? store enterMaps site = none) (i : Nat) :
    chain store enterMaps site (i + 1) = none := by
  rw [chain_succ, h]
  rfl

theorem layers_of_below {site : SchemaSite} {layer : Layer} {v : Value}
    (h : below? store enterMaps site = some (layer, v)) (n : Nat) :
    layers store enterMaps site (n + 1) =
      layer :: layers store enterMaps (.value v) n := by
  rw [layers, List.range_succ_eq_map, List.filterMap_cons_some (b := layer)]
  · rw [List.filterMap_map, layers]
    congr 1
    refine List.filterMap_congr fun i _ => ?_
    rw [Function.comp, chain_of_below h]
  · rw [chain, Option.bind_some, h]
    rfl

end SchemaSite

open SchemaSite

/-! ## The descent

`BarredWithin` is `Barred` as a descent sees it on its way: `budget` levels are
left, and the mappings in `active` lie above it. -/

def BarredWithin (store : Store) (enterMaps : Bool) (budget : Nat) (active : List Nat)
    (v : Value) (i : Nat) : Prop :=
  (budget ≤ i ∧ (chain store enterMaps (.value v) i).isSome) ∨
    ∃ id, chain store enterMaps (.value v) i = some (.value (.mapping id)) ∧
      (id ∈ active ∨ ∃ j < i, chain store enterMaps (.value v) j = some (.value (.mapping id)))

/-- A descent that ends: its layers are those of the chain, and the last element
of the chain gives its leaf even when it is resolved alone. -/
def Lands (store : Store) (enterMaps : Bool) (site : SchemaSite) (d : Descent) : Prop :=
  ∃ last, chain store enterMaps site d.layers.length = some last ∧
    below? store enterMaps last = none ∧
    d.layers = layers store enterMaps site d.layers.length ∧
    ∀ budget, descendSite store enterMaps (budget + 1) last = .ok ⟨[], d.leaf⟩

variable {store : Store} {enterMaps : Bool}

theorem below?_of_enter {node : SchemaNode} {layer : Layer} {v : Value}
    (h : node.step store enterMaps = .enter layer v) :
    node.below? store enterMaps = some (layer, v) := by
  cases node with
  | wrapped => simpa [SchemaNode.step, SchemaNode.below?] using h
  | array | map =>
      simp only [SchemaNode.step, SchemaNode.below?] at h ⊢
      split at h <;> simp_all
  | _ => simp [SchemaNode.step] at h

theorem below?_of_stop {node : SchemaNode} {leaf : Leaf}
    (h : node.step store enterMaps = .stop leaf) :
    node.below? store enterMaps = none := by
  cases node with
  | wrapped => simp [SchemaNode.step] at h
  | array | map =>
      simp only [SchemaNode.step, SchemaNode.below?] at h ⊢
      split at h <;> simp_all
  | _ => rfl

theorem descend_alone {v : Value} {leaf : Leaf}
    (h : (SchemaNode.classify store v).step store enterMaps = .stop leaf) (budget : Nat) :
    descendSite store enterMaps (budget + 1) (.value v) = .ok ⟨[], leaf⟩ := by
  have hfree : v.mapping?.any ([] : List Nat).contains = false := by
    cases v <;> rfl
  rw [descendSite, descend, hfree, h]
  rfl

theorem Lands.here {site : SchemaSite} {leaf : Leaf}
    (hend : below? store enterMaps site = none)
    (hleaf : ∀ budget, descendSite store enterMaps (budget + 1) site = .ok ⟨[], leaf⟩) :
    Lands store enterMaps site ⟨[], leaf⟩ :=
  ⟨site, rfl, hend, rfl, hleaf⟩

theorem Lands.below {site : SchemaSite} {layer : Layer} {v : Value} {d : Descent}
    (h : below? store enterMaps site = some (layer, v))
    (hd : Lands store enterMaps (.value v) d) :
    Lands store enterMaps site (d.below layer) := by
  obtain ⟨last, hlast, hend, hlayers, hleaf⟩ := hd
  refine ⟨last, ?_, hend, ?_, hleaf⟩
  · rw [Descent.below, List.length_cons, chain_of_below h, hlast]
  · rw [Descent.below, List.length_cons, layers_of_below h, ← hlayers]

theorem barredWithin_zero {budget : Nat} {active : List Nat} {v : Value} :
    BarredWithin store enterMaps budget active v 0 ↔
      budget = 0 ∨ v.mapping?.any active.contains = true := by
  cases v <;> simp [BarredWithin, chain, Value.mapping?]

theorem barredWithin_succ {budget : Nat} {active : List Nat} {v w : Value} {layer : Layer}
    (h : below? store enterMaps (.value v) = some (layer, w)) (i : Nat) :
    BarredWithin store enterMaps (budget + 1) active v (i + 1) ↔
      BarredWithin store enterMaps budget (v.mapping?.toList ++ active) w i := by
  simp only [BarredWithin, chain_of_below h, Nat.exists_lt_succ_left, List.mem_append]
  refine or_congr (by simp) (exists_congr fun id => and_congr_right fun _ => ?_)
  have htop : chain store enterMaps (.value v) 0 = some (.value (.mapping id)) ↔
      id ∈ v.mapping?.toList := by
    cases v <;> simp [chain, Value.mapping?, eq_comm]
  rw [htop]
  exact or_left_comm.trans or_assoc.symm

theorem not_barredWithin_succ {budget : Nat} {active : List Nat} {v : Value}
    (h : below? store enterMaps (.value v) = none) (i : Nat) :
    ¬ BarredWithin store enterMaps budget active v (i + 1) := by
  simp [BarredWithin, chain_of_end h]

/-! A property of indices that fails at the top is, one index further, the
property that the next element sees. -/

theorem isLeast_succ {p q : Nat → Prop} (htop : ¬ p 0) (hsucc : ∀ i, p (i + 1) ↔ q i)
    {i : Nat} (h : IsLeast {i | q i} i) : IsLeast {i | p i} (i + 1) := by
  refine ⟨(hsucc i).2 h.1, fun j hj => ?_⟩
  cases j with
  | zero => exact absurd hj htop
  | succ j => exact Nat.succ_le_succ (h.2 ((hsucc j).1 hj))

theorem never_succ {p q : Nat → Prop} (htop : ¬ p 0) (hsucc : ∀ i, p (i + 1) ↔ q i)
    (h : ∀ i, ¬ q i) : ∀ i, ¬ p i
  | 0 => htop
  | i + 1 => fun hp => h i ((hsucc i).1 hp)

/-- What a descent from a depth comes to if these are the indices that are
barred: it stops at the least of them, or there is none and it lands. -/
def Obeys (store : Store) (enterMaps : Bool) (barred : Nat → Prop) (depth : Nat)
    (site : SchemaSite) : Except SchemaError Descent → Prop
  | .error e => ∃ i, IsLeast {i | barred i} i ∧ e = .cyclic ((depth + i : Nat) : Int) none
  | .ok d => (∀ i, ¬ barred i) ∧ Lands store enterMaps site d

theorem Obeys.stop {barred : Nat → Prop} {depth : Nat} {site : SchemaSite} (h : barred 0) :
    Obeys store enterMaps barred depth site (.error (.cyclic depth none)) :=
  ⟨0, ⟨h, fun i _ => Nat.zero_le i⟩, rfl⟩

/-- One level further down the same indices are barred, each less by one. -/
theorem Obeys.below {barred inner : Nat → Prop} {depth : Nat} {site : SchemaSite} {layer : Layer}
    {v : Value} {result : Except SchemaError Descent}
    (hbelow : below? store enterMaps site = some (layer, v)) (htop : ¬ barred 0)
    (hsucc : ∀ i, barred (i + 1) ↔ inner i)
    (h : Obeys store enterMaps inner (depth + 1) (.value v) result) :
    Obeys store enterMaps barred depth site (result.map (.below layer)) := by
  cases result with
  | error e =>
      obtain ⟨i, hleast, rfl⟩ := h
      exact ⟨i + 1, isLeast_succ htop hsucc hleast,
        by rw [show depth + 1 + i = depth + (i + 1) by omega]⟩
  | ok d =>
      obtain ⟨hfree, hlands⟩ := h
      exact ⟨never_succ htop hsucc hfree, hlands.below hbelow⟩

/-- The guard is obeyed for every budget and every set of active mappings. -/
theorem descend_spec (store : Store) (enterMaps : Bool) :
    ∀ (budget : Nat) (active : List Nat) (depth : Nat) (v : Value),
      Obeys store enterMaps (BarredWithin store enterMaps budget active v) depth (.value v)
        (descend store enterMaps budget active depth v) := by
  intro budget
  induction budget with
  | zero =>
      intro active depth v
      exact .stop (barredWithin_zero.2 (.inl rfl))
  | succ budget ih =>
      intro active depth v
      rw [descend]
      by_cases hinside : v.mapping?.any active.contains = true
      · rw [if_pos hinside]
        exact .stop (barredWithin_zero.2 (.inr hinside))
      · rw [if_neg hinside]
        have htop : ¬ BarredWithin store enterMaps (budget + 1) active v 0 := by
          rw [barredWithin_zero]
          simp [hinside]
        cases hstep : (SchemaNode.classify store v).step store enterMaps with
        | stop leaf =>
            have hend : below? store enterMaps (.value v) = none := below?_of_stop hstep
            refine ⟨fun i => ?_, .here hend (descend_alone hstep)⟩
            cases i with
            | zero => exact htop
            | succ i => exact not_barredWithin_succ hend i
        | enter layer next =>
            have hbelow : below? store enterMaps (.value v) = some (layer, next) :=
              below?_of_enter hstep
            exact (ih (v.mapping?.toList ++ active) (depth + 1) next).below hbelow htop
              (barredWithin_succ hbelow)

/-! From the top of a site nothing is active, so the two ways to be barred are
the same. A wrapper that is no part of a document takes a level without being a
mapping that could come up again. -/

theorem barred_value {maxDepth : Int} {v : Value} {i : Nat} :
    Barred store enterMaps maxDepth (.value v) i ↔
      BarredWithin store enterMaps (maxDepth + 1).toNat [] v i := by
  simp only [Barred, Repeats, BarredWithin, List.not_mem_nil, false_or]
  refine or_congr_left (and_congr_left fun _ => ?_)
  omega

theorem barred_content_zero {maxDepth : Int} {schema : Value} :
    Barred store enterMaps maxDepth (.content schema) 0 ↔ maxDepth < 0 := by
  simp [Barred, Repeats, chain]

theorem barred_content_succ {maxDepth : Int} {budget : Nat} {schema : Value}
    (h : below? store enterMaps (.content schema) = some (.wrapper, schema))
    (hbudget : (maxDepth + 1).toNat = budget + 1) (i : Nat) :
    Barred store enterMaps maxDepth (.content schema) (i + 1) ↔
      BarredWithin store enterMaps budget [] schema i := by
  have htop : ∀ id, chain store enterMaps (.content schema) 0 ≠ some (.value (.mapping id)) := by
    simp [chain]
  simp only [Barred, Repeats, BarredWithin, chain_of_below h, Nat.exists_lt_succ_left, htop,
    List.not_mem_nil, false_or]
  refine or_congr_left (and_congr_left fun _ => ?_)
  omega

theorem descendSite_obeys (store : Store) (enterMaps : Bool) (maxDepth : Int)
    (site : SchemaSite) :
    Obeys store enterMaps (Barred store enterMaps maxDepth site) 0 site
      (descendSite store enterMaps (maxDepth + 1).toNat site) := by
  cases site with
  | value v =>
      have hsame : Barred store enterMaps maxDepth (.value v) =
          BarredWithin store enterMaps (maxDepth + 1).toNat [] v :=
        funext fun _ => propext barred_value
      rw [hsame]
      exact descend_spec store enterMaps (maxDepth + 1).toNat [] 0 v
  | content schema =>
      cases hbudget : (maxDepth + 1).toNat with
      | zero => exact .stop (barred_content_zero.2 (by omega))
      | succ budget =>
          have htop : ¬ Barred store enterMaps maxDepth (.content schema) 0 := by
            rw [barred_content_zero]
            omega
          cases hnull : schema.isNull with
          | true =>
              have hend : below? store enterMaps (.content schema) = none := by
                rw [below?, if_pos hnull]
              have hleaf : ∀ budget, descendSite store enterMaps (budget + 1) (.content schema) =
                  .ok ⟨[], .untyped⟩ := fun budget => by rw [descendSite, if_pos hnull]
              rw [hleaf]
              refine ⟨fun i => ?_, .here hend hleaf⟩
              cases i with
              | zero => exact htop
              | succ i => simp [Barred, Repeats, chain_of_end hend]
          | false =>
              have hbelow : below? store enterMaps (.content schema) = some (.wrapper, schema) := by
                rw [below?, hnull]
                rfl
              rw [descendSite, hnull, if_neg Bool.false_ne_true]
              exact (descend_spec store enterMaps budget [] 1 schema).below hbelow htop
                (barred_content_succ hbelow hbudget)

/-- The descent from a site, in the words of its chain. -/
theorem descendSite_spec (store : Store) (enterMaps : Bool) (maxDepth : Int)
    (site : SchemaSite) :
    match descendSite store enterMaps (maxDepth + 1).toNat site with
    | .error e => ∃ i, IsLeast {i | Barred store enterMaps maxDepth site i} i ∧
        e = .cyclic (i : Int) none
    | .ok d => (∀ i, ¬ Barred store enterMaps maxDepth site i) ∧
        Lands store enterMaps site d := by
  have h := descendSite_obeys store enterMaps maxDepth site
  cases hd : descendSite store enterMaps (maxDepth + 1).toNat site with
  | error e =>
      rw [hd] at h
      simpa only [Obeys, Nat.zero_add] using h
  | ok d =>
      rw [hd] at h
      exact h

/-! ## Chains of a finite store

Only the mappings of a store lead on, so a chain that goes on for longer than
there are mappings has met one of them twice. The walk is therefore finite
whatever the limit is. -/

theorem mapping_of_below {v : Value} {below : Layer × Value}
    (h : below? store enterMaps (.value v) = some below) :
    ∃ id < store.mappings.size, v = .mapping id := by
  cases v with
  | scalar s =>
      cases s with
      | null => simp [below?, SchemaNode.classify, SchemaNode.below?] at h
      | bool b => cases b <;> simp [below?, SchemaNode.classify, SchemaNode.below?] at h
      | _ => simp [below?, SchemaNode.classify, SchemaNode.below?] at h
  | sequence id | typed kind id => simp [below?, SchemaNode.classify, SchemaNode.below?] at h
  | mapping id =>
      refine ⟨id, ?_, rfl⟩
      by_contra hout
      have hnone : store.entries id = [] := by
        rw [Store.entries, Array.getElem?_eq_none (by omega)]
        rfl
      have huntyped : below? store enterMaps (.value (.mapping id)) = none := by
        rw [below?, SchemaNode.classify, hnone]
        rfl
      rw [huntyped] at h
      cases h

theorem below_of_chain_succ {site c : SchemaSite} {i : Nat}
    (h : chain store enterMaps site (i + 1) = some c) :
    ∃ v, c = .value v := by
  rw [chain, Option.map_eq_some_iff] at h
  obtain ⟨⟨_, v⟩, _, rfl⟩ := h
  exact ⟨v, rfl⟩

theorem mapping_of_chain {site : SchemaSite} {i : Nat}
    (h : (chain store enterMaps site (i + 2)).isSome) :
    ∃ id < store.mappings.size,
      chain store enterMaps site (i + 1) = some (.value (.mapping id)) := by
  rw [chain, Option.isSome_map, Option.isSome_iff_exists] at h
  obtain ⟨below, h⟩ := h
  obtain ⟨c, hc, hbelow⟩ := Option.bind_eq_some_iff.1 h
  obtain ⟨v, rfl⟩ := below_of_chain_succ hc
  obtain ⟨id, hid, rfl⟩ := mapping_of_below hbelow
  exact ⟨id, hid, hc⟩

theorem chain_bounded (store : Store) (enterMaps : Bool) (site : SchemaSite) :
    ∃ n ≤ store.mappings.size + 1,
      chain store enterMaps site (n + 1) = none ∨ Repeats store enterMaps site n := by
  by_contra hlong
  push Not at hlong
  have hmapping : ∀ i : Fin (store.mappings.size + 1), ∃ id : Fin store.mappings.size,
      chain store enterMaps site (i + 1) = some (.value (.mapping id)) := by
    intro i
    have hnext := (hlong (i + 1) (by omega)).1
    obtain ⟨id, hid, hc⟩ := mapping_of_chain (Option.isSome_iff_ne_none.2 hnext)
    exact ⟨⟨id, hid⟩, hc⟩
  choose held hheld using hmapping
  -- One index more than there are mappings: two of them hold the same one.
  obtain ⟨i, j, hne, hsame⟩ := Fintype.exists_ne_map_eq_of_card_lt held (by simp)
  have hrepeats : ∀ i j : Fin (store.mappings.size + 1), i < j → held i = held j → False := by
    intro i j hlt hij
    refine (hlong (j + 1) (by omega)).2 ⟨held j, hheld j, i + 1, ?_, hij ▸ hheld i⟩
    exact Nat.succ_lt_succ hlt
  rcases lt_or_gt_of_ne hne with hlt | hgt
  · exact hrepeats i j hlt hsame
  · exact hrepeats j i hgt hsame.symm

/-! ## The two renderings -/

/-- What the guard comes to for one rendering of a site. The chain ends or
comes back to a mapping within the size of the store, whatever the limit. The
rendering refuses the site as cyclic exactly if some index is barred, and then
names the least one. If none is, the chain ends, and the outcome is that of its
last element alone, with the layers of the chain around it. -/
structure Guarded {α : Type} (store : Store) (enterMaps : Bool) (maxDepth : Int)
    (around : List Layer → α → α) (render : SchemaSite → Except Failure α)
    (site : SchemaSite) : Prop where
  finite : ∃ n ≤ store.mappings.size + 1,
    chain store enterMaps site (n + 1) = none ∨ Repeats store enterMaps site n
  raises : (∃ depth source, render site = .error (.schema (.cyclic depth source))) ↔
    ∃ i, Barred store enterMaps maxDepth site i
  reports : ∀ depth source, render site = .error (.schema (.cyclic depth source)) →
    source = none ∧ ∃ i : Nat, depth = i ∧ IsLeast {i | Barred store enterMaps maxDepth site i} i
  settles : (∀ i, ¬ Barred store enterMaps maxDepth site i) →
    ∃ n last, chain store enterMaps site n = some last ∧
      chain store enterMaps site (n + 1) = none ∧
      render site = (render last).map (around (layers store enterMaps site n))

theorem chain_end {site last : SchemaSite} {n : Nat}
    (h : chain store enterMaps site n = some last)
    (hend : below? store enterMaps last = none) :
    chain store enterMaps site (n + 1) = none := by
  rw [chain, h, Option.bind_some, hend]
  rfl

theorem chain_none_of_le {site : SchemaSite} {i j : Nat}
    (h : chain store enterMaps site i = none) (hle : i ≤ j) :
    chain store enterMaps site j = none := by
  induction hle with
  | refl => exact h
  | step _ ih =>
      rw [chain, ih]
      rfl

theorem le_of_chain_end {site last c : SchemaSite} {i j : Nat}
    (hi : chain store enterMaps site i = some last) (hend : below? store enterMaps last = none)
    (hj : chain store enterMaps site j = some c) : j ≤ i := by
  by_contra hlt
  have hnone := chain_none_of_le (chain_end hi hend) (Nat.lt_of_not_le hlt)
  rw [hnone] at hj
  cases hj

theorem not_barred_of_none {site : SchemaSite} {maxDepth : Int} {i : Nat}
    (h : chain store enterMaps site i = none) : ¬ Barred store enterMaps maxDepth site i := by
  simp [Barred, Repeats, h]

theorem guarded_of_refused {α : Type} {maxDepth : Int} {around : List Layer → α → α}
    {render : SchemaSite → Except Failure α} {site : SchemaSite} {i : Nat}
    (hleast : IsLeast {i | Barred store enterMaps maxDepth site i} i)
    (hsite : render site = .error (.schema (.cyclic i none))) :
    Guarded store enterMaps maxDepth around render site where
  finite := chain_bounded store enterMaps site
  raises := ⟨fun _ => ⟨i, hleast.1⟩, fun _ => ⟨i, none, hsite⟩⟩
  reports := by
    intro depth source h
    rw [hsite] at h
    cases h
    exact ⟨rfl, i, rfl, hleast⟩
  settles := fun hfree => absurd hleast.1 (hfree i)

theorem guarded_of_settled {α : Type} {maxDepth : Int} {around : List Layer → α → α}
    {render : SchemaSite → Except Failure α} {site last : SchemaSite} {n : Nat}
    (hfree : ∀ i, ¬ Barred store enterMaps maxDepth site i)
    (hnever : ∀ depth source, render site ≠ .error (.schema (.cyclic depth source)))
    (hlast : chain store enterMaps site n = some last)
    (hend : below? store enterMaps last = none)
    (hsite : render site = (render last).map (around (layers store enterMaps site n))) :
    Guarded store enterMaps maxDepth around render site where
  finite := chain_bounded store enterMaps site
  raises := by
    constructor
    · rintro ⟨depth, source, h⟩
      exact absurd h (hnever depth source)
    · rintro ⟨i, hi⟩
      exact absurd hi (hfree i)
  reports := fun depth source h => absurd h (hnever depth source)
  settles := fun _ => ⟨n, last, hlast, chain_end hlast hend, hsite⟩

/-- Any rendering that writes what a descent comes to is guarded, as long as
writing a leaf never fails for the guard's reason. -/
theorem guarded_of_descent {α : Type} {maxDepth : Int} {around : List Layer → α → α}
    {render : SchemaSite → Except Failure α} (leaf : Leaf → Except Failure α)
    (hrender : ∀ site, render site =
      match descendSite store enterMaps (maxDepth + 1).toNat site with
      | .error e => .error (.schema e)
      | .ok d => (leaf d.leaf).map (around d.layers))
    (haround : ∀ a, around [] a = a)
    (hleaf : ∀ l depth source, leaf l ≠ .error (.schema (.cyclic depth source)))
    (site : SchemaSite) :
    Guarded store enterMaps maxDepth around render site := by
  have hspec := descendSite_spec store enterMaps maxDepth site
  have hsite := hrender site
  cases hd : descendSite store enterMaps (maxDepth + 1).toNat site with
  | error e =>
      rw [hd] at hspec hsite
      obtain ⟨i, hleast, rfl⟩ := hspec
      exact guarded_of_refused hleast hsite
  | ok d =>
      rw [hd] at hspec hsite
      obtain ⟨hfree, last, hlast, hend, hlayers, halone⟩ := hspec
      replace hsite : render site = (leaf d.leaf).map (around d.layers) := hsite
      refine guarded_of_settled hfree ?_ hlast hend ?_
      · intro depth source h
        rw [hsite] at h
        cases hl : leaf d.leaf with
        | error f =>
            rw [hl] at h
            exact hleaf d.leaf depth source (hl.trans h)
        | ok a => rw [hl] at h; cases h
      · have hlevel : (maxDepth + 1).toNat = (maxDepth + 1).toNat - 1 + 1 := by
          have : ¬ maxDepth < 0 := fun hneg => hfree 0 (.inl ⟨hneg, rfl⟩)
          omega
        have hlastEq : render last = (leaf d.leaf).map (around []) := by
          rw [hrender last, hlevel, halone]
        rw [hsite, hlastEq, ← hlayers]
        cases leaf d.leaf with
        | error f => rfl
        | ok a => simp only [Except.map, haround]

theorem enum_resolve_refusal {config : ResolverConfig} {registry : Registry}
    {schema : EnumSchema} {e : SchemaError}
    (h : schema.resolve store config registry = .error (.schema e)) :
    ∃ name existing incoming, e = .collision name existing incoming none := by
  rw [EnumSchema.resolve] at h
  obtain ⟨name, _, h⟩ := refusal_of_ofFault_bind h
  obtain ⟨declaration, _, h⟩ := refusal_of_ofFault_bind h
  split at h
  · cases h
  · next e' hinsert =>
      obtain ⟨_, existing, _, _, rfl⟩ := Registry.insert_eq_error.1 hinsert
      cases h
      exact ⟨name, existing, declaration, rfl⟩

/-- A leaf is refused for two reasons only. -/
theorem leaf_resolve_refusal {config : ResolverConfig} {mode : ResolutionMode}
    {registry : Registry} {leaf : Leaf} {e : SchemaError}
    (h : leaf.resolve store config mode registry = .error (.schema e)) :
    (leaf = .untypedArray ∧ e = untypedItems) ∨
      ∃ name existing incoming, e = .collision name existing incoming none := by
  cases leaf with
  | enumeration schema => exact .inr (enum_resolve_refusal h)
  | untypedArray =>
      rw [Leaf.resolve] at h
      split at h
      · cases h
        exact .inl ⟨rfl, rfl⟩
      · cases h
  | primitive type format =>
      rw [Leaf.resolve] at h
      obtain ⟨_, _, h⟩ := refusal_of_ofFault_bind h
      cases h
  | _ => cases h

theorem leaf_documentType_refusal {config : ResolverConfig} {leaf : Leaf} {e : SchemaError}
    (h : leaf.documentType config = .error (.schema e)) :
    leaf = .untypedArray ∧ e = untypedItems := by
  cases leaf with
  | enumeration schema =>
      simp only [Leaf.documentType] at h
      split at h
      · cases h
      · exact absurd h (ofFault_ne_schema _ _)
  | untypedArray =>
      rw [Leaf.documentType] at h
      split at h
      · cases h
        exact ⟨rfl, rfl⟩
      · cases h
  | primitive type format => exact absurd h (ofFault_ne_schema _ _)
  | _ => cases h

theorem leaf_resolve_not_cyclic (store : Store) (config : ResolverConfig)
    (mode : ResolutionMode) (registry : Registry) (leaf : Leaf) (depth : Int)
    (source : Option String) :
    leaf.resolve store config mode registry ≠ .error (.schema (.cyclic depth source)) := by
  intro h
  rcases leaf_resolve_refusal h with ⟨_, he⟩ | ⟨_, _, _, he⟩
  · cases he
  · cases he

theorem leaf_documentType_not_cyclic (config : ResolverConfig) (leaf : Leaf) (depth : Int)
    (source : Option String) :
    leaf.documentType config ≠ .error (.schema (.cyclic depth source)) := by
  intro h
  cases (leaf_documentType_refusal h).2

/-- Both renderings are guarded exactly, for every store, every configuration
and every site. -/
theorem cycle_guard_exact (store : Store) (config : ResolverConfig) (mode : ResolutionMode)
    (registry : Registry) (site : SchemaSite) :
    Guarded store true config.maxDepth
        (fun layers r => { r with text := Layer.aroundAll layers r.text })
        (resolve store config mode registry) site ∧
      Guarded store false config.maxDepth Layer.aroundAll (documentType store config) site := by
  constructor
  · refine guarded_of_descent (Leaf.resolve store config mode registry) ?_
      (fun _ => rfl) (leaf_resolve_not_cyclic store config mode registry) site
    intro site
    rw [resolve, ResolverConfig.budget]
    cases descendSite store true (config.maxDepth + 1).toNat site with
    | error e => rfl
    | ok d => cases d.leaf.resolve store config mode registry <;> rfl
  · refine guarded_of_descent (Leaf.documentType config) ?_
      (fun _ => rfl) (leaf_documentType_not_cyclic config) site
    intro site
    rw [documentType, ResolverConfig.budget]
    cases descendSite store false (config.maxDepth + 1).toNat site with
    | error e => rfl
    | ok d => cases d.leaf.documentType config <;> rfl

/-- A response whose schema is the response itself is refused one level down. -/
example : resolve ⟨#[], #[[(.text "schema", .mapping 0)]]⟩ {} .default {}
    (.value (.mapping 0)) = .error (.schema (.cyclic 1 none)) := by
  rfl

end TypedClient
