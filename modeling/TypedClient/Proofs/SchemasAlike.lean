import Mathlib.Data.Nat.Find
import TypedClient.Proofs.CycleGuard
import TypedClient.Proofs.DocumentTypes

/-!
# Schemas that say the same

The same schema can be met at two sites: under a mapping of the document or
under one that is made for it, under one mapping or under another with the same
entries. Two such sites are `Alike`: they lead down to the same value, or they
stop with the same leaf. Their chains then differ in nothing but the first
element, and so does all that is made of the chains.

The first element matters to one thing only, the guard against cycles. A chain
that `Returns` to its site is stopped there, while the chain of the other site
takes one more step before it comes to something that it has met. So alike
sites are resolved to the same, except that of a site to which its chain
returns the depth that is reported may be one less.
-/

namespace TypedClient

open SchemaSite

variable {store : Store} {enterMaps : Bool} {site other : SchemaSite}

/-- Two sites that lead down to the same value or stop with the same leaf. -/
structure Alike (store : Store) (site other : SchemaSite) : Prop where
  below : ∀ enterMaps, below? store enterMaps site = below? store enterMaps other
  leaf : ∀ enterMaps budget, below? store enterMaps site = none →
    descendSite store enterMaps (budget + 1) site = descendSite store enterMaps (budget + 1) other

/-- Whether the chain of a site comes back to the site. -/
def Returns (store : Store) (enterMaps : Bool) (site : SchemaSite) : Prop :=
  ∃ n, chain store enterMaps site (n + 1) = some site

/-! ## Chains of one site -/

theorem chain_add (site : SchemaSite) (i j : Nat) :
    chain store enterMaps site (i + j) =
      (chain store enterMaps site i).bind fun c => chain store enterMaps c j := by
  induction j with
  | zero => cases chain store enterMaps site i <;> simp [chain]
  | succ j ih =>
      rw [← Nat.add_assoc, chain, ih]
      cases chain store enterMaps site i <;> rfl

/-- An element below which there is another one is a mapping. -/
theorem mapping_of_chain_succ {v : Value} {i : Nat}
    (h : chain store enterMaps site i = some (.value v))
    (hnext : (chain store enterMaps site (i + 1)).isSome) : ∃ id, v = .mapping id := by
  rw [chain, h, Option.isSome_map, Option.bind_some, Option.isSome_iff_exists] at hnext
  obtain ⟨below, hbelow⟩ := hnext
  obtain ⟨id, _, hv⟩ := mapping_of_below hbelow
  exact ⟨id, hv⟩

/-- Where a chain returns, it is endless. -/
theorem chain_isSome_of_return {n : Nat} (h : chain store enterMaps site (n + 1) = some site)
    (i : Nat) : (chain store enterMaps site i).isSome := by
  have hadd : ∀ i j, chain store enterMaps site (i + j) =
      (chain store enterMaps site i).bind fun c => chain store enterMaps c j := chain_add site
  induction i using Nat.strong_induction_on with
  | h i ih =>
      by_cases hi : i ≤ n + 1
      · by_contra hnone
        rw [Option.not_isSome_iff_eq_none] at hnone
        have hlater := hadd i (n + 1 - i)
        rw [Nat.add_sub_cancel' hi, h, hnone] at hlater
        cases hlater
      · have hback := hadd (n + 1) (i - (n + 1))
        rw [Nat.add_sub_cancel' (by omega), h, Option.bind_some] at hback
        rw [hback]
        exact ih _ (by omega)

/-- A site to which its chain returns is a mapping. -/
theorem Returns.mapping (h : Returns store enterMaps site) :
    ∃ id, site = .value (.mapping id) := by
  obtain ⟨n, hn⟩ := h
  obtain ⟨v, rfl⟩ := below_of_chain_succ hn
  obtain ⟨id, rfl⟩ := mapping_of_chain_succ (i := 0) rfl (chain_isSome_of_return hn 1)
  exact ⟨id, rfl⟩

/-- Two indices that hold one element go on in step. -/
theorem chain_shift {i j : Nat}
    (h : chain store enterMaps site i = chain store enterMaps site j) (t : Nat) :
    chain store enterMaps site (i + t) = chain store enterMaps site (j + t) := by
  rw [chain_add, chain_add, h]

/-- Up to its first return, a chain holds nothing twice. -/
theorem not_repeats_before {n i : Nat}
    (h : chain store enterMaps site (n + 1) = some site)
    (hfirst : ∀ m < n, chain store enterMaps site (m + 1) ≠ some site) (hi : i < n + 1) :
    ¬ Repeats store enterMaps site i := by
  intro hrepeats
  obtain ⟨id, hid, j, hj, hsame⟩ := hrepeats
  have hearlier := chain_shift (hsame.trans hid.symm) (n + 1 - i)
  rw [Nat.add_sub_cancel' (by omega), h] at hearlier
  refine hfirst (j + (n - i)) (by omega) ?_
  rw [← hearlier]
  congr 1
  omega

/-! ## Chains of alike sites -/

namespace Alike

theorem symm (h : Alike store site other) : Alike store other site :=
  ⟨fun enterMaps => (h.below enterMaps).symm,
    fun enterMaps budget hend => (h.leaf enterMaps budget ((h.below enterMaps).trans hend)).symm⟩

theorem refl (store : Store) (site : SchemaSite) : Alike store site site :=
  ⟨fun _ => rfl, fun _ _ _ => rfl⟩

theorem chain_eq (h : Alike store site other) (i : Nat) :
    chain store enterMaps site (i + 1) = chain store enterMaps other (i + 1) := by
  rw [chain_succ, chain_succ, h.below]

theorem layers_eq (h : Alike store site other) (n : Nat) :
    layers store enterMaps site n = layers store enterMaps other n := by
  refine List.filterMap_congr fun i _ => ?_
  cases i with
  | zero => simp only [chain, Option.bind_some, h.below]
  | succ i => rw [h.chain_eq]

theorem lands (h : Alike store site other) {d : Descent} (hd : Lands store enterMaps site d) :
    Lands store enterMaps other d := by
  obtain ⟨last, hlast, hend, hlayers, hleaf⟩ := hd
  rw [h.layers_eq] at hlayers
  cases hn : d.layers.length with
  | zero =>
      rw [hn] at hlast
      cases hlast
      refine ⟨other, by rw [hn]; rfl, (h.below enterMaps).symm.trans hend, hlayers, ?_⟩
      intro budget
      rw [← h.leaf enterMaps budget hend, hleaf]
  | succ n =>
      rw [hn, h.chain_eq] at hlast
      exact ⟨last, by rw [hn, hlast], hend, hlayers, hleaf⟩

/-- Without returns, what bars an index of one chain bars it in the other. -/
theorem barred (h : Alike store site other) (hsite : ¬ Returns store enterMaps site)
    {maxDepth : Int} {i : Nat} (hi : Barred store enterMaps maxDepth site i) :
    Barred store enterMaps maxDepth other i := by
  cases i with
  | zero =>
      rcases hi with ⟨hdeep, _⟩ | ⟨_, _, j, hj, _⟩
      · exact .inl ⟨hdeep, rfl⟩
      · exact absurd hj (Nat.not_lt_zero j)
  | succ i =>
      rcases hi with ⟨hdeep, hsome⟩ | ⟨id, hid, j, hj, hsame⟩
      · exact .inl ⟨hdeep, h.chain_eq i ▸ hsome⟩
      · cases j with
        | zero => exact absurd ⟨i, hid.trans hsame.symm⟩ hsite
        | succ j =>
            exact .inr ⟨id, h.chain_eq i ▸ hid, j + 1, hj, h.chain_eq j ▸ hsame⟩

end Alike

/-- A descent lands in one way. -/
theorem Lands.unique {d d' : Descent} (h : Lands store enterMaps site d)
    (h' : Lands store enterMaps site d') : d = d' := by
  obtain ⟨last, hlast, hend, hlayers, hleaf⟩ := h
  obtain ⟨last', hlast', hend', hlayers', hleaf'⟩ := h'
  have hlength : d.layers.length = d'.layers.length :=
    Nat.le_antisymm (le_of_chain_end hlast' hend' hlast) (le_of_chain_end hlast hend hlast')
  rw [← hlength] at hlast' hlayers'
  cases hlast.symm.trans hlast'
  have hleaves := (hleaf 0).symm.trans (hleaf' 0)
  rw [Except.ok.injEq, Descent.mk.injEq] at hleaves
  cases d
  cases d'
  rw [Descent.mk.injEq]
  exact ⟨hlayers.trans hlayers'.symm, hleaves.2⟩

/-! ## Descents -/

/-- Descents from alike sites to which no chain returns are the same. -/
theorem descendSite_alike (h : Alike store site other) (hsite : ¬ Returns store enterMaps site)
    (hother : ¬ Returns store enterMaps other) (maxDepth : Int) :
    descendSite store enterMaps (maxDepth + 1).toNat site =
      descendSite store enterMaps (maxDepth + 1).toNat other := by
  have hspec := descendSite_spec store enterMaps maxDepth site
  have hspec' := descendSite_spec store enterMaps maxDepth other
  have hbarred : ∀ i, Barred store enterMaps maxDepth site i ↔
      Barred store enterMaps maxDepth other i :=
    fun i => ⟨h.barred hsite, h.symm.barred hother⟩
  simp only [hbarred] at hspec
  cases hd : descendSite store enterMaps (maxDepth + 1).toNat site with
  | error e =>
      rw [hd] at hspec
      obtain ⟨i, hleast, rfl⟩ := hspec
      cases hd' : descendSite store enterMaps (maxDepth + 1).toNat other with
      | error e' =>
          rw [hd'] at hspec'
          obtain ⟨i', hleast', rfl⟩ := hspec'
          rw [hleast.unique hleast']
      | ok d' =>
          rw [hd'] at hspec'
          exact absurd hleast.1 (hspec'.1 i)
  | ok d =>
      rw [hd] at hspec
      cases hd' : descendSite store enterMaps (maxDepth + 1).toNat other with
      | error e' =>
          rw [hd'] at hspec'
          obtain ⟨i', hleast', _⟩ := hspec'
          exact absurd hleast'.1 (hspec.1 i')
      | ok d' =>
          rw [hd'] at hspec'
          rw [(h.lands hspec.2).unique hspec'.2]

/-- A chain that returns to a site has the value below the site twice. -/
theorem Returns.below_twice {n : Nat} (h : chain store enterMaps site (n + 1) = some site) :
    ∃ id, chain store enterMaps site 1 = some (.value (.mapping id)) ∧
      chain store enterMaps site (n + 2) = some (.value (.mapping id)) := by
  obtain ⟨c, hc⟩ := Option.isSome_iff_exists.1 (chain_isSome_of_return h 1)
  obtain ⟨v, rfl⟩ := below_of_chain_succ hc
  obtain ⟨id, rfl⟩ := mapping_of_chain_succ hc (chain_isSome_of_return h 2)
  refine ⟨id, hc, ?_⟩
  rw [← hc, chain_add site (n + 1) 1, h, Option.bind_some]

/-- A site alike to one to which its chain returns has a chain that repeats. -/
theorem Alike.repeats (h : Alike store site other) {n : Nat}
    (hother : chain store enterMaps other (n + 1) = some other) :
    Repeats store enterMaps site (n + 2) := by
  obtain ⟨id, hfirst, hagain⟩ := Returns.below_twice hother
  exact ⟨id, (h.chain_eq (n + 1)).trans hagain, 1, by omega, (h.chain_eq 0).trans hfirst⟩

/-- A descent that succeeds from one site succeeds from an alike one. -/
theorem descendSite_alike_ok (h : Alike store site other) {maxDepth : Int} {d : Descent}
    (hd : descendSite store enterMaps (maxDepth + 1).toNat site = .ok d) :
    descendSite store enterMaps (maxDepth + 1).toNat other = .ok d := by
  have hspec := descendSite_spec store enterMaps maxDepth site
  rw [hd] at hspec
  have hsite : ¬ Returns store enterMaps site := by
    intro hreturns
    obtain ⟨id, rfl⟩ := hreturns.mapping
    obtain ⟨n, hn⟩ := hreturns
    exact hspec.1 (n + 1) (.inr ⟨id, hn, 0, n.succ_pos, rfl⟩)
  have hother : ¬ Returns store enterMaps other := by
    intro hreturns
    obtain ⟨n, hn⟩ := hreturns
    exact hspec.1 (n + 2) (.inr (h.repeats hn))
  rw [← descendSite_alike h hsite hother, hd]

/-- A descent is refused at the least barred index. -/
theorem descendSite_of_isLeast {maxDepth : Int} {i : Nat}
    (h : IsLeast {i | Barred store enterMaps maxDepth site i} i) :
    descendSite store enterMaps (maxDepth + 1).toNat site = .error (.cyclic i none) := by
  have hspec := descendSite_spec store enterMaps maxDepth site
  cases hd : descendSite store enterMaps (maxDepth + 1).toNat site with
  | ok d =>
      rw [hd] at hspec
      exact absurd h.1 (hspec.1 i)
  | error e =>
      rw [hd] at hspec
      obtain ⟨j, hj, rfl⟩ := hspec
      rw [hj.unique h]

section Returning

variable {maxDepth : Int} {n : Nat}

/-- A chain that returns is barred where it first does, or at the limit before. -/
theorem isLeast_barred_of_return (hreturns : chain store enterMaps site (n + 1) = some site)
    (hfirst : ∀ m < n, chain store enterMaps site (m + 1) ≠ some site) :
    IsLeast {i | Barred store enterMaps maxDepth site i} (min (n + 1) (maxDepth + 1).toNat) := by
  obtain ⟨id, rfl⟩ := Returns.mapping ⟨n, hreturns⟩
  constructor
  · rcases Nat.le_total (n + 1) (maxDepth + 1).toNat with hle | hle
    · rw [Nat.min_eq_left hle]
      exact .inr ⟨id, hreturns, 0, n.succ_pos, rfl⟩
    · rw [Nat.min_eq_right hle]
      exact .inl ⟨by omega, chain_isSome_of_return hreturns _⟩
  · intro i hi
    rcases hi with ⟨hdeep, _⟩ | hrepeats
    · omega
    · have hlate : ¬ i < n + 1 := fun hi => not_repeats_before hreturns hfirst hi hrepeats
      omega

/-- An alike chain that does not return is barred one step later, or at the limit. -/
theorem Alike.isLeast_barred (h : Alike store site other)
    (hreturns : chain store enterMaps site (n + 1) = some site)
    (hfirst : ∀ m < n, chain store enterMaps site (m + 1) ≠ some site)
    (hother : ¬ Returns store enterMaps other) :
    IsLeast {i | Barred store enterMaps maxDepth other i} (min (n + 2) (maxDepth + 1).toNat) := by
  constructor
  · rcases Nat.le_total (n + 2) (maxDepth + 1).toNat with hle | hle
    · rw [Nat.min_eq_left hle]
      exact .inr (h.symm.repeats hreturns)
    · rw [Nat.min_eq_right hle]
      refine .inl ⟨by omega, ?_⟩
      cases (maxDepth + 1).toNat with
      | zero => rfl
      | succ i => exact h.chain_eq i ▸ chain_isSome_of_return hreturns (i + 1)
  · intro i hi
    rcases hi with ⟨hdeep, _⟩ | ⟨id, hid, j, hj, hsame⟩
    · omega
    · by_contra hlt
      have hle : i ≤ n + 1 := by omega
      cases i with
      | zero => exact absurd hj (Nat.not_lt_zero j)
      | succ i =>
          cases j with
          | zero => exact hother ⟨i, hid.trans hsame.symm⟩
          | succ j =>
              rw [← h.chain_eq] at hid hsame
              rcases Nat.lt_or_eq_of_le hle with hlt | heq
              · exact not_repeats_before hreturns hfirst hlt ⟨id, hid, j + 1, hj, hsame⟩
              · rw [heq, hreturns] at hid
                exact hfirst j (by omega) (hsame.trans hid.symm)

end Returning

/-- From a site to which its chain returns and from an alike one to which it
does not, both descents are refused. The second gets one level further, unless
the limit comes first. -/
theorem descendSite_returning (h : Alike store site other)
    (hsite : Returns store enterMaps site) (hother : ¬ Returns store enterMaps other)
    (maxDepth : Int) :
    ∃ depth : Nat,
      descendSite store enterMaps (maxDepth + 1).toNat site = .error (.cyclic depth none) ∧
      descendSite store enterMaps (maxDepth + 1).toNat other =
        .error (.cyclic (min (depth + 1) (maxDepth + 1).toNat : Nat) none) := by
  classical
  have hreturns := Nat.find_spec hsite
  have hfirst : ∀ m < Nat.find hsite, chain store enterMaps site (m + 1) ≠ some site :=
    fun m hm => Nat.find_min hsite hm
  refine ⟨_, descendSite_of_isLeast (isLeast_barred_of_return hreturns hfirst), ?_⟩
  rw [descendSite_of_isLeast (h.isLeast_barred hreturns hfirst hother)]
  congr 3
  omega

/-! ## Renderings

What a site is resolved to, and what it is called in comments, is decided by
the descent from it. -/

variable {config : ResolverConfig} {mode : ResolutionMode} {r : Registry}

theorem resolve_congr
    (h : descendSite store true config.budget site = descendSite store true config.budget other) :
    resolve store config mode r site = resolve store config mode r other := by
  rw [resolve, resolve, h]

theorem documentType_congr (h : descendSite store false config.budget site =
      descendSite store false config.budget other) :
    documentType store config site = documentType store config other := by
  rw [documentType, documentType, h]

/-! ## Sites that are alike -/

/-- What is looked up in a mapping decides how it is classified. -/
theorem classify_congr {id id' : Nat} (h : ∀ key, store.get id key = store.get id' key) :
    SchemaNode.classify store (.mapping id) = SchemaNode.classify store (.mapping id') := by
  have hget : ∀ key, (store.entries id).get key = (store.entries id').get key := h
  simp only [SchemaNode.classify, SchemaNode.classifyEntries, SchemaNode.classifyPlain,
    SchemaNode.declaredType, hget]

theorem alike_of_entries {id id' : Nat} (h : ∀ key, store.get id key = store.get id' key) :
    Alike store (.value (.mapping id)) (.value (.mapping id')) := by
  have hclassify := classify_congr h
  refine ⟨fun enterMaps => congrArg (SchemaNode.below? store enterMaps) hclassify, ?_⟩
  intro enterMaps budget hend
  cases hstep : (SchemaNode.classify store (.mapping id)).step store enterMaps with
  | stop leaf => rw [descend_alone hstep, descend_alone (hclassify ▸ hstep)]
  | enter layer next =>
      rw [below?, below?_of_enter hstep] at hend
      cases hend

section Wrappers

variable {id : Nat}

/-- Without an enum and without a reference, the schema of a mapping makes it a wrapper. -/
theorem classify_of_schema (henum : SchemaNode.elements store (store.get id "enum") = [])
    (href : store.get id "$ref" = .null) (hschema : (store.get id "schema").isNull = false) :
    SchemaNode.classify store (.mapping id) = .wrapped (store.get id "schema") := by
  change SchemaNode.elements store ((store.entries id).get "enum") = [] at henum
  change (store.entries id).get "$ref" = .null at href
  change ((store.entries id).get "schema").isNull = false at hschema
  simp only [SchemaNode.classify, SchemaNode.classifyEntries, henum]
  simp [SchemaNode.classifyPlain, href, hschema, Value.null, Value.text?]
  rfl

theorem classify_of_nothing (henum : SchemaNode.elements store (store.get id "enum") = [])
    (href : store.get id "$ref" = .null) (hschema : (store.get id "schema").isNull = true)
    (htype : store.get id "type" = .null) :
    SchemaNode.classify store (.mapping id) = .untyped := by
  change SchemaNode.elements store ((store.entries id).get "enum") = [] at henum
  change (store.entries id).get "$ref" = .null at href
  change ((store.entries id).get "schema").isNull = true at hschema
  change (store.entries id).get "type" = .null at htype
  simp only [SchemaNode.classify, SchemaNode.classifyEntries, henum]
  simp [SchemaNode.classifyPlain, SchemaNode.declaredType, href, hschema, htype, Value.null,
    Value.text?]

/-- A mapping that is nothing but a wrapper is alike to the wrapper made for its
schema. Without a schema it is to say nothing at all. -/
theorem alike_of_wrapper (henum : SchemaNode.elements store (store.get id "enum") = [])
    (href : store.get id "$ref" = .null)
    (htype : store.get id "schema" = .null → store.get id "type" = .null) :
    Alike store (.value (.mapping id)) (.content (store.get id "schema")) := by
  cases hschema : (store.get id "schema").isNull with
  | false =>
      have hwrapped := classify_of_schema henum href hschema
      have hbelow : ∀ enterMaps, below? store enterMaps (.value (.mapping id)) =
          some (.wrapper, store.get id "schema") := by
        intro enterMaps
        rw [below?, hwrapped]
        rfl
      refine ⟨fun enterMaps => ?_, fun enterMaps budget hend => ?_⟩
      · rw [hbelow, below?, hschema]
        rfl
      · rw [hbelow] at hend
        cases hend
  | true =>
      have hnull : store.get id "schema" = .null := by simpa [Value.isNull] using hschema
      have huntyped := classify_of_nothing henum href hschema (htype hnull)
      refine ⟨fun enterMaps => ?_, fun enterMaps budget _ => ?_⟩
      · rw [below?, below?, huntyped, hschema]
        rfl
      · have hstep : (SchemaNode.classify store (.mapping id)).step store enterMaps =
            .stop .untyped := by
          rw [huntyped]
          rfl
        rw [descend_alone hstep, descendSite, hschema]
        rfl

end Wrappers

/-- The wrapper made for a schema is no part of the document, so nothing leads to it. -/
theorem not_returns_content (schema : Value) :
    ¬ Returns store enterMaps (.content schema) := by
  intro h
  obtain ⟨id, hid⟩ := h.mapping
  cases hid

end TypedClient
