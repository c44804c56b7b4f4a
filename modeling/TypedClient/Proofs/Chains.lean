import TypedClient.Proofs.Outcomes

/-!
# Chains of steps

A run over a list is a chain: one step for each element, each from the registry
that the step before it left. What is known of single steps then passes to the
whole chain, by the induction that is made here once. `Chain.exchange` replaces
steps by steps that say more or less, and `Chain.flatMap` opens steps that are
chains themselves, so a chain over groups becomes one over operations, and that
becomes one over the schemas of operations.
-/

namespace TypedClient

/-- Steps over the elements of a list, each from where the one before it ended. -/
inductive Chain {σ α : Type} (step : σ → α → σ → Prop) : σ → List α → σ → Prop where
  | nil {s : σ} : Chain step s [] s
  | cons {s m s' : σ} {a : α} {as : List α} (first : step s a m) (rest : Chain step m as s') :
      Chain step s (a :: as) s'

namespace Chain

variable {σ α β : Type} {step : σ → α → σ → Prop} {s m s' : σ} {as bs : List α}

theorem append (h : Chain step s as m) (h' : Chain step m bs s') :
    Chain step s (as ++ bs) s' := by
  induction h with
  | nil => exact h'
  | cons first _ ih => exact .cons first (ih h')

/-- A chain whose steps are chains is one chain of all the small steps. -/
theorem flatMap {f : β → List α} {cs : List β}
    (h : Chain (fun s c s' => Chain step s (f c) s') s cs s') :
    Chain step s (cs.flatMap f) s' := by
  induction h with
  | nil => exact .nil
  | cons first _ ih =>
      rw [List.flatMap_cons]
      exact first.append ih

/-- Steps of one kind give way to steps of another between the same states. -/
theorem exchange {step' : σ → β → σ → Prop} {R : α → β → Prop}
    (hstep : ∀ s a s', step s a s' → ∃ b, step' s b s' ∧ R a b) (h : Chain step s as s') :
    ∃ bs, Chain step' s bs s' ∧ List.Forall₂ R as bs := by
  induction h with
  | nil => exact ⟨[], .nil, .nil⟩
  | cons first _ ih =>
      obtain ⟨b, hb, hR⟩ := hstep _ _ _ first
      obtain ⟨bs, hbs, hRs⟩ := ih
      exact ⟨b :: bs, .cons hb hbs, .cons hR hRs⟩

theorem map {step' : σ → β → σ → Prop} {f : α → β}
    (hstep : ∀ s a s', step s a s' → step' s (f a) s') (h : Chain step s as s') :
    Chain step' s (as.map f) s' := by
  induction h with
  | nil => exact .nil
  | cons first _ ih => exact .cons (hstep _ _ _ first) ih

theorem mono {step' : σ → α → σ → Prop} (hstep : ∀ s a s', step s a s' → step' s a s')
    (h : Chain step s as s') : Chain step' s as s' := by
  rw [← List.map_id as]
  exact h.map hstep

theorem step_of_mem {a : α} (h : Chain step s as s') (ha : a ∈ as) : ∃ m m', step m a m' := by
  induction h with
  | nil => cases ha
  | cons first _ ih =>
      rcases List.mem_cons.1 ha with rfl | hrest
      · exact ⟨_, _, first⟩
      · exact ih hrest

/-- Steps that relate what they take to what they give relate the two lists. -/
theorem related {step : σ → α × β → σ → Prop} {R : α → β → Prop} {pairs : List (α × β)}
    (hstep : ∀ s p s', step s p s' → R p.1 p.2) (h : Chain step s pairs s') :
    List.Forall₂ R (pairs.map (·.1)) (pairs.map (·.2)) := by
  induction h with
  | nil => exact .nil
  | cons first _ ih => exact .cons (hstep _ _ _ first) ih

end Chain

/-- A relation of two lists that is a function of the second gives the first. -/
theorem forall₂_eq_map {α β : Type} {f : β → α} {as : List α} {bs : List β}
    (h : List.Forall₂ (fun a b => a = f b) as bs) : as = bs.map f := by
  induction h with
  | nil => rfl
  | cons hab _ ih => rw [hab, ih, List.map_cons]

/-- A run over a list succeeds if it is a chain of runs that do. -/
theorem Run.yields_mapM {α β : Type} {f : α → Run β} {as : List α} {bs : List β}
    {r r' : Registry} :
    Yields (as.mapM f) r bs r' ↔
      ∃ pairs : List (α × β), Chain (fun r p r' => Yields (f p.1) r p.2 r') r pairs r' ∧
        as = pairs.map (·.1) ∧ bs = pairs.map (·.2) := by
  constructor
  · intro h
    induction as generalizing r bs with
    | nil =>
        obtain ⟨rfl, rfl⟩ := yields_mapM_nil.1 h
        exact ⟨[], .nil, rfl, rfl⟩
    | cons a as ih =>
        obtain ⟨b, m, rest, hb, hrest, rfl⟩ := yields_mapM_cons.1 h
        obtain ⟨pairs, hpairs, rfl, rfl⟩ := ih hrest
        exact ⟨(a, b) :: pairs, .cons hb hpairs, rfl, rfl⟩
  · intro h
    obtain ⟨pairs, hpairs, rfl, rfl⟩ := h
    induction hpairs with
    | nil => exact yields_mapM_nil.2 ⟨rfl, rfl⟩
    | cons first _ ih => exact yields_mapM_cons.2 ⟨_, _, _, first, ih, rfl⟩

end TypedClient
