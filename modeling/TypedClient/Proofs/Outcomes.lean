import Mathlib.Data.List.Forall2
import TypedClient.Emit.Generation

/-!
# Taking computations apart

Everything that may fail is a bind of smaller things that may fail. The lemmas
here read such a bind backwards, from its outcome to the outcomes of its parts,
so that later files never unfold a monad. There are two monads: `Except`, and
`Run`, which threads the registry of enums through.

`Yields x r a r'` says that a run from the registry `r` succeeds with `a` and
leaves `r'`. Its lemmas are equivalences, one for each way to build a run.
-/

namespace TypedClient

/-! ## Results -/

theorem bind_eq_ok {ε α β : Type} {x : Except ε α} {f : α → Except ε β} {b : β} :
    x >>= f = .ok b ↔ ∃ a, x = .ok a ∧ f a = .ok b := by
  cases x <;> simp [bind, Except.bind]

theorem bind_eq_error {ε α β : Type} {x : Except ε α} {f : α → Except ε β} {e : ε} :
    x >>= f = .error e ↔ x = .error e ∨ ∃ a, x = .ok a ∧ f a = .error e := by
  cases x <;> simp [bind, Except.bind]

theorem pure_eq_ok {ε α : Type} {a b : α} : (pure a : Except ε α) = .ok b ↔ a = b := by
  simp [pure, Except.pure]

theorem map_eq_ok {ε α β : Type} {x : Except ε α} {f : α → β} {b : β} :
    x.map f = .ok b ↔ ∃ a, x = .ok a ∧ f a = b := by
  cases x <;> simp [Except.map]

theorem map_eq_error {ε α β : Type} {x : Except ε α} {f : α → β} {e : ε} :
    x.map f = .error e ↔ x = .error e := by
  cases x <;> simp [Except.map]

theorem mapError_eq_ok {ε ε' α : Type} {x : Except ε α} {f : ε → ε'} {a : α} :
    x.mapError f = .ok a ↔ x = .ok a := by
  cases x <;> simp [Except.mapError]

/-- Going through a list succeeds if every step does, with the results in order. -/
theorem mapM_eq_ok {ε α β : Type} {f : α → Except ε β} {as : List α} {bs : List β} :
    as.mapM f = .ok bs ↔ List.Forall₂ (fun a b => f a = .ok b) as bs := by
  induction as generalizing bs with
  | nil =>
      rw [List.mapM_nil, pure_eq_ok, List.forall₂_nil_left_iff, eq_comm]
  | cons a as ih =>
      rw [List.mapM_cons, List.forall₂_cons_left_iff]
      simp only [bind_eq_ok, pure_eq_ok, ih]
      constructor
      · intro h
        obtain ⟨b, hb, rest, hrest, rfl⟩ := h
        exact ⟨b, rest, hb, hrest, rfl⟩
      · intro h
        obtain ⟨b, rest, hb, hrest, rfl⟩ := h
        exact ⟨b, hb, rest, hrest, rfl⟩

theorem mapM_eq_error {ε α β : Type} {f : α → Except ε β} {as : List α} {e : ε}
    (h : as.mapM f = .error e) : ∃ a ∈ as, f a = .error e := by
  induction as with
  | nil => cases h
  | cons a as ih =>
      rw [List.mapM_cons, bind_eq_error] at h
      rcases h with h | ⟨b, _, h⟩
      · exact ⟨a, List.mem_cons_self, h⟩
      · rcases bind_eq_error.1 h with h | ⟨bs, _, h⟩
        · obtain ⟨a', hmem, ha'⟩ := ih h
          exact ⟨a', List.mem_cons_of_mem a hmem, ha'⟩
        · cases h

theorem mapM_congr₂ {ε α β γ : Type} {f : α → Except ε γ} {g : β → Except ε γ} {as : List α}
    {bs : List β} (h : List.Forall₂ (fun a b => f a = g b) as bs) : as.mapM f = bs.mapM g := by
  induction h with
  | nil => rfl
  | cons hfirst _ ih => rw [List.mapM_cons, List.mapM_cons, hfirst, ih]

theorem ofFault_eq_ok {α : Type} {x : Except Fault α} {a : α} :
    Failure.ofFault x = .ok a ↔ x = .ok a := by
  cases x <;> simp [Failure.ofFault]

theorem ofFault_eq_error {α : Type} {x : Except Fault α} {f : Failure} :
    Failure.ofFault x = .error f ↔ ∃ fault, x = .error fault ∧ f = .malformed fault := by
  cases x <;> simp [Failure.ofFault, eq_comm]

theorem ofFault_ne_schema {α : Type} (x : Except Fault α) (e : SchemaError) :
    Failure.ofFault x ≠ .error (.schema e) := by
  cases x <;> simp [Failure.ofFault]

/-- An error of the generator's own does not come from a fault, but from what follows. -/
theorem refusal_of_ofFault_bind {α β : Type} {x : Except Fault α} {f : α → Except Failure β}
    {e : SchemaError} (h : Failure.ofFault x >>= f = .error (.schema e)) :
    ∃ a, x = .ok a ∧ f a = .error (.schema e) := by
  rcases bind_eq_error.1 h with hx | ⟨a, ha, h⟩
  · exact absurd hx (ofFault_ne_schema x e)
  · exact ⟨a, ofFault_eq_ok.1 ha, h⟩

/-! ## Two computations -/

/-- Both computations fail for one reason, or both succeed with related results. -/
def Agree {ε α β : Type} (R : α → β → Prop) : Except ε α → Except ε β → Prop
  | .ok a, .ok b => R a b
  | .error e, .error e' => e = e'
  | _, _ => False

namespace Agree

variable {ε α β γ δ : Type} {R : α → β → Prop} {Q : γ → δ → Prop}

theorem refl {R : α → α → Prop} (hR : ∀ a, R a a) (x : Except ε α) : Agree R x x := by
  cases x with
  | error e => rfl
  | ok a => exact hR a

theorem cases {x : Except ε α} {y : Except ε β} (h : Agree R x y) :
    (∃ e, x = .error e ∧ y = .error e) ∨ ∃ a b, x = .ok a ∧ y = .ok b ∧ R a b := by
  cases x with
  | error e =>
      cases y with
      | error e' => exact .inl ⟨e, rfl, congrArg Except.error h.symm⟩
      | ok b => exact h.elim
  | ok a =>
      cases y with
      | error e' => exact h.elim
      | ok b => exact .inr ⟨a, b, rfl, rfl, h⟩

theorem bind {x : Except ε α} {y : Except ε β} {f : α → Except ε γ} {h : β → Except ε δ}
    (hxy : Agree R x y) (hnext : ∀ a b, R a b → Agree Q (f a) (h b)) :
    Agree Q (x >>= f) (y >>= h) := by
  cases x with
  | error e =>
      cases y with
      | error e' => exact hxy
      | ok b => exact hxy.elim
  | ok a =>
      cases y with
      | error e' => exact hxy.elim
      | ok b => exact hnext a b hxy

theorem imp {R' : α → β → Prop} (hR : ∀ a b, R a b → R' a b) {x : Except ε α} {y : Except ε β}
    (h : Agree R x y) : Agree R' x y := by
  cases x with
  | error e =>
      cases y with
      | error e' => exact h
      | ok b => exact h.elim
  | ok a =>
      cases y with
      | error e' => exact h.elim
      | ok b => exact hR a b h

theorem ofFault {x : Except Fault α} {y : Except Fault β} (h : Agree R x y) :
    Agree R (Failure.ofFault x) (Failure.ofFault y) := by
  cases x with
  | error e =>
      cases y with
      | error e' => exact congrArg Failure.malformed h
      | ok b => exact h.elim
  | ok a =>
      cases y with
      | error e' => exact h.elim
      | ok b => exact h

end Agree

/-! ## Runs -/

/-- A run from a registry succeeds with a result and leaves a registry. -/
def Run.Yields {α : Type} (x : Run α) (r : Registry) (a : α) (r' : Registry) : Prop :=
  (x.run.run r : Except Failure α × Registry) = (.ok a, r')

theorem ok_of_any {α : Type} {outcome : Except Failure α × Registry} {p : α → Bool}
    (h : outcome.1.toOption.any p = true) : ∃ a r, outcome = (.ok a, r) ∧ p a = true := by
  obtain ⟨result, r⟩ := outcome
  cases result with
  | error e => cases h
  | ok a => exact ⟨a, r, rfl, h⟩

namespace Run

variable {α β : Type} {r r' : Registry}

theorem yields_ofResult {x : Except Failure α} {a : α} :
    Yields (ofResult x) r a r' ↔ x = .ok a ∧ r = r' := by
  change (x, r) = (.ok a, r') ↔ _
  rw [Prod.mk.injEq]

theorem yields_ofFault {x : Except Fault α} {a : α} :
    Yields (ofFault x) r a r' ↔ x = .ok a ∧ r = r' := by
  rw [ofFault, yields_ofResult, ofFault_eq_ok]

theorem yields_pure {a b : α} : Yields (pure a) r b r' ↔ a = b ∧ r = r' := by
  change ((.ok a, r) : Except Failure α × Registry) = (.ok b, r') ↔ _
  rw [Prod.mk.injEq, Except.ok.injEq]

theorem yields_get {a : Registry} : Yields get r a r' ↔ r = a ∧ r = r' := by
  change ((.ok r, r) : Except Failure Registry × Registry) = (.ok a, r') ↔ _
  rw [Prod.mk.injEq, Except.ok.injEq]

theorem yields_set {s : Registry} {u : PUnit} : Yields (set s) r u r' ↔ s = r' := by
  change ((.ok ⟨⟩, s) : Except Failure PUnit × Registry) = (.ok u, r') ↔ _
  rw [Prod.mk.injEq, Except.ok.injEq]
  exact and_iff_right rfl

theorem yields_modify {f : Registry → Registry} {u : PUnit} :
    Yields (modify f) r u r' ↔ f r = r' := by
  change ((.ok ⟨⟩, f r) : Except Failure PUnit × Registry) = (.ok u, r') ↔ _
  rw [Prod.mk.injEq, Except.ok.injEq]
  exact and_iff_right rfl

theorem not_yields_throw {e : Failure} {a : α} : ¬ Yields (throw e) r a r' := by
  change ((.error e, r) : Except Failure α × Registry) ≠ (.ok a, r')
  simp

theorem run_bind {ε σ : Type} (x : ExceptT ε (StateM σ) α) (f : α → ExceptT ε (StateM σ) β)
    (s : σ) :
    (x >>= f).run.run s = match x.run.run s with
      | (.ok a, m) => (f a).run.run m
      | (.error e, m) => (.error e, m) := by
  change (match x.run.run s with
    | (result, m) => ExceptT.bindCont f result m) = _
  cases x.run.run s with
  | mk result m => cases result <;> rfl

theorem run_ofResult_bind (x : Except Failure α) (f : α → Run β) (r : Registry) :
    (ofResult x >>= f).run.run r = match x with
      | .ok a => (f a).run.run r
      | .error e => (.error e, r) := by
  rw [run_bind]
  cases x <;> rfl

theorem yields_bind {x : Run α} {f : α → Run β} {b : β} :
    Yields (x >>= f) r b r' ↔ ∃ a m, x.Yields r a m ∧ (f a).Yields m b r' := by
  rw [Yields, run_bind]
  cases hx : x.run.run r with
  | mk result m =>
      cases result with
      | error e =>
          constructor
          · intro h
            cases h
          · intro h
            obtain ⟨a, m', ha, _⟩ := h
            rw [Yields, hx] at ha
            cases ha
      | ok a =>
          constructor
          · intro h
            exact ⟨a, m, hx, h⟩
          · intro h
            obtain ⟨a', m', ha, h⟩ := h
            rw [Yields, hx] at ha
            cases ha
            exact h

theorem yields_mapM_nil {f : α → Run β} {bs : List β} :
    Yields ([].mapM f) r bs r' ↔ bs = [] ∧ r = r' := by
  rw [List.mapM_nil, yields_pure, eq_comm]

theorem yields_mapM_cons {f : α → Run β} {a : α} {as : List α} {bs : List β} :
    Yields ((a :: as).mapM f) r bs r' ↔
      ∃ b m rest, (f a).Yields r b m ∧ (as.mapM f).Yields m rest r' ∧ bs = b :: rest := by
  rw [List.mapM_cons]
  simp only [yields_bind, yields_pure]
  constructor
  · intro h
    obtain ⟨b, m, hb, rest, m', hrest, rfl, rfl⟩ := h
    exact ⟨b, m, rest, hb, hrest, rfl⟩
  · intro h
    obtain ⟨b, m, rest, hb, hrest, rfl⟩ := h
    exact ⟨b, m, hb, rest, r', hrest, rfl, rfl⟩

end Run

namespace Run

variable {α β γ δ : Type} {R : α → β → Prop} {Q : γ → δ → Prop}

/-- From every registry two runs agree and leave one registry. -/
def Agrees (R : α → β → Prop) (x : Run α) (y : Run β) : Prop :=
  ∀ r, Agree R (x.run.run r).1 (y.run.run r).1 ∧ (x.run.run r).2 = (y.run.run r).2

namespace Agrees

theorem refl {R : α → α → Prop} (hR : ∀ a, R a a) (x : Run α) : Agrees R x x :=
  fun _ => ⟨.refl hR _, rfl⟩

theorem ofResult {x : Except Failure α} {y : Except Failure β} (h : Agree R x y) :
    Agrees R (ofResult x) (ofResult y) :=
  fun _ => ⟨h, rfl⟩

theorem ofFault {x : Except Fault α} {y : Except Fault β} (h : Agree R x y) :
    Agrees R (ofFault x) (ofFault y) :=
  .ofResult h.ofFault

theorem pure {a : α} {b : β} (h : R a b) : Agrees R (pure a) (pure b) :=
  fun _ => ⟨h, rfl⟩

theorem bind {x : Run α} {y : Run β} {f : α → Run γ} {h : β → Run δ} (hxy : Agrees R x y)
    (hnext : ∀ a b, R a b → Agrees Q (f a) (h b)) : Agrees Q (x >>= f) (y >>= h) := by
  intro r
  have hr := hxy r
  rw [run_bind, run_bind]
  cases hx : x.run.run r with
  | mk result m =>
      cases hy : y.run.run r with
      | mk result' m' =>
          rw [hx, hy] at hr
          obtain ⟨hagree, rfl⟩ := hr
          cases result with
          | error e =>
              cases result' with
              | error e' => exact ⟨hagree, rfl⟩
              | ok b => exact hagree.elim
          | ok a =>
              cases result' with
              | error e' => exact hagree.elim
              | ok b => exact hnext a b hagree m

theorem mapM {f : α → Run γ} {h : α → Run δ} (hstep : ∀ a, Agrees Q (f a) (h a)) (as : List α) :
    Agrees (List.Forall₂ Q) (as.mapM f) (as.mapM h) := by
  induction as with
  | nil => exact .pure .nil
  | cons a as ih =>
      rw [List.mapM_cons, List.mapM_cons]
      exact (hstep a).bind fun _ _ hfirst => ih.bind fun _ _ hrest => .pure (.cons hfirst hrest)

end Agrees

end Run

end TypedClient
