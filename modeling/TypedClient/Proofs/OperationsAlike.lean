import TypedClient.Proofs.ClientRuns
import TypedClient.Proofs.SchemasAlike
import TypedClient.Proofs.StraightLine

/-!
# Operations that say the same

Two operations may differ in the sites of their schemas alone. If those sites
are alike, the code that is written for the two operations is the same, and so
is whatever fails on the way, but for the depth at which a cycle is reported.
`Near` is that relation of outcomes; which depths may go together is left open,
since it depends on why the sites are alike.

The relation is carried up through the generator as far as operations reach:
the views of parameters and responses, operations, modules and their files.
-/

namespace TypedClient

variable {α β γ : Type} {D : Nat → Nat → Prop}

/-- One outcome, but that a cycle may be reported at different depths. -/
def Near (D : Nat → Nat → Prop) (x y : Except Failure α) : Prop :=
  x = y ∨ ∃ depth depth', D depth depth' ∧ x = .error (.schema (.cyclic depth none)) ∧
    y = .error (.schema (.cyclic depth' none))

/-- Runs with one outcome from every registry, but that a cycle may be reported
at different depths. What is in the registry by then is the same. -/
def Run.Near (D : Nat → Nat → Prop) (x y : Run α) : Prop :=
  ∀ r, x.run.run r = y.run.run r ∨ ∃ m depth depth', D depth depth' ∧
    x.run.run r = (.error (.schema (.cyclic depth none)), m) ∧
    y.run.run r = (.error (.schema (.cyclic depth' none)), m)

namespace Run

theorem Near.refl (x : Run α) : Near D x x := fun _ => .inl rfl

theorem Near.yields_iff {x y : Run α} (h : Near D x y) {r r' : Registry} {a : α} :
    x.Yields r a r' ↔ y.Yields r a r' := by
  rw [Yields, Yields]
  rcases h r with heq | ⟨_, _, _, _, hx, hy⟩
  · rw [heq]
  · rw [hx, hy]
    constructor <;> intro h <;> cases h

theorem Near.bind {x y : Run α} {f h : α → Run β} (hxy : Near D x y)
    (hnext : ∀ a, Near D (f a) (h a)) : Near D (x >>= f) (y >>= h) := by
  intro r
  rw [run_bind, run_bind]
  rcases hxy r with heq | ⟨m, depth, depth', hD, hx, hy⟩
  · rw [heq]
    cases y.run.run r with
    | mk result m =>
        cases result with
        | error e => exact .inl rfl
        | ok a => exact hnext a m
  · rw [hx, hy]
    exact .inr ⟨m, depth, depth', hD, rfl, rfl⟩

theorem Near.mapM {R : α → β → Prop} {f : α → Run γ} {h : β → Run γ}
    (hstep : ∀ a b, R a b → Near D (f a) (h b)) {as : List α} {bs : List β}
    (hlists : List.Forall₂ R as bs) : Near D (as.mapM f) (bs.mapM h) := by
  induction hlists with
  | nil => exact Near.refl _
  | cons hab _ ih =>
      rw [List.mapM_cons, List.mapM_cons]
      exact (hstep _ _ hab).bind fun _ => ih.bind fun _ => Near.refl _

theorem near_ofResult {x y : Except Failure α} (h : TypedClient.Near D x y) :
    Near D (ofResult x) (ofResult y) := by
  intro r
  rcases h with rfl | ⟨depth, depth', hD, rfl, rfl⟩
  · exact .inl rfl
  · exact .inr ⟨r, depth, depth', hD, rfl, rfl⟩

end Run

/-- Related lists stay related when they are sorted by what is the same in both. -/
theorem forall₂_mergeSort {R : α → β → Prop} {le : α → α → Bool} {le' : β → β → Bool}
    (hle : ∀ a b a' b', R a b → R a' b' → le a a' = le' b b') {as : List α} {bs : List β}
    (h : List.Forall₂ R as bs) : List.Forall₂ R (as.mergeSort le) (bs.mergeSort le') := by
  have hpairs : ∀ pair ∈ as.zip bs, R pair.1 pair.2 := fun pair hpair => List.forall₂_zip h hpair
  have hfirst : (as.zip bs).map Prod.fst = as := List.map_fst_zip (Nat.le_of_eq h.length_eq)
  have hsecond : (as.zip bs).map Prod.snd = bs :=
    List.map_snd_zip (Nat.le_of_eq h.length_eq.symm)
  generalize as.zip bs = pairs at hpairs hfirst hsecond
  subst hfirst hsecond
  rw [← List.map_mergeSort (r := fun x y => le x.1 y.1) (fun _ _ _ _ => rfl),
    ← List.map_mergeSort (r := fun x y => le x.1 y.1)
      (fun x hx y hy => hle _ _ _ _ (hpairs x hx) (hpairs y hy)),
    List.forall₂_map_left_iff, List.forall₂_map_right_iff, List.forall₂_same]
  exact fun pair hpair => hpairs pair (List.mem_mergeSort.1 hpair)

/-! ## Views -/

/-- Parameters that differ in the sites of their schemas, if at all. -/
structure Parameter.Like (S : SchemaSite → SchemaSite → Prop) (p q : Parameter) : Prop where
  name : p.name = q.name
  location : p.location = q.location
  required : p.required = q.required
  description : p.description = q.description
  schema : S p.schema q.schema

/-- Operations that differ in the sites of their schemas, if at all. -/
structure Operation.Like (S : SchemaSite → SchemaSite → Prop) (op op' : Operation) : Prop where
  id : op.id = op'.id
  path : op.path = op'.path
  method : op.method = op'.method
  group : op.group = op'.group
  summary : op.summary = op'.summary
  description : op.description = op'.description
  parameters : List.Forall₂ (Parameter.Like S) op.parameters op'.parameters
  response : Option.Rel S op.response op'.response
  security : op.security = op'.security

namespace Parameter

variable {S : SchemaSite → SchemaSite → Prop} {ps qs : List Parameter}

theorem Like.refl (hS : ∀ site, S site site) (p : Parameter) : p.Like S p :=
  ⟨rfl, rfl, rfl, rfl, hS _⟩

theorem merge_like {p q : Parameter} (h : p.Like S q) (hs : List.Forall₂ (Like S) ps qs) :
    List.Forall₂ (Like S) (merge p ps) (merge q qs) := by
  induction hs with
  | nil => exact .cons h .nil
  | cons hab hrest ih =>
      rw [merge, merge, ← hab.name, ← hab.location, ← h.name, ← h.location]
      split
      · exact .cons h hrest
      · exact .cons hab ih

theorem requiredFirst_like (hs : List.Forall₂ (Like S) ps qs) :
    List.Forall₂ (Like S) (requiredFirst ps) (requiredFirst qs) := by
  have hfilter : ∀ f : Bool → Bool, List.Forall₂ (Like S) (ps.filter fun p => f p.required)
      (qs.filter fun q => f q.required) := by
    intro f
    refine List.rel_filter (fun p q h => ?_) hs
    change f p.required = true ↔ f q.required = true
    rw [h.required]
  exact List.rel_append (hfilter fun b => b) (hfilter fun b => !b)

end Parameter

/-- Sites that come to the same, whatever is asked of them. -/
structure Interchangeable (store : Store) (config : ResolverConfig) (D : Nat → Nat → Prop)
    (site other : SchemaSite) : Prop where
  type : ∀ mode r, Near D (resolve store config mode r site) (resolve store config mode r other)
  name : Near D (documentType store config site) (documentType store config other)

/-- Where two descents end decides what the sites come to. -/
theorem interchangeable_of_descents {store : Store} {config : ResolverConfig}
    {site other : SchemaSite}
    (h : ∀ enterMaps, descendSite store enterMaps config.budget site =
        descendSite store enterMaps config.budget other ∨
      ∃ depth depth' : Nat, D depth depth' ∧
        descendSite store enterMaps config.budget site = .error (.cyclic depth none) ∧
        descendSite store enterMaps config.budget other = .error (.cyclic depth' none)) :
    Interchangeable store config D site other := by
  constructor
  · intro mode r
    rcases h true with heq | ⟨depth, depth', hD, hsite, hother⟩
    · exact .inl (resolve_congr heq)
    · exact .inr ⟨depth, depth', hD, by rw [resolve, hsite], by rw [resolve, hother]⟩
  · rcases h false with heq | ⟨depth, depth', hD, hsite, hother⟩
    · exact .inl (documentType_congr heq)
    · exact .inr ⟨depth, depth', hD, by rw [documentType, hsite], by rw [documentType, hother]⟩

namespace Generation

variable {g : Generation} {S : SchemaSite → SchemaSite → Prop}
  {site other : SchemaSite}

theorem typeOf_near (h : Interchangeable g.store g.config D site other) (mode : ResolutionMode) :
    Run.Near D (g.typeOf mode site) (g.typeOf mode other) := by
  intro r
  rw [typeOf_run, typeOf_run]
  rcases h.type mode r with heq | ⟨depth, depth', hD, hsite, hother⟩
  · exact .inl (by rw [heq])
  · exact .inr ⟨r, depth, depth', hD, by rw [hsite, settle], by rw [hother, settle]⟩

theorem docTypeOf_near (h : Interchangeable g.store g.config D site other) :
    Run.Near D (g.docTypeOf site) (g.docTypeOf other) :=
  Run.near_ofResult h.name

section Walk

variable (hS : ∀ site other, S site other → Interchangeable g.store g.config D site other)

include hS

theorem parameterView_near {p q : Parameter} (h : p.Like S q) :
    Run.Near D (g.parameterView p) (g.parameterView q) := by
  have hbinding : p.binding = q.binding := by rw [Parameter.binding, Parameter.binding, h.name]
  rw [parameterView, parameterView, h.name, hbinding, h.location, h.required, h.description]
  have hsites := hS _ _ h.schema
  exact (typeOf_near hsites _).bind fun _ => (docTypeOf_near hsites).bind fun _ => Run.Near.refl _

theorem returnTypes_near {site other : Option SchemaSite} (h : Option.Rel S site other) :
    Run.Near D (g.returnTypes site) (g.returnTypes other) := by
  cases h with
  | none => exact Run.Near.refl _
  | some hsome =>
      have hsites := hS _ _ hsome
      exact (typeOf_near hsites _).bind fun _ => (docTypeOf_near hsites).bind fun _ =>
        Run.Near.refl _

theorem operationView_near {op op' : Operation} (h : op.Like S op') :
    Run.Near D (g.operationView op) (g.operationView op') := by
  have hviews : Run.Near D (op.parameters.mapM g.parameterView)
      (op'.parameters.mapM g.parameterView) :=
    Run.Near.mapM (fun _ _ hlike => parameterView_near hS hlike) h.parameters
  have hentries : ∀ views, g.descriptorEntries op views = g.descriptorEntries op' views := by
    intro views
    rw [descriptorEntries, descriptorEntries, h.path, h.method, h.security]
  simp only [operationView, h.id, h.summary, h.description, hentries]
  exact hviews.bind fun _ => (returnTypes_near hS h.response).bind fun _ => Run.Near.refl _

theorem operationsModule_near {operations operations' : List Operation} (group : String)
    (h : List.Forall₂ (Operation.Like S) operations operations') :
    Run.Near D (g.operationsModule group operations) (g.operationsModule group operations') := by
  have hviews : Run.Near D (operations.mapM g.operationView)
      (operations'.mapM g.operationView) :=
    Run.Near.mapM (fun _ _ hlike => operationView_near hS hlike) h
  exact hviews.bind fun _ => Run.Near.refl _

/-- The groups of operations by name, with like operations. -/
def LikeGroups (S : SchemaSite → SchemaSite → Prop) (m m' : String × List Operation) : Prop :=
  m.1 = m'.1 ∧ List.Forall₂ (Operation.Like S) m.2 m'.2

theorem operationFiles_near {groups groups' : List (String × List Operation)}
    (h : List.Forall₂ (LikeGroups S) groups groups') :
    Run.Near D (g.operationFiles groups) (g.operationFiles groups') := by
  refine Run.Near.mapM (fun m m' hm => ?_) h
  obtain ⟨group, operations⟩ := m
  obtain ⟨group', operations'⟩ := m'
  obtain ⟨rfl, hoperations⟩ := hm
  exact (operationsModule_near hS _ hoperations).bind fun _ => Run.Near.refl _

end Walk

end Generation

/-! ## Groups -/

namespace Operation

variable {S : SchemaSite → SchemaSite → Prop}

theorem addToGroup_like {op op' : Operation} (hop : op.Like S op')
    {found found' : List (String × List Operation)}
    (h : List.Forall₂ (Generation.LikeGroups S) found found') :
    List.Forall₂ (Generation.LikeGroups S) (addToGroup op found) (addToGroup op' found') := by
  induction h with
  | nil => exact .cons ⟨hop.group, .cons hop .nil⟩ .nil
  | @cons m m' rest rest' hm hrest ih =>
      obtain ⟨group, operations⟩ := m
      obtain ⟨group', operations'⟩ := m'
      obtain ⟨rfl, hoperations⟩ := hm
      rw [addToGroup, addToGroup, ← hop.group]
      split
      · exact .cons ⟨rfl, List.rel_append hoperations (.cons hop .nil)⟩ hrest
      · exact .cons ⟨rfl, hoperations⟩ ih

theorem groups_like {operations operations' : List Operation}
    (h : List.Forall₂ (Operation.Like S) operations operations') :
    List.Forall₂ (Generation.LikeGroups S) (groups operations) (groups operations') := by
  have hfold : ∀ found found', List.Forall₂ (Generation.LikeGroups S) found found' →
      List.Forall₂ (Generation.LikeGroups S)
        (operations.foldl (fun found op => addToGroup op found) found)
        (operations'.foldl (fun found op => addToGroup op found) found') := by
    induction h with
    | nil => exact fun _ _ hfound => hfound
    | cons hop _ ih => exact fun _ _ hfound => ih _ _ (addToGroup_like hop hfound)
  exact hfold [] [] .nil

end Operation

end TypedClient
