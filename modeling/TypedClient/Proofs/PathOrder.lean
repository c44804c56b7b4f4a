import Mathlib.Data.List.Perm.Basic
import Mathlib.Data.List.Sort
import TypedClient.Proofs.LookUps
import TypedClient.Proofs.OperationIds
import TypedClient.Proofs.OperationsAlike
import TypedClient.Proofs.ParameterLists

/-!
# The order of paths

Paths are met in the order of the document, and three things could let that
order through into the generated files: the numbers in identifiers, the order of
operations and groups, and the order in which enums are registered. Identifiers
have no numbers if their bases are different, and then the operations are a
rearrangement of one another. Sorting undoes it, because a path and a method
belong to one operation only, and after that the two runs go the same way.

The two documents have two mappings of paths, with the same entries. A pointer
can lead to that mapping itself, so the operations need not be equal: where one
has the first mapping as a schema, the other has the second. Such values are
`Twin`s, which nothing tells apart by looking keys up.
-/

namespace TypedClient

variable {store : Store}

/-- Two documents that differ in their mappings of paths, which differ in the
order of their entries. -/
structure Rearranged (store : Store) (d d' p p' : Nat) : Prop where
  paths : store.get d "paths" = .mapping p
  paths' : store.get d' "paths" = .mapping p'
  others : ∀ key, key ≠ "paths" → store.find? d key = store.find? d' key
  entries : (store.entries p).Perm (store.entries p')
  distinct : ((store.entries p).map fun entry => entry.1.plain).Nodup

theorem Rearranged.symm {d d' p p' : Nat} (h : Rearranged store d d' p p') :
    Rearranged store d' d p' p where
  paths := h.paths'
  paths' := h.paths
  others := fun key hkey => (h.others key hkey).symm
  entries := h.entries.symm
  distinct := (h.entries.map _).nodup_iff.1 h.distinct

/-! ## Twins -/

/-- Values that look-ups of keys do not tell apart. -/
def Twin (store : Store) (v v' : Value) : Prop :=
  v = v' ∨ ∃ id id', v = .mapping id ∧ v' = .mapping id' ∧
    ∀ key, store.find? id key = store.find? id' key

theorem Twin.refl (v : Value) : Twin store v v := .inl rfl

theorem Twin.option_refl (x : Option Value) : Option.Rel (Twin store) x x := by
  cases x with
  | none => exact .none
  | some v => exact .some (Twin.refl v)

/-- A mapping has mappings for its twins. -/
theorem Twin.mapping {id : Nat} {v' : Value} (h : Twin store (.mapping id) v') :
    ∃ id', v' = .mapping id' ∧ ∀ key, store.find? id key = store.find? id' key := by
  rcases h with rfl | ⟨_, id', hid, rfl, hfind⟩
  · exact ⟨id, rfl, fun _ => rfl⟩
  · cases hid
    exact ⟨id', rfl, hfind⟩

theorem get_of_find {id id' : Nat} (h : ∀ key, store.find? id key = store.find? id' key)
    (key : String) : store.get id key = store.get id' key :=
  congrArg (·.getD .null) (h key)

theorem Pointer.keys_ne_nil {reference : String} {pointer : Pointer}
    (h : Pointer.ofText? reference = some pointer) : pointer.keys ≠ [] := by
  rw [Pointer.ofText?] at h
  split at h
  · rw [Option.some.injEq] at h
    rw [← h]
    exact List.map_eq_nil_iff.not.2 (Text.piecesAt_ne_nil _ _)
  · cases h

theorem follow_twin (keys : List String) {v v' : Value} (h : Twin store v v') :
    Option.Rel (Twin store) (Pointer.follow store keys v) (Pointer.follow store keys v') := by
  cases keys with
  | nil => exact .some h
  | cons key rest =>
      rcases h with rfl | ⟨id, id', rfl, rfl, hfind⟩
      · exact Twin.option_refl _
      · rw [Pointer.follow, Pointer.follow, hfind]
        exact Twin.option_refl _

theorem follow_bind_twin (keys : List String) {x y : Option Value}
    (h : Option.Rel (Twin store) x y) :
    Option.Rel (Twin store) (x.bind (Pointer.follow store keys))
      (y.bind (Pointer.follow store keys)) := by
  cases h with
  | none => exact .none
  | some htwin => exact follow_twin keys htwin

theorem getD_twin {x y : Option Value} (h : Option.Rel (Twin store) x y) :
    Twin store (x.getD .null) (y.getD .null) := by
  cases h with
  | none => exact Twin.refl _
  | some htwin => exact htwin

namespace Rearranged

variable {d d' p p' : Nat}

theorem find_paths (h : Rearranged store d d' p p') (key : String) :
    store.find? p key = store.find? p' key :=
  have hone : (store.entries p).SingleValued key := fun _ _ hv hw =>
    (Prod.mk.inj (List.inj_on_of_nodup_map h.distinct hv hw rfl)).2
  (hone.value?_perm h.entries.symm).symm

theorem find_twin (h : Rearranged store d d' p p') (key : String) :
    Option.Rel (Twin store) (store.find? d key) (store.find? d' key) := by
  by_cases hkey : key = "paths"
  · subst hkey
    rw [Store.find_of_get h.paths (by simp [Value.null]),
      Store.find_of_get h.paths' (by simp [Value.null])]
    exact .some (.inr ⟨p, p', rfl, rfl, h.find_paths⟩)
  · rw [h.others key hkey]
    exact Twin.option_refl _

/-- No pointer leads to the document itself, so what one leads to has a twin. -/
theorem resolvePointer_twin (h : Rearranged store d d' p p') (reference : String) :
    Twin store (resolvePointer store reference (.mapping d))
      (resolvePointer store reference (.mapping d')) := by
  rw [resolvePointer, resolvePointer]
  cases hpointer : Pointer.ofText? reference with
  | none => exact Twin.refl _
  | some pointer =>
      rw [Option.bind_some, Option.bind_some]
      cases hkeys : pointer.keys with
      | nil => exact absurd hkeys (Pointer.keys_ne_nil hpointer)
      | cons key rest => exact getD_twin (follow_bind_twin rest (h.find_twin key))

theorem dereference_twin (h : Rearranged store d d' p p') (v : Value) :
    Twin store (dereference store v (.mapping d)) (dereference store v (.mapping d')) := by
  cases v with
  | scalar s | sequence id | typed kind id => exact Twin.refl _
  | mapping id =>
      rw [dereference, dereference]
      cases (store.get id "$ref").text? with
      | none => exact Twin.refl _
      | some reference =>
          have htwin := h.resolvePointer_twin reference
          dsimp only
          rcases htwin with heq | ⟨target, target', htarget, htarget', hfind⟩
          · rw [heq]
            exact Twin.refl _
          · rw [htarget, htarget']
            exact .inr ⟨target, target', rfl, rfl, hfind⟩

end Rearranged

/-! ## Operations of the two documents -/

section Operations

variable {document document' : Value}
  (h : ∀ v, Twin store (dereference store v document) (dereference store v document'))

theorem ofMapping_like {id id' : Nat} (hfind : ∀ key, store.find? id key = store.find? id' key)
    (name location : String) :
    (Parameter.ofMapping store name location id).Like (Alike store)
      (Parameter.ofMapping store name location id') := by
  have hget := get_of_find hfind
  constructor
  · rfl
  · rfl
  · simp only [Parameter.ofMapping, hget]
  · simp only [Parameter.ofMapping, hget]
  · exact alike_of_entries hget

include h

theorem named_twin {raw : Value} {id : Nat} {name : String}
    (hnamed : Parameter.named store document raw = .ok (id, name)) :
    ∃ id', Parameter.named store document' raw = .ok (id', name) ∧
      ∀ key, store.find? id key = store.find? id' key := by
  have htwin := h raw
  simp only [Parameter.named] at hnamed ⊢
  cases hv : dereference store raw document with
  | scalar s | sequence target | typed kind target =>
      rw [hv] at hnamed
      cases hnamed
  | mapping target =>
      rw [hv] at hnamed htwin
      obtain ⟨target', hv', hfind⟩ := htwin.mapping
      simp only [hv', ← hfind] at hnamed ⊢
      cases hname : store.find? target "name" with
      | none =>
          rw [hname] at hnamed
          cases hnamed
      | some v =>
          rw [hname] at hnamed
          cases hnamed
          exact ⟨target', rfl, hfind⟩

theorem mergeAll_like {raws : List Value} {before before' merged : List Parameter}
    (hbefore : List.Forall₂ (Parameter.Like (Alike store)) before before')
    (hmerged : Parameter.mergeAll store document raws before = .ok merged) :
    ∃ merged', Parameter.mergeAll store document' raws before' = .ok merged' ∧
      List.Forall₂ (Parameter.Like (Alike store)) merged merged' := by
  induction raws generalizing before before' with
  | nil =>
      cases hmerged
      exact ⟨before', rfl, hbefore⟩
  | cons raw rest ih =>
      obtain ⟨⟨id, name⟩, hnamed, hrest⟩ := bind_eq_ok.1 hmerged
      obtain ⟨id', hnamed', hfind⟩ := named_twin h hnamed
      have hlocation : Parameter.locationOf store id = Parameter.locationOf store id' := by
        rw [Parameter.locationOf, Parameter.locationOf, hfind]
      have hnext := Parameter.merge_like
        (ofMapping_like hfind name (Parameter.locationOf store id)) hbefore
      obtain ⟨merged', hmerged', hlike⟩ := ih hnext hrest
      rw [hlocation] at hmerged'
      exact ⟨merged', bind_eq_ok.2 ⟨(id', name), hnamed', hmerged'⟩, hlike⟩

theorem ofBody_twin (details : Value) :
    Parameter.ofBody store details document = Parameter.ofBody store details document' := by
  cases details with
  | scalar s | sequence id | typed kind id => rfl
  | mapping id =>
      simp only [Parameter.ofBody, Store.member]
      rcases h (store.get id "requestBody") with heq | ⟨body, body', hbody, hbody', hfind⟩
      · simp only [bind, Except.bind, heq]
      · simp only [bind, Except.bind, hbody, hbody', get_of_find hfind]

theorem collect_like {pathItem details : Value} {parameters : List Parameter}
    (hcollect : Parameter.collect store pathItem details document = .ok parameters) :
    ∃ parameters', Parameter.collect store pathItem details document' = .ok parameters' ∧
      List.Forall₂ (Parameter.Like (Alike store)) parameters parameters' := by
  obtain ⟨shared, own, merged, body, hshared, hown, hmerged, hbody, rfl⟩ :=
    Parameter.collect_eq_ok.1 hcollect
  obtain ⟨merged', hmerged', hlike⟩ := mergeAll_like h .nil hmerged
  rw [ofBody_twin h] at hbody
  refine ⟨_, Parameter.collect_eq_ok.2
    ⟨shared, own, merged', body, hshared, hown, hmerged', hbody, rfl⟩, ?_⟩
  refine Parameter.requiredFirst_like (List.rel_append hlike ?_)
  exact List.forall₂_same.2 fun p _ => Parameter.Like.refl (Alike.refl store) p

theorem schema?_like {raw : Value} {site : Option SchemaSite}
    (hschema : Response.schema? store document raw = .ok site) :
    ∃ site', Response.schema? store document' raw = .ok site' ∧
      Option.Rel (Alike store) site site' := by
  simp only [Response.schema?] at hschema ⊢
  rcases h raw with heq | ⟨id, id', hid, hid', hfind⟩
  · rw [← heq]
    refine ⟨site, hschema, ?_⟩
    cases site with
    | none => exact .none
    | some site => exact .some (Alike.refl store site)
  · have hget := get_of_find hfind
    simp only [hid, hid', hget] at hschema ⊢
    split at hschema
    · cases hschema
      rw [if_pos ‹_›]
      exact ⟨_, rfl, .some (alike_of_entries hget)⟩
    · rw [if_neg ‹_›]
      refine ⟨site, hschema, ?_⟩
      cases site with
      | none => exact .none
      | some site => exact .some (Alike.refl store site)

theorem firstSchema_like {raws : List Value} {site : Option SchemaSite}
    (hfirst : Response.firstSchema store document raws = .ok site) :
    ∃ site', Response.firstSchema store document' raws = .ok site' ∧
      Option.Rel (Alike store) site site' := by
  induction raws with
  | nil =>
      cases hfirst
      exact ⟨none, rfl, .none⟩
  | cons raw rest ih =>
      obtain ⟨found, hfound, hnext⟩ := bind_eq_ok.1 hfirst
      obtain ⟨found', hfound', hrel⟩ := schema?_like h hfound
      cases hrel with
      | none =>
          obtain ⟨site', hsite', hlike⟩ := ih hnext
          exact ⟨site', bind_eq_ok.2 ⟨none, hfound', hsite'⟩, hlike⟩
      | @some first first' hlike =>
          cases hnext
          exact ⟨some first', bind_eq_ok.2 ⟨some first', hfound', rfl⟩, .some hlike⟩

theorem success_like {details : Value} {site : Option SchemaSite}
    (hsuccess : Response.success store details document = .ok site) :
    ∃ site', Response.success store details document' = .ok site' ∧
      Option.Rel (Alike store) site site' := by
  obtain ⟨responses, hresponses, hfirst⟩ := bind_eq_ok.1 hsuccess
  cases responses with
  | scalar s | sequence id | typed kind id =>
      cases hfirst
      exact ⟨none, bind_eq_ok.2 ⟨_, hresponses, rfl⟩, .none⟩
  | mapping id =>
      obtain ⟨site', hsite', hlike⟩ := firstSchema_like h hfirst
      exact ⟨site', bind_eq_ok.2 ⟨_, hresponses, hsite'⟩, hlike⟩

theorem built_like {shared : List Value} {found : Operation.Endpoint × String} {op : Operation}
    (hbuilt : Operation.Built store document shared found op) :
    ∃ op', Operation.Built store document' shared found op' ∧ op.Like (Alike store) op' := by
  obtain ⟨group, parameters, response, security, hgroup, hparameters, hresponse, hsecurity,
    rfl⟩ := Operation.ofDetails_eq_ok.1 hbuilt
  obtain ⟨parameters', hparameters', hlike⟩ := collect_like h hparameters
  obtain ⟨response', hresponse', hsites⟩ := success_like h hresponse
  refine ⟨_, Operation.ofDetails_eq_ok.2 ⟨group, parameters', response', security, hgroup,
    hparameters', hresponse', hsecurity, rfl⟩, ?_⟩
  exact ⟨rfl, rfl, rfl, rfl, rfl, rfl, hlike, hsites, rfl⟩

end Operations

/-! ## Building -/

namespace Operation

theorem uses_of_nodup {earlier bases : List String} (h : (earlier ++ bases).Nodup) :
    uses earlier bases = bases.map fun base => (base, 1) := by
  induction bases generalizing earlier with
  | nil => rfl
  | cons base rest ih =>
      have hnew : base ∉ earlier := by
        intro hmem
        exact (List.nodup_append.1 h).2.2 base hmem base List.mem_cons_self rfl
      have hrest : (base :: earlier ++ rest).Nodup := by
        rw [List.cons_append]
        exact List.perm_middle.nodup_iff.1 h
      rw [uses, List.count_eq_zero_of_not_mem hnew, List.map_cons, ih hrest]

/-- Different bases are identifiers as they are. -/
theorem uniqueIds_of_nodup {bases : List String} (h : bases.Nodup) :
    uniqueIds [] bases = bases := by
  have hempty : Tallies [] [] := fun base => rfl
  have hearlier : ([] ++ bases).Nodup := h
  rw [uniqueIds_eq bases hempty, uses_of_nodup hearlier, List.map_map]
  refine List.map_id'' (fun base => ?_) bases
  rw [Function.comp_apply, numbered, serial, if_pos (Nat.le_refl 1), String.append_empty]

/-- What an operation has for itself: the text of its path, and its method. -/
def Endpoint.place (e : Endpoint) : String × String := (e.path.plain, e.method)

theorem mem_endpointsOf {entry : Scalar × Value} {e : Endpoint}
    (h : e ∈ endpointsOf store entry) : e.path = entry.1 ∧ e.method ∈ httpMethods := by
  rw [endpointsOf] at h
  split at h
  · obtain ⟨method, hmethod, hsome⟩ := List.mem_filterMap.1 h
    split at hsome
    · cases hsome
      exact ⟨rfl, hmethod⟩
    · cases hsome
  · cases h

theorem endpointsOf_places (entry : Scalar × Value) :
    ((endpointsOf store entry).map Endpoint.place).Nodup := by
  obtain ⟨path, item⟩ := entry
  cases item with
  | scalar s | sequence id | typed kind id => exact List.nodup_nil
  | mapping id =>
      have hmethods : httpMethods.Nodup := by decide
      simp only [endpointsOf, List.map_filterMap]
      refine hmethods.filterMap fun method method' place hplace hplace' => ?_
      obtain ⟨e, he, rfl⟩ := Option.map_eq_some_iff.1 hplace
      obtain ⟨e', he', hsame⟩ := Option.map_eq_some_iff.1 hplace'
      split at he <;> cases he
      split at he' <;> cases he'
      exact (Prod.mk.inj hsame).2.symm

theorem endpoints_places {paths : Entries}
    (h : (paths.map fun entry => entry.1.plain).Nodup) :
    ((endpoints store paths).map Endpoint.place).Nodup := by
  rw [endpoints, List.map_flatMap, List.nodup_flatMap]
  refine ⟨fun entry _ => endpointsOf_places entry, ?_⟩
  rw [List.Nodup, List.pairwise_map] at h
  refine h.imp fun {first second} hdifferent => ?_
  intro place hfirst hsecond
  obtain ⟨e, he, rfl⟩ := List.mem_map.1 hfirst
  obtain ⟨e', he', hsame⟩ := List.mem_map.1 hsecond
  refine hdifferent ?_
  rw [← (mem_endpointsOf he).1, ← (mem_endpointsOf he').1]
  exact (congrArg Prod.fst hsame).symm

/-- An endpoint is built under its base. -/
def BuiltAlone (store : Store) (document : Value) (shared : List Value) (e : Endpoint)
    (op : Operation) : Prop :=
  Built store document shared (e, baseId store e.path e.method e.details) op

/-- With different bases, every endpoint is built on its own. -/
theorem build_of_nodup {document : Value} {operations : List Operation} {paths : Entries}
    (hpaths : (store.member document "paths" >>= store.entriesOrNone) = .ok paths)
    (hbases : (bases store paths).Nodup) :
    build store document = .ok operations ↔ ∃ shared unsorted,
      (store.member document "security" >>= store.iterateOrNone) = .ok shared ∧
      List.Forall₂ (BuiltAlone store document shared) (endpoints store paths) unsorted ∧
      operations = unsorted.mergeSort precedes := by
  have hids : idsOf store (endpoints store paths) =
      (endpoints store paths).map fun e => baseId store e.path e.method e.details :=
    uniqueIds_of_nodup hbases
  rw [build_eq_ok]
  constructor
  · intro h
    obtain ⟨shared, found, unsorted, hshared, hfound, hbuilt, hsorted⟩ := h
    cases hpaths.symm.trans hfound
    rw [hids, ← List.map_prod_left_eq_zip, List.forall₂_map_left_iff] at hbuilt
    exact ⟨shared, unsorted, hshared, hbuilt, hsorted⟩
  · intro h
    obtain ⟨shared, unsorted, hshared, hbuilt, hsorted⟩ := h
    refine ⟨shared, paths, unsorted, hshared, hpaths, ?_, hsorted⟩
    rw [hids, ← List.map_prod_left_eq_zip, List.forall₂_map_left_iff]
    exact hbuilt

theorem builtAlone_places {document : Value} {shared : List Value} {found : List Endpoint}
    {operations : List Operation}
    (h : List.Forall₂ (BuiltAlone store document shared) found operations) :
    operations.map (fun op => (op.path, op.method)) = found.map Endpoint.place := by
  induction h with
  | nil => rfl
  | cons hop _ ih =>
      obtain ⟨_, hpath, hmethod⟩ := ofDetails_fields hop
      rw [List.map_cons, List.map_cons, ih, hpath, hmethod, Endpoint.place]

/-! ## Sorting

Operations with places of their own are sorted in one way only. -/

/-- Operations with places of their own, each with one of the methods. -/
structure Placed (operations : List Operation) : Prop where
  apart : (operations.map fun op => (op.path, op.method)).Nodup
  methods : ∀ op ∈ operations, op.method ∈ httpMethods

theorem builtAlone_placed {document : Value} {shared : List Value} {paths : Entries}
    {operations : List Operation} (h : (paths.map fun entry => entry.1.plain).Nodup)
    (hbuilt : List.Forall₂ (BuiltAlone store document shared) (endpoints store paths) operations) :
    Placed operations := by
  have hplaces := builtAlone_places hbuilt
  constructor
  · rw [hplaces]
    exact endpoints_places h
  · intro op hop
    have hplace : (op.path, op.method) ∈ (endpoints store paths).map Endpoint.place := by
      rw [← hplaces]
      exact List.mem_map_of_mem hop
    obtain ⟨e, he, hsame⟩ := List.mem_map.1 hplace
    obtain ⟨entry, _, hentry⟩ := List.mem_flatMap.1 he
    have hmethod := (mem_endpointsOf hentry).2
    rwa [← show e.method = op.method from congrArg Prod.snd hsame]

theorem Placed.eq_of_precedes {operations : List Operation} (h : Placed operations)
    {a b : Operation} (ha : a ∈ operations) (hb : b ∈ operations)
    (hab : precedes a b = true) (hba : precedes b a = true) : a = b := by
  rw [precedes_iff] at hab hba
  have hgroup : a.group = b.group := by
    rcases hab with hbefore | ⟨hgroup, _⟩
    · rcases hba with hafter | ⟨hgroup, _⟩
      · exact absurd hafter (Bool.eq_false_iff.1 (Text.not_before_of_before hbefore))
      · exact hgroup.symm
    · exact hgroup
  rw [hgroup, Text.before_irrefl] at hab hba
  obtain ⟨_, hab⟩ := hab.resolve_left Bool.false_ne_true
  obtain ⟨_, hba⟩ := hba.resolve_left Bool.false_ne_true
  have hplace : a.path = b.path ∧ methodIndex a.method = methodIndex b.method := by
    rcases hab with hbefore | ⟨hpath, hle⟩
    · rcases hba with hafter | ⟨hpath, _⟩
      · exact absurd hafter (Bool.eq_false_iff.1 (Text.not_before_of_before hbefore))
      · exact absurd (hpath ▸ hbefore) (Bool.eq_false_iff.1 (Text.before_irrefl _))
    · rcases hba with hafter | ⟨_, hge⟩
      · exact absurd (hpath ▸ hafter) (Bool.eq_false_iff.1 (Text.before_irrefl _))
      · exact ⟨hpath, Nat.le_antisymm hle hge⟩
  have hmethod : a.method = b.method := (List.idxOf_inj (h.methods a ha)).1 hplace.2
  exact List.inj_on_of_nodup_map h.apart ha hb (by rw [hplace.1, hmethod])

theorem Placed.sort_eq {operations operations' : List Operation} (h : Placed operations)
    (hperm : operations.Perm operations') :
    operations.mergeSort precedes = operations'.mergeSort precedes := by
  have hsorted := List.pairwise_mergeSort precedes_trans precedes_total
  have hperm' : (operations.mergeSort precedes).Perm (operations'.mergeSort precedes) :=
    (List.mergeSort_perm _ _).trans (hperm.trans (List.mergeSort_perm _ _).symm)
  refine List.Perm.eq_of_pairwise ?_ (hsorted operations) (hsorted operations') hperm'
  intro a b ha hb
  rw [List.mem_mergeSort] at ha hb
  exact h.eq_of_precedes ha (hperm.mem_iff.2 hb)

/-- Sorting looks at nothing in which operations that are alike differ. -/
theorem mergeSort_like {S : SchemaSite → SchemaSite → Prop} {operations operations' : List Operation}
    (h : List.Forall₂ (Operation.Like S) operations operations') :
    List.Forall₂ (Operation.Like S) (operations.mergeSort precedes)
      (operations'.mergeSort precedes) := by
  refine forall₂_mergeSort (fun a b a' b' hab hab' => ?_) h
  rw [precedes, precedes, hab.group, hab.path, hab.method, hab'.group, hab'.path, hab'.method]

end Operation

/-! ## Clients of the two documents -/

/-- What is related to the elements of a list is exchanged for something else that is. -/
theorem forall₂_exchange {α β γ : Type} {R : α → β → Prop} {R' : α → γ → Prop}
    {L : β → γ → Prop} (hstep : ∀ a b, R a b → ∃ c, R' a c ∧ L b c) {as : List α} {bs : List β}
    (h : List.Forall₂ R as bs) : ∃ cs, List.Forall₂ R' as cs ∧ List.Forall₂ L bs cs := by
  induction h with
  | nil => exact ⟨[], .nil, .nil⟩
  | cons hab _ ih =>
      obtain ⟨c, hc, hL⟩ := hstep _ _ hab
      obtain ⟨cs, hcs, hLs⟩ := ih
      exact ⟨c :: cs, .cons hc hcs, .cons hL hLs⟩

theorem Alike.interchangeable {config : ResolverConfig} {site other : SchemaSite}
    (h : Alike store site other) :
    Interchangeable store config (fun _ _ => True) site other := by
  have hcyclic : ∀ {enterMaps : Bool} {site : SchemaSite} {e : SchemaError},
      descendSite store enterMaps config.budget site = .error e →
      ∃ depth : Nat, e = .cyclic depth none := by
    intro enterMaps site e he
    have hspec := descendSite_spec store enterMaps config.maxDepth site
    rw [ResolverConfig.budget] at he
    rw [he] at hspec
    obtain ⟨depth, _, hdepth⟩ := hspec
    exact ⟨depth, hdepth⟩
  refine interchangeable_of_descents fun enterMaps => ?_
  cases hsite : descendSite store enterMaps config.budget site with
  | ok d => exact .inl (descendSite_alike_ok h hsite).symm
  | error e =>
      cases hother : descendSite store enterMaps config.budget other with
      | ok d => exact .inl (hsite.symm.trans (descendSite_alike_ok h.symm hother))
      | error e' =>
          obtain ⟨depth, rfl⟩ := hcyclic hsite
          obtain ⟨depth', rfl⟩ := hcyclic hother
          exact .inr ⟨depth, depth', trivial, rfl, rfl⟩

namespace Rearranged

variable {d d' p p' : Nat}

theorem member_paths (h : store.get d "paths" = .mapping p) :
    (store.member (.mapping d) "paths" >>= store.entriesOrNone) = .ok (store.entries p) := by
  rw [Store.member, h]
  rfl

theorem member_others (h : Rearranged store d d' p p') {key : String} (hkey : key ≠ "paths") :
    store.member (.mapping d) key = store.member (.mapping d') key := by
  rw [Store.member, Store.member]
  exact congrArg (fun found : Option Value => Except.ok (found.getD .null)) (h.others key hkey)

theorem endpoints_perm (h : Rearranged store d d' p p') :
    (Operation.endpoints store (store.entries p)).Perm
      (Operation.endpoints store (store.entries p')) :=
  h.entries.flatMap_right _

theorem bases_nodup (h : Rearranged store d d' p p')
    (hbases : (Operation.bases store (store.entries p)).Nodup) :
    (Operation.bases store (store.entries p')).Nodup :=
  (h.endpoints_perm.map _).nodup_iff.1 hbases

theorem build_like (h : Rearranged store d d' p p')
    (hbases : (Operation.bases store (store.entries p)).Nodup) {operations : List Operation}
    (hbuild : Operation.build store (.mapping d) = .ok operations) :
    ∃ operations', Operation.build store (.mapping d') = .ok operations' ∧
      List.Forall₂ (Operation.Like (Alike store)) operations operations' := by
  obtain ⟨shared, unsorted, hshared, hbuilt, rfl⟩ :=
    (Operation.build_of_nodup (member_paths h.paths) hbases).1 hbuild
  obtain ⟨moved, hmoved, hperm⟩ := List.perm_comp_forall₂ h.endpoints_perm.symm hbuilt
  have halike : ∀ e op, Operation.BuiltAlone store (.mapping d) shared e op →
      ∃ op', Operation.BuiltAlone store (.mapping d') shared e op' ∧ op.Like (Alike store) op' :=
    fun _ _ hop => built_like h.dereference_twin hop
  obtain ⟨others, hothers, hlike⟩ := forall₂_exchange halike hmoved
  rw [h.member_others (by decide)] at hshared
  refine ⟨others.mergeSort Operation.precedes, ?_, ?_⟩
  · exact (Operation.build_of_nodup (member_paths h.paths') (h.bases_nodup hbases)).2
      ⟨shared, others, hshared, hothers, rfl⟩
  · have hplaced := Operation.builtAlone_placed h.distinct hbuilt
    rw [hplaced.sort_eq hperm.symm]
    exact Operation.mergeSort_like hlike

theorem definitions_eq (h : Rearranged store d d' p p') :
    definitions store (.mapping d) = definitions store (.mapping d') := by
  rw [definitions, definitions, h.member_others (by decide), h.member_others (by decide)]

theorem specModule_eq {g : Generation} (h : Rearranged g.store d d' p p') :
    g.specModule (.mapping d) = g.specModule (.mapping d') := by
  have hentries : g.apiEntries (.mapping d) = g.apiEntries (.mapping d') := by
    simp (disch := decide) only [Generation.apiEntries, h.member_others]
  rw [Generation.specModule, Generation.specModule, hentries]

open Run in
theorem client_yields {g : Generation} (h : Rearranged g.store d d' p p')
    (hbases : (Operation.bases g.store (g.store.entries p)).Nodup) {r after : Registry}
    {files : List GeneratedFile} (hrun : (g.client (.mapping d)).Yields r files after) :
    (g.client (.mapping d')).Yields r files after := by
  have hpaths : ∀ {id q : Nat}, g.store.get id "paths" = .mapping q →
      g.store.member (.mapping id) "paths" = .ok (.mapping q) := by
    intro id q hget
    rw [Store.member, hget]
  have htypes : g.typesModule (.mapping d) = g.typesModule (.mapping d') := by
    rw [Generation.typesModule, Generation.typesModule, h.definitions_eq]
  rw [Generation.client, hpaths h.paths, h.specModule_eq, htypes, yields_bind] at hrun
  rw [Generation.client, hpaths h.paths', yields_bind]
  obtain ⟨paths, _, hfound, hrun⟩ := hrun
  obtain ⟨hfound, rfl⟩ := yields_ofFault.1 hfound
  cases hfound
  refine ⟨.mapping p', r, yields_ofFault.2 ⟨rfl, rfl⟩, ?_⟩
  simp only [yields_bind, yields_ofResult] at hrun ⊢
  obtain ⟨u, m, hreset, spec, m', hspec, operations, _, ⟨hbuilt, rfl⟩, modules, after', hmodules,
    hrest⟩ := hrun
  obtain ⟨operations', hbuilt', hlike⟩ := h.build_like hbases hbuilt
  have hnear := Generation.operationFiles_near (fun _ _ halike => halike.interchangeable)
    (Operation.groups_like hlike)
  exact ⟨u, m, hreset, spec, m', hspec, operations', _, ⟨hbuilt', rfl⟩, modules, after',
    hnear.yields_iff.1 hmodules, hrest⟩

end Rearranged

/-- Without repeated bases, the order of paths does not matter to a run. -/
theorem client_path_order {g : Generation} {d d' p p' : Nat}
    (h : Rearranged g.store d d' p p')
    (hbases : (Operation.bases g.store (g.store.entries p)).Nodup) (r after : Registry)
    (files : List GeneratedFile) :
    g.runClient (.mapping d) r = (.ok files, after) ↔
      g.runClient (.mapping d') r = (.ok files, after) :=
  ⟨h.client_yields hbases, h.symm.client_yields (h.bases_nodup hbases)⟩

/-! Two paths in both orders. Sorting is no computation that the kernel carries out, so the
operations of the sorted document are given. -/

/-- Two documents of two paths, the first with the later path first. -/
def twoOrders : Generation where
  store := { mappings := #[
    [(.text "operationId", .text "list")], [(.text "operationId", .text "add")],
    [(.text "get", .mapping 0)], [(.text "put", .mapping 1)],
    [(.text "/pets", .mapping 2), (.text "/cats", .mapping 3)],
    [(.text "/cats", .mapping 3), (.text "/pets", .mapping 2)],
    [(.text "paths", .mapping 4)], [(.text "paths", .mapping 5)]] }
  options := { language := .js }

theorem twoOrders_rearranged : Rearranged twoOrders.store 6 7 4 5 where
  paths := rfl
  paths' := rfl
  others := by
    intro key hkey
    have hnone : ∀ q, Entries.value? [(.text "paths", .mapping q)] key = none := by
      intro q
      rw [Entries.value?_cons, if_neg]
      · rfl
      · intro hsame
        cases hsame
        exact hkey rfl
    exact (hnone 4).trans (hnone 5).symm
  entries := List.Perm.swap _ _ _
  distinct := by decide +kernel

theorem twoOrders_build :
    Operation.build twoOrders.store (.mapping 7) = .ok [
      ⟨"add", "/cats", "put", "default", "", "", [], none, []⟩,
      ⟨"list", "/pets", "get", "default", "", "", [], none, []⟩] := by
  refine Operation.build_eq_ok.2 ⟨[], [(.text "/cats", .mapping 3), (.text "/pets", .mapping 2)],
    _, rfl, rfl, ?_, (List.mergeSort_of_pairwise ?_).symm⟩
  · exact .cons rfl (.cons rfl .nil)
  · decide +kernel

/-- Both orders of two paths give one client. -/
theorem client_path_order_of_two :
    ∃ files after, twoOrders.runClient (.mapping 6) {} = (.ok files, after) ∧
      twoOrders.runClient (.mapping 7) {} = (.ok files, after) ∧ files.length = 3 := by
  have hsome : (twoOrders.runClient (.mapping 7) {}).1.toOption.any
      (fun files => files.length == 3) = true := by
    rw [Generation.runClient, Generation.client, twoOrders_build]
    decide +kernel
  obtain ⟨files, after, hrun, hlength⟩ := ok_of_any hsome
  have hbases : (Operation.bases twoOrders.store (twoOrders.store.entries 4)).Nodup := by
    decide +kernel
  refine ⟨files, after, ?_, hrun, of_decide_eq_true hlength⟩
  exact (client_path_order twoOrders_rearranged hbases {} after files).2 hrun

end TypedClient
