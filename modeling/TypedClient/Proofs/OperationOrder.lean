import Mathlib.Data.List.Induction
import TypedClient.Api.Operation
import TypedClient.Proofs.Outcomes

/-!
# How operations are built, sorted and grouped

`build` goes through the endpoints of a document in order, gives each an
identifier, and sorts what comes out. `build_eq_ok` reads a successful build
backwards into these three steps, and `ofDetails_fields` says which parts of an
operation come straight from its endpoint.

Sorting matters to grouping: `groups` collects operations under a name wherever
they stand, yet since the sorted list holds each group in one piece, putting the
groups one after the other gives the list back. The invariant of the fold is
`Ascending`: group names strictly increase, and no group has a name beyond that
of the operation to come.
-/

namespace TypedClient.Operation

variable {store : Store} {document : Value}

/-! ## Building -/

/-- The security of an operation, which may be that of the document. -/
def securityOf (store : Store) (shared : List Value) (details : Nat) :
    Except Fault (List Value) :=
  let own := store.get details "security"
  if own.isNull then .ok shared else store.iterate own

theorem ofDetails_eq (shared : List Value) (path : Scalar) (pathItem details : Nat)
    (method id : String) :
    ofDetails store document shared path pathItem method details id = (do
      let group ← Failure.ofFault (groupOf store details)
      let parameters ← Parameter.collect store (.mapping pathItem) (.mapping details) document
      let response ← Failure.ofFault (Response.success store (.mapping details) document)
      let security ← Failure.ofFault (securityOf store shared details)
      return {
        id, method, group, parameters, response, security
        path := path.plain
        summary := textOf store details "summary"
        description := textOf store details "description" }) := by
  have hsecurity : ∀ next : List Value → Except Failure Operation,
      (if (store.get details "security").isNull = true then do next (← pure shared)
        else do next (← Failure.ofFault (store.iterate (store.get details "security")))) =
      Failure.ofFault (securityOf store shared details) >>= next := by
    intro next
    rw [securityOf]
    split <;> rfl
  simp only [ofDetails, hsecurity]

theorem ofDetails_eq_ok {shared : List Value} {path : Scalar} {pathItem details : Nat}
    {method id : String} {op : Operation} :
    ofDetails store document shared path pathItem method details id = .ok op ↔
      ∃ group parameters response security, groupOf store details = .ok group ∧
        Parameter.collect store (.mapping pathItem) (.mapping details) document = .ok parameters ∧
        Response.success store (.mapping details) document = .ok response ∧
        securityOf store shared details = .ok security ∧
        op = {
          id, method, group, parameters, response, security
          path := path.plain
          summary := textOf store details "summary"
          description := textOf store details "description" } := by
  simp only [ofDetails_eq, bind_eq_ok, ofFault_eq_ok, pure_eq_ok]
  constructor
  · intro h
    obtain ⟨group, hgroup, parameters, hparameters, response, hresponse, security, hown, rfl⟩ := h
    exact ⟨group, parameters, response, security, hgroup, hparameters, hresponse, hown, rfl⟩
  · intro h
    obtain ⟨group, parameters, response, security, hgroup, hparameters, hresponse, hown, rfl⟩ := h
    exact ⟨group, hgroup, parameters, hparameters, response, hresponse, security, hown, rfl⟩

theorem ofDetails_fields {shared : List Value} {e : Endpoint} {id : String} {op : Operation}
    (h : ofDetails store document shared e.path e.pathItem e.method e.details id = .ok op) :
    op.id = id ∧ op.path = e.path.plain ∧ op.method = e.method := by
  obtain ⟨_, _, _, _, _, _, _, _, rfl⟩ := ofDetails_eq_ok.1 h
  exact ⟨rfl, rfl, rfl⟩

/-- An operation of an endpoint under an identifier. -/
def Built (store : Store) (document : Value) (shared : List Value) (found : Endpoint × String)
    (op : Operation) : Prop :=
  ofDetails store document shared found.1.path found.1.pathItem found.1.method found.1.details
    found.2 = .ok op

theorem build_eq_ok {operations : List Operation} :
    build store document = .ok operations ↔
      ∃ shared paths unsorted,
        (store.member document "security" >>= store.iterateOrNone) = .ok shared ∧
        (store.member document "paths" >>= store.entriesOrNone) = .ok paths ∧
        List.Forall₂ (Built store document shared)
          ((endpoints store paths).zip (idsOf store (endpoints store paths))) unsorted ∧
        operations = unsorted.mergeSort precedes := by
  simp only [build, bind_eq_ok, ofFault_eq_ok, mapM_eq_ok, pure_eq_ok]
  constructor
  · intro h
    obtain ⟨shared, hshared, paths, hpaths, unsorted, hbuilt, rfl⟩ := h
    exact ⟨shared, paths, unsorted, hshared, hpaths, hbuilt, rfl⟩
  · intro h
    obtain ⟨shared, paths, unsorted, hshared, hpaths, hbuilt, rfl⟩ := h
    exact ⟨shared, hshared, paths, hpaths, unsorted, hbuilt, rfl⟩

theorem built_of_mem {shared : List Value} {found : List (Endpoint × String)}
    {operations : List Operation} {op : Operation}
    (h : List.Forall₂ (Built store document shared) found operations) (hop : op ∈ operations) :
    ∃ e ∈ found, Built store document shared e op := by
  induction h with
  | nil => cases hop
  | cons hfirst _ ih =>
      rcases List.mem_cons.1 hop with rfl | hrest
      · exact ⟨_, List.mem_cons_self, hfirst⟩
      · obtain ⟨e, he, hbuilt⟩ := ih hrest
        exact ⟨e, List.mem_cons_of_mem _ he, hbuilt⟩

theorem uniqueIds_length (counts : BaseCounts) (bases : List String) :
    (uniqueIds counts bases).length = bases.length := by
  induction bases generalizing counts with
  | nil => rfl
  | cons base rest ih => rw [uniqueIds, List.length_cons, ih, List.length_cons]

theorem built_ids {shared : List Value} {found : List (Endpoint × String)}
    {operations : List Operation}
    (h : List.Forall₂ (Built store document shared) found operations) :
    operations.map (·.id) = found.map (·.2) := by
  induction h with
  | nil => rfl
  | cons hop _ ih => rw [List.map_cons, List.map_cons, ih, (ofDetails_fields hop).1]

/-- The operations of a document are sorted, and had the identifiers of its
endpoints before. -/
theorem build_ids {operations : List Operation} (h : build store document = .ok operations) :
    ∃ (paths : Entries) (unsorted : List Operation),
      (store.member document "paths" >>= store.entriesOrNone) = .ok paths ∧
      operations = unsorted.mergeSort precedes ∧
      unsorted.map (·.id) = idsOf store (endpoints store paths) := by
  obtain ⟨shared, paths, unsorted, _, hpaths, hbuilt, hsorted⟩ := build_eq_ok.1 h
  refine ⟨paths, unsorted, hpaths, hsorted, ?_⟩
  have hlength : (idsOf store (endpoints store paths)).length = (endpoints store paths).length := by
    rw [idsOf, uniqueIds_length, List.length_map]
  rw [built_ids hbuilt, List.map_snd_zip (Nat.le_of_eq hlength)]

/-! ## Sorting -/

theorem precedes_iff {a b : Operation} :
    precedes a b = true ↔ Text.before a.group b.group ∨ a.group = b.group ∧
      (Text.before a.path b.path ∨
        a.path = b.path ∧ methodIndex a.method ≤ methodIndex b.method) := by
  unfold precedes
  by_cases hgroup : a.group = b.group
  · by_cases hpath : a.path = b.path
    · simp [hgroup, hpath, Text.before_irrefl]
    · simp [hgroup, hpath, Text.before_irrefl]
  · simp [hgroup]

theorem precedes_trans (a b c : Operation) (hab : precedes a b = true)
    (hbc : precedes b c = true) : precedes a c = true := by
  rw [precedes_iff] at *
  rcases hab with hab | ⟨hgroup, hab⟩
  · rcases hbc with hbc | ⟨hgroup, _⟩
    · exact .inl (Text.before_trans hab hbc)
    · exact .inl (hgroup ▸ hab)
  · rcases hbc with hbc | ⟨hgroup', hbc⟩
    · exact .inl (hgroup ▸ hbc)
    · refine .inr ⟨hgroup.trans hgroup', ?_⟩
      rcases hab with hab | ⟨hpath, hab⟩
      · rcases hbc with hbc | ⟨hpath, _⟩
        · exact .inl (Text.before_trans hab hbc)
        · exact .inl (hpath ▸ hab)
      · rcases hbc with hbc | ⟨hpath', hbc⟩
        · exact .inl (hpath ▸ hbc)
        · exact .inr ⟨hpath.trans hpath', Nat.le_trans hab hbc⟩

theorem precedes_total (a b : Operation) : (precedes a b || precedes b a) = true := by
  rw [Bool.or_eq_true, precedes_iff, precedes_iff]
  rcases Text.before_or_eq_or_after a.group b.group with hbefore | hgroup | hafter
  · exact .inl (.inl hbefore)
  · rcases Text.before_or_eq_or_after a.path b.path with hbefore | hpath | hafter
    · exact .inl (.inr ⟨hgroup, .inl hbefore⟩)
    · rcases Nat.le_total (methodIndex a.method) (methodIndex b.method) with hle | hle
      · exact .inl (.inr ⟨hgroup, .inr ⟨hpath, hle⟩⟩)
      · exact .inr (.inr ⟨hgroup.symm, .inr ⟨hpath.symm, hle⟩⟩)
    · exact .inr (.inr ⟨hgroup.symm, .inl hafter⟩)
  · exact .inr (.inl hafter)

theorem not_before_of_precedes {a b : Operation} (h : precedes a b = true) :
    Text.before b.group a.group = false := by
  rcases precedes_iff.1 h with hbefore | ⟨hgroup, _⟩
  · exact Text.not_before_of_before hbefore
  · exact hgroup ▸ Text.before_irrefl _

theorem build_sorted {operations : List Operation} (h : build store document = .ok operations) :
    operations.Pairwise fun a b => Text.before b.group a.group = false := by
  obtain ⟨_, _, unsorted, _, _, _, rfl⟩ := build_eq_ok.1 h
  exact (List.pairwise_mergeSort precedes_trans precedes_total unsorted).imp
    not_before_of_precedes

/-! ## Grouping -/

/-- Groups whose names strictly increase, each with operations of its name only
and with one at least. -/
structure Ascending (found : List (String × List Operation)) : Prop where
  increasing : found.Pairwise fun a b => Text.before a.1 b.1
  named : ∀ entry ∈ found, ∀ op ∈ entry.2, op.group = entry.1
  inhabited : ∀ entry ∈ found, entry.2 ≠ []

theorem addToGroup_names {op : Operation} {found : List (String × List Operation)} :
    ∀ entry ∈ addToGroup op found, entry.1 = op.group ∨ ∃ old ∈ found, old.1 = entry.1 := by
  induction found with
  | nil => simp [addToGroup]
  | cons first rest ih =>
      intro entry hentry
      rw [addToGroup] at hentry
      split at hentry
      · next hsame =>
          rcases List.mem_cons.1 hentry with rfl | hrest
          · exact .inl hsame
          · exact .inr ⟨entry, List.mem_cons_of_mem _ hrest, rfl⟩
      · rcases List.mem_cons.1 hentry with rfl | hrest
        · exact .inr ⟨first, List.mem_cons_self, rfl⟩
        · rcases ih entry hrest with hnew | ⟨old, hold, hname⟩
          · exact .inl hnew
          · exact .inr ⟨old, List.mem_cons_of_mem _ hold, hname⟩

theorem Ascending.tail {first : String × List Operation}
    {rest : List (String × List Operation)} (h : Ascending (first :: rest)) : Ascending rest :=
  ⟨h.increasing.of_cons, fun entry hentry => h.named entry (List.mem_cons_of_mem _ hentry),
    fun entry hentry => h.inhabited entry (List.mem_cons_of_mem _ hentry)⟩

theorem Ascending.cons {first : String × List Operation} {rest : List (String × List Operation)}
    (h : Ascending rest) (hbefore : ∀ entry ∈ rest, Text.before first.1 entry.1)
    (hnamed : ∀ op ∈ first.2, op.group = first.1) (hinhabited : first.2 ≠ []) :
    Ascending (first :: rest) := by
  refine ⟨List.pairwise_cons.2 ⟨hbefore, h.increasing⟩, ?_, ?_⟩
  · exact List.forall_mem_cons.2 ⟨hnamed, h.named⟩
  · exact List.forall_mem_cons.2 ⟨hinhabited, h.inhabited⟩

theorem ascending_nil : Ascending [] :=
  ⟨List.Pairwise.nil, fun _ h => absurd h List.not_mem_nil, fun _ h => absurd h List.not_mem_nil⟩

/-- An operation whose group is not before any group found joins the last group
or opens a new one at the end. -/
theorem addToGroup_ascending {op : Operation} {found : List (String × List Operation)}
    (h : Ascending found) (hop : ∀ entry ∈ found, Text.before op.group entry.1 = false) :
    Ascending (addToGroup op found) ∧
      (addToGroup op found).flatMap (·.2) = found.flatMap (·.2) ++ [op] := by
  induction found with
  | nil =>
      refine ⟨ascending_nil.cons ?_ ?_ ?_, rfl⟩ <;> simp
  | cons first rest ih =>
      obtain ⟨group, ops⟩ := first
      obtain ⟨hrest, hflat⟩ :=
        ih h.tail fun entry hentry => hop entry (List.mem_cons_of_mem _ hentry)
      have hbefore : ∀ entry ∈ rest, Text.before group entry.1 := (List.pairwise_cons.1 h.increasing).1
      have hnamed : ∀ o ∈ ops, o.group = group := h.named (group, ops) List.mem_cons_self
      rw [addToGroup]
      split
      · next hsame =>
          -- Nothing can follow: a later group would lie beyond the operation's own.
          have hlast : rest = [] := by
            rw [List.eq_nil_iff_forall_not_mem]
            intro entry hentry
            have hnot := hop entry (List.mem_cons_of_mem _ hentry)
            rw [← hsame, hbefore entry hentry] at hnot
            cases hnot
          subst hlast
          refine ⟨ascending_nil.cons (by simp) ?_ (by simp), by simp⟩
          intro o ho
          rcases List.mem_append.1 ho with ho | ho
          · exact hnamed o ho
          · rw [List.mem_singleton.1 ho, hsame]
      · next hother =>
          have hopens : Text.before group op.group := by
            rcases Text.before_or_eq_or_after group op.group with hopens | heq | hafter
            · exact hopens
            · exact absurd heq hother
            · exact absurd hafter (Bool.eq_false_iff.1 (hop _ List.mem_cons_self))
          refine ⟨hrest.cons ?_ hnamed (h.inhabited (group, ops) List.mem_cons_self), ?_⟩
          · intro entry hentry
            rcases addToGroup_names entry hentry with hnew | ⟨old, hold, hname⟩
            · rw [hnew]
              exact hopens
            · rw [← hname]
              exact hbefore old hold
          · rw [List.flatMap_cons, hflat, List.flatMap_cons, List.append_assoc]

/-- The groups of operations in order of group: names strictly increase, and
one after the other the groups hold the operations as they were. -/
theorem groups_spec {operations : List Operation}
    (h : operations.Pairwise fun a b => Text.before b.group a.group = false) :
    Ascending (groups operations) ∧ (groups operations).flatMap (·.2) = operations := by
  induction operations using List.reverseRecOn with
  | nil => exact ⟨ascending_nil, rfl⟩
  | append_singleton before op ih =>
      rw [List.pairwise_append] at h
      obtain ⟨hbefore, _, hop⟩ := h
      obtain ⟨hascending, hflat⟩ := ih hbefore
      have hnot : ∀ entry ∈ groups before, Text.before op.group entry.1 = false := by
        intro entry hentry
        obtain ⟨o, ho⟩ := List.exists_mem_of_ne_nil _ (hascending.inhabited entry hentry)
        have hmem : o ∈ before := by
          rw [← hflat]
          exact List.mem_flatMap.2 ⟨entry, hentry, ho⟩
        rw [← hascending.named entry hentry o ho]
        exact hop o hmem op (List.mem_singleton.2 rfl)
      have hstep := addToGroup_ascending hascending hnot
      rw [hflat] at hstep
      rw [groups, List.foldl_append]
      exact hstep

end TypedClient.Operation
