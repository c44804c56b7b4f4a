import TypedClient.Api.Parameter
import TypedClient.Proofs.Outcomes
import TypedClient.Proofs.Tables

/-!
# How the parameters of an operation are put together

The parameters of a path and of an operation make a table. Where several have
one name and location, the last says what the parameter is, and the first says
where it stands. The merge is the filling of that table with what the two lists
say, entry by entry (`mergeAll_table`), so what is known of tables is known of
parameters: every one of them was read from a value that went in, and no two
have one key. The request body comes after the table, whatever is in it, and
then the required ones are moved to the front, which keeps the order among them
and among the others.
-/

namespace TypedClient.Parameter

variable {store : Store} {document : Value}

/-- What tells the parameters of an operation apart. -/
def key (p : Parameter) : String × String := (p.name, p.location)

/-! ## Entries -/

/-- The name and location of a parameter, and its mapping, as a value says them
after its reference. A value that is no mapping with a name says nothing. -/
def declared? (store : Store) (document raw : Value) : Option ((String × String) × Nat) :=
  match dereference store raw document with
  | .mapping id =>
    (store.find? id "name").map fun name => ((store.plain name, locationOf store id), id)
  | _ => none

/-- The parameter that an entry is. -/
def ofEntry (store : Store) (entry : (String × String) × Nat) : Parameter :=
  ofMapping store entry.1.1 entry.1.2 entry.2

def nameless (store : Store) (raw : Value) : SchemaError :=
  .invalid "parameter without a name" (some (store.plain raw)) none

theorem named_of_entry {raw : Value} {entry : (String × String) × Nat}
    (h : declared? store document raw = some entry) :
    named store document raw = .ok (entry.2, entry.1.1) ∧
      locationOf store entry.2 = entry.1.2 := by
  rw [declared?] at h
  rw [named]
  cases hraw : dereference store raw document with
  | mapping id =>
      rw [hraw] at h
      obtain ⟨name, hname, rfl⟩ := Option.map_eq_some_iff.1 h
      simp only [hname, and_self]
  | scalar s | sequence id | typed kind id =>
      rw [hraw] at h
      cases h

theorem named_of_none {raw : Value} (h : declared? store document raw = none) :
    named store document raw = .error (nameless store raw) := by
  rw [declared?] at h
  rw [named]
  cases hraw : dereference store raw document with
  | mapping id =>
      rw [hraw] at h
      simp only [Option.map_eq_none_iff.1 h]
      rfl
  | scalar s | sequence id | typed kind id => rfl

/-! ## Merging -/

theorem merge_cons (p q : Parameter) (rest : List Parameter) :
    merge p (q :: rest) = if q.key = p.key then p :: rest else q :: merge p rest := by
  rw [merge]
  by_cases hkey : q.key = p.key
  · obtain ⟨hname, hlocation⟩ := Prod.mk.inj hkey
    simp [hkey, hname, hlocation]
  · have hsplit : ¬ (q.name = p.name ∧ q.location = p.location) := by
      intro h
      exact hkey (Prod.ext h.1 h.2)
    simp [hkey, hsplit]

theorem merge_of_new {p : Parameter} {ps : List Parameter} (h : p.key ∉ ps.map key) :
    merge p ps = ps ++ [p] := by
  induction ps with
  | nil => rfl
  | cons q rest ih =>
      rw [List.map_cons, List.mem_cons, not_or] at h
      rw [merge_cons, if_neg (Ne.symm h.1), ih h.2, List.cons_append]

theorem mergeAll_append (raws more : List Value) (before : List Parameter) :
    mergeAll store document (raws ++ more) before =
      (mergeAll store document raws before).bind (mergeAll store document more) := by
  induction raws generalizing before with
  | nil => rfl
  | cons raw rest ih =>
      rw [List.cons_append, mergeAll, mergeAll]
      cases named store document raw with
      | error e => rfl
      | ok found => exact ih _

theorem merge_table (entry : (String × String) × Nat) (table : List ((String × String) × Nat)) :
    merge (ofEntry store entry) (table.map (ofEntry store)) =
      (put entry.1 entry.2 table).map (ofEntry store) := by
  induction table with
  | nil => rfl
  | cons first rest ih =>
      have hkey : (ofEntry store first).key = first.1 := rfl
      have hkey' : (ofEntry store entry).key = entry.1 := rfl
      rw [List.map_cons, merge_cons, hkey, hkey', put, ih]
      split
      · next hsame => rw [hsame, List.map_cons]
      · rfl

/-- The merge goes on from the entries of a table to those of the filled table,
as long as each value says something. -/
theorem mergeAll_table {raws : List Value} (h : ∀ raw ∈ raws, (declared? store document raw).isSome)
    (table : List ((String × String) × Nat)) :
    mergeAll store document raws (table.map (ofEntry store)) =
      .ok (((raws.filterMap (declared? store document)).foldl
        (fun found entry => put entry.1 entry.2 found) table).map (ofEntry store)) := by
  induction raws generalizing table with
  | nil => rfl
  | cons raw rest ih =>
      rw [List.forall_mem_cons] at h
      obtain ⟨entry, hentry⟩ := Option.isSome_iff_exists.1 h.1
      obtain ⟨hnamed, hlocation⟩ := named_of_entry hentry
      have hstep : mergeAll store document (raw :: rest) (table.map (ofEntry store)) =
          mergeAll store document rest
            (merge (ofEntry store entry) (table.map (ofEntry store))) := by
        rw [mergeAll, hnamed, ofEntry, ← hlocation]
        rfl
      rw [hstep, merge_table, ih h.2, List.filterMap_cons_some hentry, List.foldl_cons]

/-- The merge stops at the first value that says nothing. -/
theorem mergeAll_nameless {raws : List Value} {raw : Value}
    (h : raws.find? (fun raw => (declared? store document raw).isNone) = some raw)
    (merged : List Parameter) :
    mergeAll store document raws merged = .error (nameless store raw) := by
  induction raws generalizing merged with
  | nil => cases h
  | cons first rest ih =>
      rw [List.find?_cons] at h
      rw [mergeAll]
      cases hentry : declared? store document first with
      | none =>
          rw [hentry] at h
          cases h
          rw [named_of_none hentry]
          rfl
      | some entry =>
          rw [hentry] at h
          rw [(named_of_entry hentry).1]
          exact ih h _

/-- The merge is the filled table if each value says something, and otherwise it
is refused. -/
theorem mergeAll_eq_ok_iff {raws : List Value} {merged : List Parameter} :
    mergeAll store document raws [] = .ok merged ↔
      (∀ raw ∈ raws, (declared? store document raw).isSome) ∧
        merged = (puts (raws.filterMap (declared? store document))).map (ofEntry store) := by
  by_cases h : ∀ raw ∈ raws, (declared? store document raw).isSome
  · have htable := mergeAll_table h []
    rw [List.map_nil] at htable
    rw [htable, Except.ok.injEq, puts, eq_comm]
    exact (and_iff_right h).symm
  · refine iff_of_false (fun hmerged => ?_) fun hall => h hall.1
    cases hfirst : raws.find? fun raw => (declared? store document raw).isNone with
    | none =>
        rw [List.find?_eq_none] at hfirst
        exact h fun raw hraw => Option.isSome_iff_ne_none.2 (by simpa using hfirst raw hraw)
    | some raw =>
        rw [mergeAll_nameless hfirst] at hmerged
        cases hmerged

/-- The parameters that entries amount to: one for each key, in the order in
which the keys first come up, as the last entry of the key has it. -/
structure Merged (store : Store) (entries : List ((String × String) × Nat))
    (merged : List Parameter) : Prop where
  keys : merged.map key = (entries.map (·.1)).eraseDups
  last : ∀ p ∈ merged, ∃ id before after, entries = before ++ (p.key, id) :: after ∧
    (∀ entry ∈ after, entry.1 ≠ p.key) ∧ p.schema = .value (.mapping id) ∧
    p.description = store.plainOrEmpty (store.get id "description") ∧
    (p.required = true ↔ store.truthy (store.get id "required") = true ∨ p.location = "path")

theorem merged_puts (entries : List ((String × String) × Nat)) :
    Merged store entries ((puts entries).map (ofEntry store)) where
  keys := by
    rw [← keys_puts, List.map_map]
    rfl
  last p hp := by
    obtain ⟨entry, hentry, rfl⟩ := List.mem_map.1 hp
    obtain ⟨before, after, hentries, hafter⟩ := mem_puts.1 hentry
    exact ⟨entry.2, before, after, hentries, hafter, rfl, rfl, by simp [ofEntry, ofMapping]⟩

theorem merged_of_mergeAll {raws : List Value} {merged : List Parameter}
    (h : mergeAll store document raws [] = .ok merged) :
    Merged store (raws.filterMap (declared? store document)) merged := by
  obtain ⟨_, rfl⟩ := mergeAll_eq_ok_iff.1 h
  exact merged_puts _

theorem mem_mergeAll {raws : List Value} {merged : List Parameter} {q : Parameter}
    (h : mergeAll store document raws [] = .ok merged) (hq : q ∈ merged) :
    ∃ raw ∈ raws, ∃ id, named store document raw = .ok (id, q.name) ∧
      q = ofMapping store q.name (locationOf store id) id := by
  obtain ⟨_, rfl⟩ := mergeAll_eq_ok_iff.1 h
  obtain ⟨entry, hentry, rfl⟩ := List.mem_map.1 hq
  obtain ⟨raw, hraw, hfound⟩ := List.mem_filterMap.1 (mem_of_mem_puts hentry)
  obtain ⟨hnamed, hlocation⟩ := named_of_entry hfound
  exact ⟨raw, hraw, entry.2, hnamed, by rw [hlocation]; rfl⟩

theorem mergeAll_keys_nodup {raws : List Value} {merged : List Parameter}
    (h : mergeAll store document raws [] = .ok merged) : (merged.map key).Nodup := by
  rw [(merged_of_mergeAll h).keys]
  exact nodup_eraseDups _

/-! ## The order -/

/-- The parameters of an operation, from the merged ones and the request body:
the required ones before the others, and both in the order they had, the body
last. -/
structure Arranged (merged : List Parameter) (body : Option Parameter) (ps : List Parameter) :
    Prop where
  required_first : ps.Pairwise fun p q => q.required = true → p.required = true
  order : ∀ b, ps.filter (·.required == b) =
    merged.filter (·.required == b) ++ body.toList.filter (·.required == b)

theorem arranged_requiredFirst (merged : List Parameter) (body : Option Parameter) :
    Arranged merged body (requiredFirst (merged ++ body.toList)) := by
  generalize hps : merged ++ body.toList = ps
  constructor
  · rw [requiredFirst, List.pairwise_append]
    refine ⟨?_, ?_, ?_⟩
    · exact (List.pairwise_of_forall_mem_list fun p hp _ _ _ => (List.mem_filter.1 hp).2)
    · refine List.pairwise_of_forall_mem_list fun p _ q hq hrequired => ?_
      simp [hrequired] at hq
    · exact fun p hp _ _ _ => (List.mem_filter.1 hp).2
  · intro b
    rw [← List.filter_append, hps, requiredFirst, List.filter_append, List.filter_filter,
      List.filter_filter]
    cases b <;> simp

/-! ## Collecting -/

theorem ofBody_key {details : Value} {p : Parameter}
    (h : ofBody store details document = .ok (some p)) : p.key = ("body", "body") := by
  obtain ⟨raw, _, h⟩ := bind_eq_ok.1 h
  split at h
  · obtain ⟨content, _, hcontent⟩ := bind_eq_ok.1 h
    cases hcontent
    rfl
  · cases h

theorem collect_eq (pathItem details : Value) :
    collect store pathItem details document = (do
      let shared ← Failure.ofFault (store.member pathItem "parameters" >>= store.iterateOrNone)
      let own ← Failure.ofFault (store.member details "parameters" >>= store.iterateOrNone)
      let merged ← (mergeAll store document (shared ++ own) []).mapError Failure.schema
      let body ← Failure.ofFault (ofBody store details document)
      return requiredFirst (merged ++ body.toList)) := by
  rw [collect]
  congr
  funext shared
  congr
  funext own
  cases mergeAll store document (shared ++ own) [] with
  | error e => rfl
  | ok merged => rfl

theorem collect_eq_ok {pathItem details : Value} {ps : List Parameter} :
    collect store pathItem details document = .ok ps ↔ ∃ shared own merged body,
      (store.member pathItem "parameters" >>= store.iterateOrNone) = .ok shared ∧
      (store.member details "parameters" >>= store.iterateOrNone) = .ok own ∧
      mergeAll store document (shared ++ own) [] = .ok merged ∧
      ofBody store details document = .ok body ∧ ps = requiredFirst (merged ++ body.toList) := by
  simp only [collect_eq, bind_eq_ok, ofFault_eq_ok, mapError_eq_ok, pure_eq_ok]
  constructor
  · intro h
    obtain ⟨shared, hshared, own, hown, merged, hmerged, body, hbody, rfl⟩ := h
    exact ⟨shared, own, merged, body, hshared, hown, hmerged, hbody, rfl⟩
  · intro h
    obtain ⟨shared, own, merged, body, hshared, hown, hmerged, hbody, rfl⟩ := h
    exact ⟨shared, hshared, own, hown, merged, hmerged, body, hbody, rfl⟩

/-- The parameters of an operation are those of its path and its own, of one name
and location the last in the place of the first, and its body, the required ones
first; and the first value that is no parameter is complained about. -/
theorem collect_merges (store : Store) (pathItem details document : Value) :
    (∀ ps, collect store pathItem details document = .ok ps → ∃ shared own merged body,
      (store.member pathItem "parameters" >>= store.iterateOrNone) = .ok shared ∧
      (store.member details "parameters" >>= store.iterateOrNone) = .ok own ∧
      (∀ raw ∈ shared ++ own, (declared? store document raw).isSome) ∧
      Merged store ((shared ++ own).filterMap (declared? store document)) merged ∧
      ofBody store details document = .ok body ∧ Arranged merged body ps) ∧
    ∀ shared own raw, (store.member pathItem "parameters" >>= store.iterateOrNone) = .ok shared →
      (store.member details "parameters" >>= store.iterateOrNone) = .ok own →
      (shared ++ own).find? (fun raw => (declared? store document raw).isNone) = some raw →
      collect store pathItem details document =
        .error (.schema (.invalid "parameter without a name" (some (store.plain raw)) none)) := by
  constructor
  · intro ps hps
    obtain ⟨shared, own, merged, body, hshared, hown, hmerged, hbody, rfl⟩ := collect_eq_ok.1 hps
    exact ⟨shared, own, merged, body, hshared, hown, (mergeAll_eq_ok_iff.1 hmerged).1,
      merged_of_mergeAll hmerged, hbody, arranged_requiredFirst merged body⟩
  · intro shared own raw hshared hown hraw
    rw [collect_eq, hshared, hown]
    simp only [Failure.ofFault, bind, Except.bind, mergeAll_nameless hraw]
    rfl

/-- An operation that overrides the query of its path, and one with a parameter
that is none. -/
def overriding : Store where
  sequences := #[[.mapping 2, .mapping 1, .mapping 0], [.mapping 3], [.mapping 3, .text "limit"]]
  mappings := #[
    [(.text "name", .text "id"), (.text "in", .text "path")],
    [(.text "name", .text "q")],
    [(.text "$ref", .text "#/parameters/limit")],
    [(.text "name", .text "q"), (.text "in", .text "query"), (.text "required", .bool true)],
    [(.text "parameters", .sequence 0)],
    [(.text "parameters", .sequence 1), (.text "requestBody", .mapping 6)],
    [(.text "description", .text "a pet")],
    [(.text "name", .text "limit"), (.text "in", .text "query")],
    [(.text "limit", .mapping 7)],
    [(.text "parameters", .mapping 8)],
    [(.text "parameters", .sequence 2)]]

def overridden : List Parameter :=
  [⟨"q", "query", true, "", .value (.mapping 3)⟩, ⟨"id", "path", true, "", .value (.mapping 0)⟩,
    ⟨"limit", "query", false, "", .value (.mapping 7)⟩,
    ⟨"body", "body", false, "a pet", .content .null⟩]

/-- The query is required as the operation has it, and stands where the path has
it; the body is the last of the others. -/
theorem collect_merges_of_override :
    (∃ merged body, merged.map key = [("limit", "query"), ("q", "query"), ("id", "path")] ∧
      Arranged merged body overridden) ∧
      collect overriding (.mapping 4) (.mapping 10) (.mapping 9) =
        .error (.schema (.invalid "parameter without a name" (some "limit") none)) := by
  constructor
  · have hcollect : collect overriding (.mapping 4) (.mapping 5) (.mapping 9) =
        .ok overridden := by decide +kernel
    obtain ⟨shared, own, merged, body, hshared, hown, _, hmerged, _, harranged⟩ :=
      (collect_merges overriding (.mapping 4) (.mapping 5) (.mapping 9)).1 _ hcollect
    obtain rfl : [.mapping 2, .mapping 1, .mapping 0] = shared := Except.ok.inj hshared
    obtain rfl : [.mapping 3] = own := Except.ok.inj hown
    exact ⟨merged, body, hmerged.keys.trans (by decide +kernel), harranged⟩
  · exact (collect_merges overriding (.mapping 4) (.mapping 10) (.mapping 9)).2
      [.mapping 2, .mapping 1, .mapping 0] [.mapping 3, .text "limit"] (.text "limit") rfl rfl
      (by decide +kernel)

end TypedClient.Parameter
