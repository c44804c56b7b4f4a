import Mathlib.Data.List.ProdSigma
import TypedClient.Proofs.OperationOrder

/-!
# Which operations a document has, and where they stand

An operation belongs to an entry of the paths and to a method. This file says
that a document has exactly one for each such pair where the entry is a mapping
and has a mapping under the method, and that they come sorted by group, path and
method.

Two entries can have one text for a path, a number and a text of its digits, so
that operations with equal keys exist. Sorting does not rearrange them: those of
one key are sorted as they are, and what is sorted and lies in a list, in order,
lies in the sorted list in that order (`filter_mergeSort`).
-/

namespace TypedClient.Operation

variable {store : Store} {document : Value}

/-! ## Sites -/

/-- An entry of the paths of a document and a method. -/
abbrev Site := (Scalar × Value) × String

/-- What is found at a site: an endpoint if the entry is a mapping and has a
mapping under the method. -/
def endpoint? (store : Store) (site : Site) : Option Endpoint :=
  match site.1.2 with
  | .mapping item => match store.get item site.2 with
    | .mapping details => some ⟨site.1.1, item, site.2, details⟩
    | _ => none
  | _ => none

theorem endpointsOf_eq (entry : Scalar × Value) :
    endpointsOf store entry = httpMethods.filterMap fun method => endpoint? store (entry, method) := by
  obtain ⟨path, item⟩ := entry
  cases item with
  | mapping id => rfl
  | scalar s | sequence id | typed kind id => exact (List.filterMap_eq_nil_iff.2 fun _ _ => rfl).symm

theorem endpoints_eq (paths : Entries) :
    endpoints store paths = (paths ×ˢ httpMethods).filterMap (endpoint? store) := by
  rw [endpoints]
  induction paths with
  | nil => rfl
  | cons entry rest ih =>
      rw [List.product_cons, List.filterMap_append, List.flatMap_cons, ih, endpointsOf_eq,
        List.filterMap_map]
      rfl

/-- An operation with what is found at a site, under an identifier. -/
structure BuiltAt (store : Store) (document : Value) (shared : List Value) (site : Site)
    (op : Operation) : Prop where
  endpoint : ∃ e, endpoint? store site = some e ∧ Built store document shared (e, op.id) op
  path : op.path = site.1.1.plain
  method : op.method = site.2

theorem builtAt_of_built {shared : List Value} {site : Site} {e : Endpoint} {id : String}
    {op : Operation} (he : endpoint? store site = some e)
    (hop : Built store document shared (e, id) op) : BuiltAt store document shared site op := by
  obtain ⟨hid, hpath, hmethod⟩ := ofDetails_fields hop
  have hsite : e.path = site.1.1 ∧ e.method = site.2 := by
    rw [endpoint?] at he
    split at he
    · split at he <;> cases he
      exact ⟨rfl, rfl⟩
    · cases he
  refine ⟨⟨e, he, ?_⟩, hpath.trans (congrArg _ hsite.1), hmethod.trans hsite.2⟩
  rw [hid]
  exact hop

/-- Built one after the other, the operations are those of the sites that have
an endpoint. -/
theorem builtAt_sites {shared : List Value} {sites : List Site} {ids : List String}
    {operations : List Operation}
    (hids : ids.length = (sites.filterMap (endpoint? store)).length)
    (h : List.Forall₂ (Built store document shared)
      ((sites.filterMap (endpoint? store)).zip ids) operations) :
    List.Forall₂ (BuiltAt store document shared)
      (sites.filter fun site => (endpoint? store site).isSome) operations := by
  induction sites generalizing ids operations with
  | nil =>
      cases h
      exact .nil
  | cons site rest ih =>
      cases he : endpoint? store site with
      | none =>
          rw [List.filterMap_cons_none he] at hids h
          rw [List.filter_cons_of_neg (by simp [he])]
          exact ih hids h
      | some e =>
          rw [List.filterMap_cons_some he] at hids h
          rw [List.filter_cons_of_pos (by simp [he])]
          cases ids with
          | nil => cases hids
          | cons id ids =>
              rw [List.zip_cons_cons] at h
              cases h with
              | cons hop hrest => exact .cons (builtAt_of_built he hop) (ih (Nat.succ.inj hids) hrest)

/-! ## Keys -/

/-- What operations are sorted by: group, path, and place of the method. -/
def sortKey (op : Operation) : String × String × Nat := (op.group, op.path, methodIndex op.method)

/-- Whether a key does not lie beyond another one, compared part by part. -/
def KeyLe (a b : String × String × Nat) : Prop :=
  Text.before a.1 b.1 ∨
    a.1 = b.1 ∧ (Text.before a.2.1 b.2.1 ∨ a.2.1 = b.2.1 ∧ a.2.2 ≤ b.2.2)

theorem precedes_iff_keyLe {a b : Operation} :
    precedes a b = true ↔ KeyLe a.sortKey b.sortKey :=
  precedes_iff

theorem KeyLe.refl (a : String × String × Nat) : KeyLe a a :=
  .inr ⟨rfl, .inr ⟨rfl, Nat.le_refl _⟩⟩

/-- Elements that may stand in any order are left in theirs by sorting. -/
theorem filter_mergeSort {α : Type} {le : α → α → Bool} {p : α → Bool} (l : List α)
    (htrans : ∀ a b c, le a b = true → le b c = true → le a c = true)
    (htotal : ∀ a b, (le a b || le b a) = true)
    (hp : ∀ a b, p a = true → p b = true → le a b = true) :
    (l.mergeSort le).filter p = l.filter p := by
  have hsorted : (l.filter p).Pairwise fun a b => le a b = true :=
    List.pairwise_of_forall_mem_list fun a ha b hb =>
      hp a b (List.mem_filter.1 ha).2 (List.mem_filter.1 hb).2
  -- What is left in order is a sublist of the other side, and as long as it.
  have hsub : ((l.filter p).filter p).Sublist ((l.mergeSort le).filter p) :=
    (List.sublist_mergeSort htrans htotal hsorted List.filter_sublist).filter p
  simp only [List.filter_filter, Bool.and_self] at hsub
  exact (hsub.eq_of_length ((List.mergeSort_perm l le).filter p).length_eq.symm).symm

/-! ## Operations of a document -/

/-- A document has one operation for each entry of its paths and method that are
mappings, sorted by group, path and method, those of one key in the order of the
document; and its groups, in ascending order, hold them in that order. -/
theorem build_complete {operations : List Operation} (h : build store document = .ok operations) :
    ∃ shared paths unsorted,
      (store.member document "security" >>= store.iterateOrNone) = .ok shared ∧
      (store.member document "paths" >>= store.entriesOrNone) = .ok paths ∧
      List.Forall₂ (BuiltAt store document shared)
        ((paths ×ˢ httpMethods).filter fun site => (endpoint? store site).isSome) unsorted ∧
      operations.Perm unsorted ∧
      operations.Pairwise (fun a b => KeyLe a.sortKey b.sortKey) ∧
      (∀ key, operations.filter (·.sortKey = key) = unsorted.filter (·.sortKey = key)) ∧
      Ascending (groups operations) ∧ (groups operations).flatMap (·.2) = operations := by
  have hgroups := groups_spec (build_sorted h)
  obtain ⟨shared, paths, unsorted, hshared, hpaths, hbuilt, rfl⟩ := build_eq_ok.1 h
  have hids : (idsOf store (endpoints store paths)).length = (endpoints store paths).length := by
    rw [idsOf, uniqueIds_length, List.length_map]
  rw [endpoints_eq] at hids hbuilt
  refine ⟨shared, paths, unsorted, hshared, hpaths, builtAt_sites hids hbuilt,
    List.mergeSort_perm unsorted precedes, ?_, fun key => ?_, hgroups⟩
  · exact (List.pairwise_mergeSort precedes_trans precedes_total unsorted).imp
      precedes_iff_keyLe.1
  · refine filter_mergeSort unsorted precedes_trans precedes_total fun a b ha hb => ?_
    rw [precedes_iff_keyLe, of_decide_eq_true ha, of_decide_eq_true hb]
    exact KeyLe.refl key

/-- A document with the path `1` as a number and as a text, a path with a method
that is no mapping, and one that is none itself. -/
def onePath : Store where
  mappings := #[
    [(.text "operationId", .text "number")], [(.text "operationId", .text "digits")],
    [(.text "operationId", .text "list")],
    [(.text "get", .mapping 0)], [(.text "get", .mapping 1)],
    [(.text "get", .mapping 2), (.text "put", .text "later")],
    [(.int 1, .mapping 3), (.text "1", .mapping 4), (.text "/pets", .mapping 5),
      (.text "/cats", .text "later")],
    [(.text "paths", .mapping 6)]]

def reading (id path : String) : Operation :=
  ⟨id, path, "get", "default", "", "", [], none, []⟩

theorem onePath_build : build onePath (.mapping 7) =
    .ok [reading "list" "/pets", reading "number" "1", reading "digits" "1"] := by
  have hsorted : [reading "number" "1", reading "digits" "1", reading "list" "/pets"].mergeSort
      precedes = [reading "list" "/pets", reading "number" "1", reading "digits" "1"] := by
    have hlater : precedes (reading "number" "1") (reading "list" "/pets") = false := by decide
    have hequal : precedes (reading "number" "1") (reading "digits" "1") = true := by decide
    simp [List.mergeSort, List.MergeSort.Internal.splitInTwo, hlater, hequal]
  refine build_eq_ok.2 ⟨[], onePath.entries 6, _, rfl, rfl, ?_, hsorted.symm⟩
  exact .cons rfl (.cons rfl (.cons rfl .nil))

/-- Three operations are found, and the two of one path stay in order. -/
theorem build_complete_of_onePath :
    ∃ unsorted, List.Forall₂ (BuiltAt onePath (.mapping 7) [])
        [((.int 1, .mapping 3), "get"), ((.text "1", .mapping 4), "get"),
          ((.text "/pets", .mapping 5), "get")] unsorted ∧
      [reading "list" "/pets", reading "number" "1", reading "digits" "1"].Perm unsorted ∧
      unsorted.filter (·.sortKey = ("default", "1", 0)) =
        [reading "number" "1", reading "digits" "1"] := by
  obtain ⟨shared, paths, unsorted, hshared, hpaths, hsites, hperm, -, hstable, -⟩ :=
    build_complete onePath_build
  obtain rfl : [] = shared := Except.ok.inj hshared
  obtain rfl : onePath.entries 6 = paths := Except.ok.inj hpaths
  refine ⟨unsorted, hsites, hperm, ?_⟩
  rw [← hstable]
  rfl

end TypedClient.Operation
