import Mathlib.Data.List.Forall2
import TypedClient.Proofs.OperationOrder

/-!
# A document for any list of operations

To say that something can happen, a document is needed in which it does. A
catalogue is one with an operation for each item of a list: the item has the
name and the tag, and the operation has a path of its own and nothing else.
`Catalogue.build_eq` says what is built from it, whatever the items are, so that
any sequence of names and any assignment of tags does come up.

The store holds the details of the operations first, then the mappings of their
paths, then the mapping of all paths, and then the document.
-/

namespace TypedClient

/-- What a catalogue says of an operation. -/
structure CatalogueItem where
  name : String
  tag : String

namespace Catalogue

open Operation

/-- The details of the operation at a position. -/
def details (i : Nat) (item : CatalogueItem) : Entries :=
  [(.text "operationId", .text item.name), (.text "tags", .sequence i)]

/-- The mapping of the path at a position. -/
def pathItem (i : Nat) : Entries := [(.text "get", .mapping i)]

/-- The path at a position. -/
def pathKey (i : Nat) : Scalar := .text ("/" ++ Decimal.digitString i)

variable (items : List CatalogueItem)

/-- The paths of a catalogue. -/
def paths : Entries :=
  (List.range items.length).map fun i => (pathKey i, .mapping (items.length + i))

/-- The parts of a catalogue. -/
def store : Store where
  sequences := (items.map fun item => [.text item.tag]).toArray
  mappings := (items.mapIdx details ++ (List.range items.length).map pathItem
    ++ [paths items, [(.text "paths", .mapping (items.length + items.length))]]).toArray

/-- The document that is a catalogue. -/
def document : Value := .mapping (items.length + items.length + 1)

/-- What an item is called, as the base of an identifier. -/
def base (item : CatalogueItem) : String := Naming.camelCase (Naming.operationSlug item.name)

/-- The operation of an item. -/
def operation (i : Nat) (item : CatalogueItem) (id : String) : Operation where
  id := id
  path := (pathKey i).plain
  method := "get"
  group := item.tag
  summary := ""
  description := ""
  parameters := []
  response := none
  security := []

/-- The operations of a catalogue, in order. -/
def operations : List Operation :=
  (items.zip (uniqueIds [] (items.map base))).mapIdx fun i found => operation i found.1 found.2

/-! ## Looking things up -/

variable {items} {i : Nat}

theorem entries_details (h : i < items.length) :
    (store items).entries i = details i items[i] := by
  simp only [Store.entries, store, List.getElem?_toArray]
  rw [List.append_assoc, List.getElem?_append_left (by simpa using h)]
  simp [h]

theorem entries_pathItem (h : i < items.length) :
    (store items).entries (items.length + i) = pathItem i := by
  simp only [Store.entries, store, List.getElem?_toArray]
  rw [List.append_assoc, List.getElem?_append_right (by simp),
    List.getElem?_append_left (by simpa using h)]
  simp [h]

theorem entries_paths : (store items).entries (items.length + items.length) = paths items := by
  simp only [Store.entries, store, List.getElem?_toArray]
  rw [List.getElem?_append_right (by simp)]
  simp

theorem entries_document :
    (store items).entries (items.length + items.length + 1) =
      [(.text "paths", .mapping (items.length + items.length))] := by
  simp only [Store.entries, store, List.getElem?_toArray]
  rw [List.getElem?_append_right (by simp)]
  simp [show items.length + items.length + 1 - (items.length + items.length) = 1 by omega]

theorem items_tag (h : i < items.length) : (store items).items i = [.text items[i].tag] := by
  simp [Store.items, store, h]

theorem get_details (h : i < items.length) (key : String) :
    (store items).get i key = (details i items[i]).get key := by
  rw [Store.get, entries_details h]

/-! ## Building -/

theorem member_paths :
    ((store items).member (document items) "paths" >>= (store items).entriesOrNone) =
      .ok (paths items) := by
  have hpaths : (store items).get (items.length + items.length + 1) "paths" =
      .mapping (items.length + items.length) := by
    rw [Store.get, entries_document]
    rfl
  simp only [document, Store.member, hpaths, bind, Except.bind, Store.entriesOrNone,
    entries_paths]

theorem endpoints_eq :
    endpoints (store items) (paths items) =
      (List.range items.length).map fun i => ⟨pathKey i, items.length + i, "get", i⟩ := by
  have hpath : ∀ i ∈ List.range items.length,
      endpointsOf (store items) (pathKey i, .mapping (items.length + i)) =
        [⟨pathKey i, items.length + i, "get", i⟩] := by
    intro i hi
    have hentries := entries_pathItem (List.mem_range.1 hi)
    simp only [endpointsOf, Store.get, hentries, httpMethods]
    rfl
  rw [endpoints, paths, List.flatMap_map, List.flatMap_congr hpath, List.map_eq_flatMap]

theorem groupOf_eq (h : i < items.length) :
    groupOf (store items) i = .ok items[i].tag := by
  have htags : (store items).get i "tags" = .sequence i := by
    rw [get_details h]
    rfl
  simp only [groupOf, htags, Store.truthy, items_tag h, Store.firstOf]
  rfl

theorem collect_eq (h : i < items.length) :
    Parameter.collect (store items) (.mapping (items.length + i)) (.mapping i)
      (document items) = .ok [] := by
  have hshared : (store items).get (items.length + i) "parameters" = .null := by
    rw [Store.get, entries_pathItem h]
    rfl
  have hown : (store items).get i "parameters" = .null := by
    rw [get_details h]
    rfl
  have hbody : (store items).get i "requestBody" = .null := by
    rw [get_details h]
    rfl
  simp only [Parameter.collect, Parameter.ofBody, Store.member, hshared, hown, hbody]
  rfl

theorem success_eq (h : i < items.length) :
    Response.success (store items) (.mapping i) (document items) = .ok none := by
  have hresponses : (store items).get i "responses" = .null := by
    rw [get_details h]
    rfl
  simp only [Response.success, Store.member, hresponses]
  rfl

theorem ofDetails_eq (h : i < items.length) (id : String) :
    ofDetails (store items) (document items) [] (pathKey i) (items.length + i) "get" i id =
      .ok (operation i items[i] id) := by
  have hsecurity : (store items).get i "security" = .null := by
    rw [get_details h]
    rfl
  have htext : ∀ key, key = "summary" ∨ key = "description" →
      textOf (store items) i key = "" := by
    rintro key (rfl | rfl) <;> rw [textOf, get_details h] <;> rfl
  simp only [ofDetails, groupOf_eq h, collect_eq h, success_eq h, hsecurity,
    htext "summary" (.inl rfl), htext "description" (.inr rfl)]
  rfl

theorem baseId_eq (h : i < items.length) (hname : items[i].name ≠ "") :
    baseId (store items) (pathKey i) "get" i = base items[i] := by
  have hgiven : (store items).get i "operationId" = .text items[i].name := by
    rw [get_details h]
    rfl
  have htrue : (store items).truthy (.text items[i].name) = true := by
    simpa [Store.truthy, Value.text, Scalar.truthy] using hname
  simp only [baseId, hgiven, htrue, if_true]
  rfl

theorem bases_eq (hnames : ∀ item ∈ items, item.name ≠ "") :
    ((endpoints (store items) (paths items)).map fun e =>
      baseId (store items) e.path e.method e.details) = items.map base := by
  rw [endpoints_eq, List.map_map]
  apply List.ext_getElem
  · rw [List.length_map, List.length_range, List.length_map]
  · intro i hleft hright
    have hi : i < items.length := by rwa [List.length_map] at hright
    simp only [List.getElem_map, List.getElem_range, Function.comp_apply]
    exact baseId_eq hi (hnames _ (List.getElem_mem hi))

theorem operations_ids : (operations items).map (·.id) = uniqueIds [] (items.map base) := by
  have hlength : (uniqueIds [] (items.map base)).length = items.length := by
    rw [uniqueIds_length, List.length_map]
  apply List.ext_getElem
  · simp [operations, hlength]
  · intro i hleft hright
    simp only [operations, List.getElem_map, List.getElem_mapIdx, List.getElem_zip, operation]

/-- What is built from a catalogue. -/
theorem build_eq (hnames : ∀ item ∈ items, item.name ≠ "") :
    build (store items) (document items) = .ok ((operations items).mergeSort precedes) := by
  have hsecurity : ((store items).member (document items) "security" >>=
      (store items).iterateOrNone) = .ok [] := by
    have hnone : (store items).get (items.length + items.length + 1) "security" = .null := by
      rw [Store.get, entries_document]
      rfl
    simp only [document, Store.member, hnone]
    rfl
  refine build_eq_ok.2 ⟨[], paths items, operations items, hsecurity, member_paths, ?_, rfl⟩
  rw [idsOf, bases_eq hnames, List.forall₂_iff_get]
  have hlength : (uniqueIds [] (items.map base)).length = items.length := by
    rw [uniqueIds_length, List.length_map]
  refine ⟨by simp [endpoints_eq, operations, hlength], fun i hleft hright => ?_⟩
  have hi : i < items.length := by
    simpa [operations, hlength] using hright
  simp only [Built, List.get_eq_getElem, List.getElem_zip, endpoints_eq, List.getElem_map,
    List.getElem_range, operations, List.getElem_mapIdx]
  exact ofDetails_eq hi _

end Catalogue

end TypedClient
