import Mathlib.Data.List.Perm.Basic
import TypedClient.Document.Store

/-!
# What is found in mappings

A mapping is a list of entries, and what is found under a key is the first of
those with it. Where a key has one value only, that says no more than which
entries there are, so their order does not matter. Mappings are put together in
such a way that no key is there twice.
-/

namespace TypedClient

namespace Entries

variable {entries entries' : Entries} {key : String} {v w : Value}

theorem mem_of_value? (h : entries.value? key = some v) : (.text key, v) ∈ entries := by
  obtain ⟨⟨k, w⟩, hfind, rfl⟩ := Option.map_eq_some_iff.1 h
  have hk : k = .text key := by simpa using List.find?_some hfind
  exact hk ▸ List.mem_of_find?_eq_some hfind

/-- The key has one value at most. -/
def SingleValued (entries : Entries) (key : String) : Prop :=
  ∀ v w, (Scalar.text key, v) ∈ entries → (Scalar.text key, w) ∈ entries → v = w

theorem SingleValued.value?_eq_some (h : entries.SingleValued key) :
    entries.value? key = some v ↔ (.text key, v) ∈ entries := by
  refine ⟨mem_of_value?, fun hmem => ?_⟩
  cases hvalue : entries.value? key with
  | some w => rw [h v w hmem (mem_of_value? hvalue)]
  | none =>
      rw [value?, Option.map_eq_none_iff, List.find?_eq_none] at hvalue
      exact absurd (beq_self_eq_true (Scalar.text key)) (hvalue _ hmem)

theorem SingleValued.value?_perm (h : entries.SingleValued key) (hperm : entries'.Perm entries) :
    entries'.value? key = entries.value? key := by
  have h' : entries'.SingleValued key := fun v w hv hw =>
    h v w (hperm.mem_iff.1 hv) (hperm.mem_iff.1 hw)
  refine Option.ext fun v => ?_
  rw [h'.value?_eq_some, h.value?_eq_some, hperm.mem_iff]

/-- No key is there twice. -/
def Distinct (entries : Entries) : Prop :=
  entries.Pairwise fun a b => a.1.sameKey b.1 = false

instance (entries : Entries) : Decidable entries.Distinct :=
  inferInstanceAs (Decidable (List.Pairwise _ entries))

theorem mem_put {k : Scalar} {value : Value} {entry : Scalar × Value}
    (h : entry ∈ entries.put k value) : entry.1 = k ∨ ∃ old ∈ entries, old.1 = entry.1 := by
  induction entries with
  | nil => exact .inl (congrArg Prod.fst (List.mem_singleton.1 h))
  | cons first rest ih =>
      obtain ⟨k', u⟩ := first
      rw [put] at h
      split at h
      · rcases List.mem_cons.1 h with rfl | hrest
        · exact .inr ⟨_, List.mem_cons_self, rfl⟩
        · exact .inr ⟨_, List.mem_cons_of_mem _ hrest, rfl⟩
      · rcases List.mem_cons.1 h with rfl | hrest
        · exact .inr ⟨_, List.mem_cons_self, rfl⟩
        · exact (ih hrest).imp_right fun ⟨old, hold, hkey⟩ =>
            ⟨old, List.mem_cons_of_mem _ hold, hkey⟩

/-- Mappings are put together entry by entry, so they have no key twice. -/
theorem Distinct.put (h : entries.Distinct) (k : Scalar) (value : Value) :
    (entries.put k value).Distinct := by
  induction entries with
  | nil => exact List.pairwise_singleton _ _
  | cons first rest ih =>
      obtain ⟨k', u⟩ := first
      obtain ⟨hfirst, hrest⟩ := List.pairwise_cons.1 h
      rw [Entries.put]
      split
      · exact List.pairwise_cons.2 ⟨hfirst, hrest⟩
      · next hother =>
          refine List.pairwise_cons.2 ⟨fun entry hentry => ?_, ih hrest⟩
          rcases mem_put hentry with hnew | ⟨old, hold, hkey⟩
          · rw [hnew]
            simpa using hother
          · rw [← hkey]
            exact hfirst old hold

theorem Distinct.singleValued (h : entries.Distinct) (key : String) :
    entries.SingleValued key := by
  intro v w hv hw
  have hself : (Scalar.text key).sameKey (.text key) = true := by
    simp [Scalar.sameKey, Scalar.asInt?]
  induction entries with
  | nil => cases hv
  | cons first rest ih =>
      obtain ⟨hfirst, hrest⟩ := List.pairwise_cons.1 h
      rcases List.mem_cons.1 hv with rfl | hv'
      · rcases List.mem_cons.1 hw with hsame | hw'
        · exact (Prod.mk.inj hsame).2.symm
        · rw [hfirst _ hw'] at hself
          cases hself
      · rcases List.mem_cons.1 hw with rfl | hw'
        · rw [hfirst _ hv'] at hself
          cases hself
        · exact ih hrest hv' hw'

end Entries

namespace Store

variable {store : Store} {r id : Nat} {entries' : Entries}

theorem find_of_get {key : String} {v : Value} (h : store.get id key = v) (hv : v ≠ .null) :
    store.find? id key = some v := by
  have hget : (store.find? id key).getD .null = v := h
  cases hfind : store.find? id key with
  | none =>
      rw [hfind] at hget
      exact absurd hget.symm hv
  | some w =>
      rw [hfind] at hget
      exact congrArg some hget

/-! ## Entries in another order -/

theorem entries_setEntries_ne (h : id ≠ r) :
    (store.setEntries r entries').entries id = store.entries id := by
  simp [setEntries, entries, Array.getElem?_setIfInBounds_ne (Ne.symm h)]

/-- A mapping that does not exist has no entries to put in another order. -/
theorem entries_setEntries_perm (hperm : entries'.Perm (store.entries r)) :
    (store.setEntries r entries').entries r = entries' := by
  by_cases hr : r < store.mappings.size
  · simp [setEntries, entries, hr]
  · have hnone : store.entries r = [] := by simp [entries, hr]
    rw [hnone] at hperm
    simp [setEntries, entries, hr, hperm.eq_nil]

theorem find?_setEntries (h : (store.entries r).Distinct)
    (hperm : entries'.Perm (store.entries r)) (id : Nat) (key : String) :
    (store.setEntries r entries').find? id key = store.find? id key := by
  rw [find?, find?]
  by_cases hid : id = r
  · rw [hid, entries_setEntries_perm hperm, (h.singleValued key).value?_perm hperm]
  · rw [entries_setEntries_ne hid]

end Store

end TypedClient
