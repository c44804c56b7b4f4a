import Mathlib.Data.List.Induction
import Mathlib.Data.List.Nodup

/-!
# Tables as lists of entries

The tables of this library, of enums, of counts and of files, are lists of
entries with a key, in the order in which the keys came up. What the other
files need to know of such lists is here: a look-up by cases, what it means for
keys to come up once, the first occurrences of a list, and how tables are filled
by putting one entry after the other.
-/

namespace TypedClient

section Lookup

variable {κ β : Type} [BEq κ] [LawfulBEq κ] {key other : κ} {b : β} {l : List (κ × β)}

theorem mem_of_lookup (h : List.lookup key l = some b) : (key, b) ∈ l := by
  obtain ⟨before, after, hl, _⟩ := List.lookup_eq_some_iff.1 h
  rw [hl]
  exact List.mem_append_right _ List.mem_cons_self

/-- Where keys come up once, a key has the entry that is listed. -/
theorem lookup_iff_mem (hkeys : (l.map (·.1)).Nodup) :
    List.lookup key l = some b ↔ (key, b) ∈ l := by
  refine ⟨mem_of_lookup, fun h => ?_⟩
  induction l with
  | nil => cases h
  | cons entry rest ih =>
      rw [List.map_cons, List.nodup_cons] at hkeys
      rw [List.lookup_cons]
      rcases List.mem_cons.1 h with rfl | hrest
      · rw [beq_self_eq_true]
      · have hne : key ≠ entry.1 := fun hk => hkeys.1 (hk ▸ List.mem_map_of_mem (f := (·.1)) hrest)
        rw [beq_false_of_ne hne]
        exact ih hkeys.2 hrest

theorem entry_unique {b' : β} (hkeys : (l.map (·.1)).Nodup) (h : (key, b) ∈ l)
    (h' : (key, b') ∈ l) : b = b' :=
  Option.some.inj (((lookup_iff_mem hkeys).2 h).symm.trans ((lookup_iff_mem hkeys).2 h'))

/-- To be rid of a key does not matter to the others. -/
theorem lookup_filter_ne (hne : other ≠ key) :
    List.lookup other (l.filter (·.1 != key)) = List.lookup other l := by
  induction l with
  | nil => rfl
  | cons entry rest ih =>
      by_cases hk : entry.1 = key
      · rw [List.filter_cons_of_neg (by simp [hk]), ih, List.lookup_cons, hk, beq_false_of_ne hne]
      · rw [List.filter_cons_of_pos (by simp [hk]), List.lookup_cons, List.lookup_cons, ih]

end Lookup

variable {κ β : Type} [DecidableEq κ]

theorem lookup_cons_if (key other : κ) (b : β) (rest : List (κ × β)) :
    List.lookup other ((key, b) :: rest) =
      if other = key then some b else List.lookup other rest := by
  rw [List.lookup_cons]
  by_cases h : other = key
  · rw [if_pos h, h, beq_self_eq_true]
  · rw [if_neg h, beq_false_of_ne h]

theorem lookup_eq_none {key : κ} {l : List (κ × β)} :
    List.lookup key l = none ↔ key ∉ l.map (·.1) := by
  rw [List.lookup_eq_none_iff, List.mem_map]
  simp only [bne_iff_ne, not_exists, not_and]
  exact forall₂_congr fun entry _ => not_congr eq_comm

/-- Where keys come up once, a key has one entry. -/
theorem filter_key {key : κ} {b : β} {l : List (κ × β)} (hkeys : (l.map (·.1)).Nodup)
    (h : (key, b) ∈ l) : l.filter (·.1 = key) = [(key, b)] := by
  obtain ⟨before, after, hl⟩ := List.append_of_mem h
  rw [hl, List.map_append, List.map_cons] at hkeys
  have hsplit := List.nodup_middle.1 hkeys
  rw [List.nodup_cons, List.mem_append, not_or] at hsplit
  have hother : ∀ part : List (κ × β), key ∉ part.map (·.1) →
      part.filter (·.1 = key) = [] := by
    intro part hpart
    rw [List.filter_eq_nil_iff]
    intro entry hentry hkey
    exact hpart (List.mem_map.2 ⟨entry, hentry, of_decide_eq_true hkey⟩)
  rw [hl, List.filter_append, hother before hsplit.1.1,
    List.filter_cons_of_pos (by simp), hother after hsplit.1.2, List.nil_append]

/-- Of the entries of a key the last one is found from the end. -/
theorem lookup_reverse {key : κ} {l : List (κ × β)} :
    List.lookup key l.reverse = ((l.filter (·.1 = key)).map (·.2)).getLast? := by
  induction l using List.reverseRecOn with
  | nil => rfl
  | append_singleton before entry ih =>
      rw [List.reverse_append, List.reverse_singleton, List.singleton_append, lookup_cons_if,
        List.filter_append, List.map_append, List.getLast?_append, ih]
      by_cases hk : key = entry.1
      · simp [hk]
      · simp [hk, Ne.symm hk]

/-! ## First occurrences -/

section FirstOccurrences

variable {α : Type} [BEq α] [LawfulBEq α]

theorem eraseDups_concat {a : α} {l : List α} :
    (l ++ [a]).eraseDups = if a ∈ l then l.eraseDups else l.eraseDups ++ [a] := by
  rw [List.eraseDups_append, List.removeAll]
  by_cases h : a ∈ l <;> simp [h, List.eraseDups_cons]

theorem nodup_eraseDups (l : List α) : l.eraseDups.Nodup := by
  induction l using List.reverseRecOn with
  | nil => exact List.nodup_nil
  | append_singleton before a ih =>
      rw [eraseDups_concat]
      split
      · exact ih
      · next hnew =>
          rw [← List.mem_eraseDups] at hnew
          exact List.nodup_append.2 ⟨ih, List.nodup_singleton a, by
            rintro b hb c hc rfl
            exact hnew (List.mem_singleton.1 hc ▸ hb)⟩

end FirstOccurrences

/-! ## Putting entries -/

/-- A table with an entry put under its key: in place of the one there, or at
the end. -/
def put (key : κ) (b : β) : List (κ × β) → List (κ × β)
  | [] => [(key, b)]
  | (k, c) :: rest => if k = key then (k, b) :: rest else (k, c) :: put key b rest

variable {key other : κ} {b : β} {l : List (κ × β)}

theorem lookup_put :
    List.lookup other (put key b l) = if other = key then some b else List.lookup other l := by
  induction l with
  | nil => rw [put, lookup_cons_if]
  | cons entry rest ih =>
      obtain ⟨k, c⟩ := entry
      rw [put]
      by_cases hk : k = key
      · rw [if_pos hk, lookup_cons_if, lookup_cons_if, hk]
        by_cases h : other = key <;> simp [h]
      · rw [if_neg hk, lookup_cons_if, lookup_cons_if, ih]
        by_cases h : other = k
        · simp [h, hk]
        · simp [h]

theorem put_of_new (h : key ∉ l.map (·.1)) : put key b l = l ++ [(key, b)] := by
  induction l with
  | nil => rfl
  | cons entry rest ih =>
      rw [List.map_cons, List.mem_cons, not_or] at h
      rw [put, if_neg (Ne.symm h.1), ih h.2, List.cons_append]

theorem keys_put :
    (put key b l).map (·.1) =
      if key ∈ l.map (·.1) then l.map (·.1) else l.map (·.1) ++ [key] := by
  induction l with
  | nil => rfl
  | cons entry rest ih =>
      obtain ⟨k, c⟩ := entry
      rw [put]
      by_cases hk : k = key
      · simp [hk]
      · rw [if_neg hk, List.map_cons, ih]
        by_cases hrest : key ∈ rest.map (·.1) <;> simp [Ne.symm hk, hrest]

/-- The table that putting the entries of a list one after the other gives. -/
def puts (entries : List (κ × β)) : List (κ × β) :=
  entries.foldl (fun found entry => put entry.1 entry.2 found) []

theorem puts_concat {entry : κ × β} : puts (l ++ [entry]) = put entry.1 entry.2 (puts l) := by
  rw [puts, List.foldl_append]
  rfl

theorem keys_puts [BEq κ] [LawfulBEq κ] : (puts l).map (·.1) = (l.map (·.1)).eraseDups := by
  induction l using List.reverseRecOn with
  | nil => rfl
  | append_singleton before entry ih =>
      rw [puts_concat, keys_put, ih, List.map_append, List.map_singleton, eraseDups_concat]
      by_cases h : entry.1 ∈ before.map (·.1) <;> simp [h]

/-- The last entry of a key is the one that stays. -/
theorem lookup_puts : List.lookup key (puts l) = List.lookup key l.reverse := by
  induction l using List.reverseRecOn with
  | nil => rfl
  | append_singleton before entry ih =>
      rw [puts_concat, lookup_put, ih, List.reverse_append, List.reverse_singleton,
        List.singleton_append, lookup_cons_if]

theorem mem_puts : (key, b) ∈ puts l ↔
    ∃ before after, l = before ++ (key, b) :: after ∧ ∀ entry ∈ after, entry.1 ≠ key := by
  have hkeys : ((puts l).map (·.1)).Nodup := by
    rw [keys_puts]
    exact nodup_eraseDups _
  rw [← lookup_iff_mem hkeys, lookup_puts, List.lookup_eq_some_iff]
  constructor
  · rintro ⟨after, before, hl, hafter⟩
    refine ⟨before.reverse, after.reverse, ?_, fun entry hentry => ?_⟩
    · rw [← List.reverse_reverse l, hl, List.reverse_append, List.reverse_cons, List.append_assoc,
        List.singleton_append]
    · exact (bne_iff_ne.1 (hafter entry (List.mem_reverse.1 hentry))).symm
  · rintro ⟨before, after, rfl, hafter⟩
    refine ⟨after.reverse, before.reverse, ?_, fun entry hentry => ?_⟩
    · rw [List.reverse_append, List.reverse_cons, List.append_assoc, List.singleton_append]
    · exact bne_iff_ne.2 (hafter entry (List.mem_reverse.1 hentry)).symm

theorem mem_of_mem_puts {entry : κ × β} (h : entry ∈ puts l) : entry ∈ l := by
  obtain ⟨before, after, rfl, _⟩ := mem_puts.1 h
  exact List.mem_append_right _ List.mem_cons_self

theorem puts_eq_self (h : (l.map (·.1)).Nodup) : puts l = l := by
  induction l using List.reverseRecOn with
  | nil => rfl
  | append_singleton before entry ih =>
      rw [List.map_append, List.map_singleton, List.nodup_append] at h
      have hnew : entry.1 ∉ before.map (·.1) := fun hmem =>
        h.2.2 entry.1 hmem entry.1 (List.mem_singleton.2 rfl) rfl
      rw [puts_concat, ih h.1, put_of_new hnew]

/-- A table may be changed entry by entry before it is filled or after. -/
theorem puts_map {γ : Type} (f : β → γ) (l : List (κ × β)) :
    puts (l.map (Prod.map id f)) = (puts l).map (Prod.map id f) := by
  have hput : ∀ (key : κ) (b : β) (l : List (κ × β)),
      put key (f b) (l.map (Prod.map id f)) = (put key b l).map (Prod.map id f) := by
    intro key b l
    induction l with
    | nil => rfl
    | cons entry rest ih =>
        obtain ⟨k, c⟩ := entry
        rw [List.map_cons, Prod.map_apply, put, put, ih]
        by_cases hk : k = key <;> simp [hk]
  induction l using List.reverseRecOn with
  | nil => rfl
  | append_singleton before entry ih =>
      rw [List.map_append, List.map_singleton, puts_concat, puts_concat, ih]
      exact hput _ _ _

end TypedClient
