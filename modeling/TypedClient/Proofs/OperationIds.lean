import TypedClient.Proofs.Catalogue
import TypedClient.Proofs.Tables

/-!
# When identifiers are unique

The table behind `uniqueIds` counts bases, and what it gives out are bases with
a count after them. So the identifiers have a description without the table:
the `k`-th use of a base is called `numbered base k`, which is the base itself
for the first use and the base followed by `k` for a later one.

Two uses of one base never get the same name. Two uses of different bases can,
because the table does not know the names that it gave out: `a` used twice gives
`a2`, which may be a base of its own. `Clash` says exactly when that happens in
terms of how often each base comes up, whatever the order is, and
`uniqueIds_nodup_iff` is the equivalence.

Every sequence of bases does come up, since a catalogue can list any names. So
the equivalence is about documents too, and one with a clash is soon found.
-/

namespace TypedClient.Operation

/-! ## Names of uses -/

/-- What follows a base at its `k`-th use. -/
def serial (k : Nat) : String := if k ≤ 1 then "" else Decimal.digitString k

/-- The name of the `k`-th use of a base. -/
def numbered (base : String) (k : Nat) : String := base ++ serial k

/-- The elements of a list, each with how often it has come up by then, uses
before the list counted. -/
def uses (earlier : List String) : List String → List (String × Nat)
  | [] => []
  | base :: rest => (base, earlier.count base + 1) :: uses (base :: earlier) rest

theorem digitString_injective : Function.Injective Decimal.digitString := by
  intro m n h
  have hdigits : Nat.toDigits 10 m = Nat.toDigits 10 n := String.ofList_injective h
  rw [← Nat.ofDigitChars_ten_toDigits (n := m), hdigits, Nat.ofDigitChars_ten_toDigits]

theorem digitString_ne_empty (n : Nat) : Decimal.digitString n ≠ "" := by
  intro h
  have hdigits : Nat.toDigits 10 n = [] := by
    simpa [Decimal.digitString] using congrArg String.toList h
  exact Nat.toDigits_ne_nil hdigits

theorem serial_injective {j k : Nat} (hj : 1 ≤ j) (hk : 1 ≤ k) (h : serial j = serial k) :
    j = k := by
  unfold serial at h
  split at h <;> split at h
  · omega
  · exact absurd h.symm (digitString_ne_empty k)
  · exact absurd h (digitString_ne_empty j)
  · exact digitString_injective h

theorem mem_uses {earlier bases : List String} {base : String} {k : Nat} :
    (base, k) ∈ uses earlier bases ↔
      earlier.count base < k ∧ k ≤ earlier.count base + bases.count base := by
  induction bases generalizing earlier with
  | nil => simp [uses]
  | cons first rest ih =>
      rw [uses, List.mem_cons, ih, Prod.mk.injEq]
      by_cases hsame : base = first
      · subst hsame
        rw [List.count_cons_self, List.count_cons_self]
        simp only [true_and]
        omega
      · rw [List.count_cons_of_ne (Ne.symm hsame), List.count_cons_of_ne (Ne.symm hsame)]
        simp only [hsame, false_and, false_or]

theorem uses_nodup (earlier bases : List String) : (uses earlier bases).Nodup := by
  induction bases generalizing earlier with
  | nil => exact List.nodup_nil
  | cons first rest ih =>
      rw [uses, List.nodup_cons]
      refine ⟨fun hmem => ?_, ih _⟩
      rw [mem_uses, List.count_cons_self] at hmem
      omega

/-! ## The table

The table holds a count for every base that came up, and nothing else. -/

/-- Whether a table holds the counts of a list. -/
def Tallies (counts : BaseCounts) (earlier : List String) : Prop :=
  ∀ base, counts.lookup base =
    if earlier.count base = 0 then none else some (earlier.count base)

theorem baseCounts_put_eq (counts : BaseCounts) (base : String) (n : Nat) :
    BaseCounts.put base n counts = put base n counts := by
  induction counts with
  | nil => rfl
  | cons entry rest ih =>
      obtain ⟨b, m⟩ := entry
      rw [BaseCounts.put, put, ih]

theorem lookup_baseCounts_put (counts : BaseCounts) (base other : String) (n : Nat) :
    (BaseCounts.put base n counts).lookup other =
      if other = base then some n else counts.lookup other := by
  rw [baseCounts_put_eq, lookup_put]

theorem Tallies.unique {counts : BaseCounts} {earlier : List String}
    (h : Tallies counts earlier) (base : String) :
    (counts.unique base).1 = numbered base (earlier.count base + 1) ∧
      Tallies (counts.unique base).2 (base :: earlier) := by
  have hbase := h base
  rw [BaseCounts.unique]
  by_cases hnew : earlier.count base = 0
  · rw [if_pos hnew] at hbase
    rw [hbase]
    refine ⟨by simp [numbered, serial, hnew], fun other => ?_⟩
    rw [lookup_baseCounts_put]
    by_cases hother : other = base
    · simp [hother, hnew]
    · rw [if_neg hother, List.count_cons_of_ne (Ne.symm hother), h]
  · rw [if_neg hnew] at hbase
    rw [hbase]
    refine ⟨?_, fun other => ?_⟩
    · rw [numbered, serial, if_neg (by omega)]
    · rw [lookup_baseCounts_put]
      by_cases hother : other = base
      · simp [hother]
      · rw [if_neg hother, List.count_cons_of_ne (Ne.symm hother), h]

/-- The identifiers that a table gives out are the names of the uses. -/
theorem uniqueIds_eq {counts : BaseCounts} {earlier : List String} (bases : List String)
    (h : Tallies counts earlier) :
    uniqueIds counts bases = (uses earlier bases).map fun use => numbered use.1 use.2 := by
  induction bases generalizing counts earlier with
  | nil => rfl
  | cons base rest ih =>
      obtain ⟨hname, htallies⟩ := h.unique base
      rw [uniqueIds, uses, List.map_cons, ← ih htallies, ← hname]

/-! ## Clashes -/

/-- Two different bases get one name: the later part of a number that one base
gets continues it to the other base, at its first use or with a number again. -/
def Clash (bases : List String) : Prop :=
  ∃ base more j k, more ≠ "" ∧ 2 ≤ j ∧ j ≤ bases.count base ∧
    1 ≤ k ∧ k ≤ bases.count (base ++ more) ∧ Decimal.digitString j = more ++ serial k

theorem append_split {s t u v : String} (h : s ++ t = u ++ v) :
    (∃ more, u = s ++ more ∧ t = more ++ v) ∨ ∃ more, s = u ++ more ∧ v = more ++ t := by
  have hchars : s.toList ++ t.toList = u.toList ++ v.toList := by
    rw [← String.toList_append, h, String.toList_append]
  rcases List.append_eq_append_iff.1 hchars with ⟨more, hu, ht⟩ | ⟨more, hs, hv⟩
  · refine .inl ⟨String.ofList more, ?_, ?_⟩
    · rw [← String.toList_inj, String.toList_append, String.toList_ofList, hu]
    · rw [← String.toList_inj, String.toList_append, String.toList_ofList, ht]
  · refine .inr ⟨String.ofList more, ?_, ?_⟩
    · rw [← String.toList_inj, String.toList_append, String.toList_ofList, hs]
    · rw [← String.toList_inj, String.toList_append, String.toList_ofList, hv]

/-- One name of two uses, of which the first has the shorter base: then it is
one use, or the bases clash. -/
theorem eq_or_clash {bases : List String} {base more : String} {j k : Nat}
    (hj : 1 ≤ j ∧ j ≤ bases.count base) (hk : 1 ≤ k ∧ k ≤ bases.count (base ++ more))
    (h : serial j = more ++ serial k) : (base, j) = (base ++ more, k) ∨ Clash bases := by
  by_cases hmore : more = ""
  · subst hmore
    rw [String.empty_append] at h
    rw [String.append_empty, serial_injective hj.1 hk.1 h]
    exact .inl rfl
  · have hlater : ¬ j ≤ 1 := by
      intro hfirst
      rw [serial, if_pos hfirst, eq_comm, String.append_eq_empty_iff] at h
      exact hmore h.1
    rw [serial, if_neg hlater] at h
    exact .inr ⟨base, more, j, k, hmore, by omega, hj.2, hk.1, hk.2, h⟩

/-- The identifiers for bases are different if and only if no bases clash. -/
theorem uniqueIds_nodup_iff {bases : List String} :
    (uniqueIds [] bases).Nodup ↔ ¬ Clash bases := by
  have hmem : ∀ use ∈ uses [] bases, 1 ≤ use.2 ∧ use.2 ≤ bases.count use.1 := by
    intro use huse
    have hcount := mem_uses.1 huse
    rw [List.count_nil, Nat.zero_add] at hcount
    exact hcount
  have hempty : Tallies [] [] := fun base => rfl
  rw [uniqueIds_eq bases hempty, List.nodup_map_iff_inj_on (uses_nodup [] bases)]
  constructor
  · intro hinjective hclash
    obtain ⟨base, more, j, k, hmore, hj, hjbase, hk, hkbase, hdigits⟩ := hclash
    have hname : numbered base j = numbered (base ++ more) k := by
      rw [numbered, numbered, String.append_assoc, ← hdigits, serial, if_neg (by omega)]
    have hsame := hinjective (base, j) (mem_uses.2 (by simp; omega)) (base ++ more, k)
      (mem_uses.2 (by simp; omega)) hname
    rw [Prod.mk.injEq] at hsame
    exact hmore (String.append_eq_left_iff.1 hsame.1.symm)
  · intro hclash first hfirst second hsecond hname
    obtain ⟨b, j⟩ := first
    obtain ⟨c, k⟩ := second
    -- One base is the longer one, and what it has more is the start of a number.
    rcases append_split hname with ⟨more, rfl, hj⟩ | ⟨more, rfl, hk⟩
    · exact (eq_or_clash (hmem _ hfirst) (hmem _ hsecond) hj).resolve_right hclash
    · exact ((eq_or_clash (hmem _ hsecond) (hmem _ hfirst) hk).resolve_right hclash).symm

/-! ## Documents -/

/-- The bases of the identifiers of a document's operations, in its order. -/
def bases (store : Store) (paths : Entries) : List String :=
  (endpoints store paths).map fun e => baseId store e.path e.method e.details

/-- The items of a catalogue for names. An operation without a name would be
called by its method and path, so it gets the name that stands for nothing. -/
def listed (names : List String) : List CatalogueItem :=
  names.map fun name => ⟨if name = "" then "operation" else name, defaultGroup⟩

theorem listed_named (names : List String) : ∀ item ∈ listed names, item.name ≠ "" := by
  intro item hitem
  obtain ⟨name, _, rfl⟩ := List.mem_map.1 hitem
  by_cases h : name = "" <;> simp [h]

theorem listed_bases (names : List String) :
    (listed names).map Catalogue.base =
      names.map fun name => Naming.camelCase (Naming.operationSlug name) := by
  have hnone : Naming.operationSlug "operation" = Naming.operationSlug "" := by decide +kernel
  rw [listed, List.map_map]
  refine List.map_congr_left fun name _ => ?_
  by_cases h : name = "" <;> simp [Catalogue.base, h, hnone]

/-- The identifiers of a document's operations are given out to its bases in
order, and they are different if and only if no bases clash. For any names there
is a document whose bases are theirs. -/
theorem build_ids_nodup_iff {store : Store} {document : Value} {operations : List Operation}
    (h : build store document = .ok operations) (names : List String) :
    (∃ (paths : Entries) (unsorted : List Operation),
      (store.member document "paths" >>= store.entriesOrNone) = .ok paths ∧
      operations = unsorted.mergeSort precedes ∧
      unsorted.map (·.id) = uniqueIds [] (bases store paths) ∧
      ((operations.map (·.id)).Nodup ↔ ¬ Clash (bases store paths))) ∧
    ∃ store document operations paths,
      build store document = .ok operations ∧
      (store.member document "paths" >>= store.entriesOrNone) = .ok paths ∧
      bases store paths = names.map fun name => Naming.camelCase (Naming.operationSlug name) := by
  constructor
  · obtain ⟨paths, unsorted, hpaths, hsorted, hids⟩ := build_ids h
    refine ⟨paths, unsorted, hpaths, hsorted, hids, ?_⟩
    have hperm : (operations.map (·.id)).Perm (uniqueIds [] (bases store paths)) := by
      rw [hsorted, bases, ← idsOf, ← hids]
      exact (List.mergeSort_perm unsorted precedes).map _
    rw [hperm.nodup_iff, uniqueIds_nodup_iff]
  · have hnames := listed_named names
    refine ⟨_, _, _, _, Catalogue.build_eq hnames, Catalogue.member_paths, ?_⟩
    rw [bases, Catalogue.bases_eq hnames, listed_bases]

/-- Two names without a clash, and so two identifiers. -/
theorem build_ids_nodup_of_two :
    ∃ store document operations, build store document = .ok operations ∧
      operations.length = 2 ∧ (operations.map (·.id)).Nodup := by
  have hbuild := Catalogue.build_eq (listed_named ["a", "b"])
  obtain ⟨⟨paths, unsorted, hpaths, _, _, hnodup⟩, _⟩ := build_ids_nodup_iff hbuild []
  have hbases : bases (Catalogue.store (listed ["a", "b"])) paths = ["a", "b"] := by
    rw [Except.ok.inj (hpaths.symm.trans Catalogue.member_paths), bases,
      Catalogue.bases_eq (listed_named ["a", "b"])]
    decide +kernel
  refine ⟨_, _, _, hbuild, by simp [Catalogue.operations, uniqueIds_length, listed], ?_⟩
  rw [hnodup, hbases]
  intro hclash
  obtain ⟨base, more, j, k, _, hj, hjbase, _⟩ := hclash
  have honce : ["a", "b"].count base ≤ 1 := List.nodup_iff_count_le_one.1 (by decide) base
  omega

/-- The second use of `a` gets the name of `a2`. -/
theorem build_ids_repeated :
    ∃ store document operations, build store document = .ok operations ∧
      (operations.map (·.id)).Perm ["a", "a2", "a2"] ∧ ¬ (operations.map (·.id)).Nodup := by
  have hids : (Catalogue.operations (listed ["a", "a", "a2"])).map (·.id) =
      ["a", "a2", "a2"] := by
    rw [Catalogue.operations_ids]
    decide +kernel
  have hperm := (List.mergeSort_perm
    (Catalogue.operations (listed ["a", "a", "a2"])) precedes).map (·.id)
  rw [hids] at hperm
  refine ⟨_, _, _, Catalogue.build_eq (listed_named ["a", "a", "a2"]), hperm, ?_⟩
  rw [hperm.nodup_iff]
  decide

end TypedClient.Operation
