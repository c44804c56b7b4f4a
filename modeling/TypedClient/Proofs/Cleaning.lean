import Mathlib.Algebra.Ring.Nat
import TypedClient.CommandLine.Run
import TypedClient.Proofs.FileTrees

/-!
# What cleaning leaves

Cleaning removes the generated files below a directory, and then goes through
the directories once, the deepest first, and removes those that are empty when it
is their turn. One pass is enough: a directory is empty at its turn if and only
if no file was below it to begin with, since whatever directory lies below it
has a longer place and had its turn before. So what remains can be said without
the order: the entries that are neither generated files nor `isBarren`.
-/

namespace TypedClient

namespace Clean

open FileTree

variable {t : FileTree} {root place : Place} {places : List Place} {e : Place × FileEntry}

/-! ## Generated files -/

/-- Whether something is a generated file below a place. -/
def isTarget (root : Place) (e : Place × FileEntry) : Bool :=
  isBelow root e.1 && isGenerated e.1 e.2

theorem mem_generatedFiles {size : Nat} : (place, size) ∈ generatedFiles t root ↔
    ∃ bytes, (place, .file bytes) ∈ t.entries ∧ isTarget root (place, .file bytes) = true ∧
      bytes.size = size := by
  rw [generatedFiles, List.mem_filterMap]
  constructor
  · rintro ⟨⟨p, entry⟩, hmem, hsome⟩
    rw [listing, List.mem_mergeSort, below, List.mem_filter] at hmem
    cases entry with
    | directory => cases hsome
    | file bytes =>
        dsimp only at hsome
        split at hsome
        · next hgenerated =>
            cases hsome
            refine ⟨bytes, hmem.1, ?_, rfl⟩
            exact Bool.and_eq_true_iff.2 ⟨hmem.2, hgenerated⟩
        · cases hsome
  · rintro ⟨bytes, hmem, htarget, rfl⟩
    rw [isTarget, Bool.and_eq_true] at htarget
    refine ⟨(place, .file bytes), ?_, if_pos htarget.2⟩
    rw [listing, List.mem_mergeSort, below, List.mem_filter]
    exact ⟨hmem, htarget.1⟩

theorem generatedFiles_nodup (h : t.Unambiguous) :
    ((generatedFiles t root).map (·.1)).Nodup := by
  have hlisting : ((t.listing root).map (·.1)).Nodup := by
    rw [listing, ((List.mergeSort_perm _ _).map _).nodup_iff]
    exact h.sublist (List.filter_sublist.map _)
  refine hlisting.sublist ?_
  rw [generatedFiles]
  induction t.listing root with
  | nil => exact List.Sublist.slnil
  | cons e rest ih =>
      obtain ⟨place, entry⟩ := e
      rw [List.filterMap_cons, List.map_cons]
      cases entry with
      | directory => exact ih.cons _
      | file bytes =>
          dsimp only
          split
          · exact ih.cons _
          · next hsome =>
              split at hsome
              · cases hsome
                exact ih.cons_cons _
              · cases hsome

theorem removeFiles_eq (places : List Place) (t : FileTree) :
    removeFiles places t = ⟨t.home, t.entries.filter fun e => !places.contains e.1⟩ := by
  induction places generalizing t with
  | nil => simp [removeFiles]
  | cons place rest ih =>
      rw [removeFiles, List.foldl_cons]
      refine (ih _).trans ?_
      rw [erase, List.filter_filter]
      congr 1
      refine List.filter_congr fun e _ => ?_
      rw [List.contains_cons, Bool.not_or, Bool.and_comm, bne]

/-- A tree without the generated files below a place. -/
def cleared (t : FileTree) (root : Place) : FileTree :=
  removeFiles ((generatedFiles t root).map (·.1)) t

theorem mem_cleared (h : t.Unambiguous) :
    e ∈ (cleared t root).entries ↔ e ∈ t.entries ∧ isTarget root e = false := by
  obtain ⟨place, entry⟩ := e
  rw [cleared, removeFiles_eq, List.mem_filter, Bool.not_eq_true', ← Bool.not_eq_true,
    List.contains_iff_mem, List.mem_map]
  refine and_congr_right fun hmem => ?_
  rw [← Bool.not_eq_true]
  refine not_congr ⟨?_, fun htarget => ?_⟩
  · rintro ⟨⟨p, size⟩, hfile, rfl⟩
    obtain ⟨bytes, hbytes, htarget, _⟩ := mem_generatedFiles.1 hfile
    rwa [← entry_unique h hbytes hmem]
  · cases entry with
    | directory => simp [isTarget, isGenerated] at htarget
    | file bytes => exact ⟨(place, bytes.size), mem_generatedFiles.2 ⟨bytes, hmem, htarget, rfl⟩, rfl⟩

theorem cleared_unambiguous (h : t.Unambiguous) : (cleared t root).Unambiguous := by
  rw [cleared, removeFiles_eq]
  exact h.sublist (List.filter_sublist.map _)

/-! ## Empty directories -/

/-- Whether no file lies below a place. -/
def isBarren (t : FileTree) (place : Place) : Bool := (t.below place).all (·.2.isDirectory)

theorem isBarren_eq_false : isBarren t place = false ↔
    ∃ inner bytes, (inner, .file bytes) ∈ t.entries ∧ isBelow place inner = true := by
  rw [isBarren, List.all_eq_false]
  constructor
  · rintro ⟨⟨inner, entry⟩, hmem, hfile⟩
    rw [below, List.mem_filter] at hmem
    cases entry with
    | directory => exact absurd rfl hfile
    | file bytes => exact ⟨inner, bytes, hmem⟩
  · rintro ⟨inner, bytes, hmem⟩
    exact ⟨(inner, .file bytes), List.mem_filter.2 hmem, Bool.false_ne_true⟩

/-- Where only directories go, no place becomes barren. -/
theorem isBarren_filter {keep : Place × FileEntry → Bool}
    (hkeep : ∀ e ∈ t.entries, e.2.isDirectory = false → keep e = true) :
    isBarren ⟨t.home, t.entries.filter keep⟩ place = isBarren t place := by
  rw [Bool.eq_iff_iff, ← not_iff_not, Bool.not_eq_true, Bool.not_eq_true, isBarren_eq_false,
    isBarren_eq_false]
  refine exists₂_congr fun inner bytes => and_congr_left fun _ => ?_
  rw [List.mem_filter, and_iff_left_iff_imp]
  exact fun hmem => hkeep _ hmem rfl

/-- The directories that are listed have the deepest first, and the directories below them are
listed or hold a file. -/
structure Listed (places : List Place) (t : FileTree) : Prop where
  deepest : places.Pairwise fun a b => b.length ≤ a.length
  directory : ∀ e ∈ t.entries, e.1 ∈ places → e.2.isDirectory = true
  inner : ∀ place ∈ places, ∀ e ∈ t.entries, isBelow place e.1 = true → e.2.isDirectory = true →
    e.1 ∈ places ∨ isBarren t e.1 = false

/-- The first listed directory is empty at its turn if it holds no file. -/
theorem Listed.isEmptyAt {rest : List Place} (h : Listed (place :: rest) t) :
    t.isEmptyAt place = isBarren t place := by
  rw [Bool.eq_iff_iff]
  constructor
  · intro hempty
    rw [FileTree.isEmptyAt, List.isEmpty_iff] at hempty
    rw [isBarren, hempty]
    rfl
  · intro hbarren
    rw [FileTree.isEmptyAt, List.isEmpty_iff, List.eq_nil_iff_forall_not_mem]
    intro e he
    -- What is left below is a directory. It cannot be listed, as a deeper one would have come
    -- first, and it cannot hold a file, as that file would lie below `place` too.
    have hdirectory : e.2.isDirectory = true := List.all_eq_true.1 hbarren e he
    obtain ⟨hmem, hbelow⟩ := List.mem_filter.1 he
    rcases h.inner place List.mem_cons_self e hmem hbelow hdirectory with hlisted | hfruitful
    · have hlonger := length_lt_of_isBelow hbelow
      rcases List.mem_cons.1 hlisted with hsame | hrest
      · rw [hsame] at hlonger
        exact Nat.lt_irrefl _ hlonger
      · exact absurd ((List.pairwise_cons.1 h.deepest).1 _ hrest) (Nat.not_le_of_lt hlonger)
    · obtain ⟨inner, bytes, hfile, hinner⟩ := isBarren_eq_false.1 hfruitful
      have hheld : isBarren t place = false :=
        isBarren_eq_false.2 ⟨inner, bytes, hfile, isBelow_trans hbelow hinner⟩
      rw [hheld] at hbarren
      cases hbarren

theorem Listed.tail {rest : List Place} (h : Listed (place :: rest) t)
    (hbarren : isBarren t place = false) : Listed rest t where
  deepest := (List.pairwise_cons.1 h.deepest).2
  directory := fun e he hlisted => h.directory e he (List.mem_cons_of_mem _ hlisted)
  inner := by
    intro p hp e he hbelow hdirectory
    rcases h.inner p (List.mem_cons_of_mem _ hp) e he hbelow hdirectory with hlisted | hfruitful
    · rcases List.mem_cons.1 hlisted with hsame | hrest
      · exact .inr (hsame ▸ hbarren)
      · exact .inl hrest
    · exact .inr hfruitful

theorem Listed.isBarren_erase {rest : List Place} (h : Listed (place :: rest) t) (p : Place) :
    isBarren (t.erase place) p = isBarren t p := by
  refine isBarren_filter fun e he hfile => ?_
  rw [bne_iff_ne]
  intro hsame
  rw [h.directory e he (hsame ▸ List.mem_cons_self)] at hfile
  cases hfile

theorem Listed.erase {rest : List Place} (h : Listed (place :: rest) t) :
    Listed rest (t.erase place) where
  deepest := (List.pairwise_cons.1 h.deepest).2
  directory := fun e he hlisted =>
    h.directory e (List.mem_filter.1 he).1 (List.mem_cons_of_mem _ hlisted)
  inner := by
    intro p hp e he hbelow hdirectory
    obtain ⟨hmem, hne⟩ := List.mem_filter.1 he
    rw [h.isBarren_erase]
    rcases h.inner p (List.mem_cons_of_mem _ hp) e hmem hbelow hdirectory with hlisted | hfruitful
    · exact .inl ((List.mem_cons.1 hlisted).resolve_left (bne_iff_ne.1 hne))
    · exact .inr hfruitful

/-- Of the listed directories those go that hold no file. -/
theorem removeEmpty_eq (h : Listed places t) :
    removeEmpty places t =
      (⟨t.home, t.entries.filter fun e => !(places.contains e.1 && isBarren t e.1)⟩,
        places.filter (isBarren t)) := by
  induction places generalizing t with
  | nil => simp [removeEmpty]
  | cons place rest ih =>
      rw [removeEmpty, h.isEmptyAt]
      cases hbarren : isBarren t place with
      | true =>
          -- Taking a directory away changes for no other one whether it holds a file.
          have hsame : isBarren (t.erase place) = isBarren t := funext h.isBarren_erase
          rw [if_pos rfl, ih h.erase, hsame, List.filter_cons_of_pos hbarren, FileTree.erase,
            List.filter_filter]
          have hkept : t.entries.filter (fun e => !(rest.contains e.1 && isBarren t e.1) &&
              e.1 != place) =
              t.entries.filter fun e => !((place :: rest).contains e.1 && isBarren t e.1) := by
            refine List.filter_congr fun e _ => ?_
            rw [List.contains_cons]
            by_cases he : e.1 = place
            · simp [he, hbarren]
            · simp [bne, beq_false_of_ne he]
          rw [hkept]
      | false =>
          rw [if_neg Bool.false_ne_true, ih (h.tail hbarren),
            List.filter_cons_of_neg (by simp [hbarren])]
          congr 2
          refine List.filter_congr fun e _ => ?_
          rw [List.contains_cons]
          by_cases he : e.1 = place
          · simp [he, hbarren]
          · rw [beq_false_of_ne he, Bool.false_or]

theorem mem_directories : place ∈ directories t root ↔
    ∃ e ∈ t.entries, isBelow root place = true ∧ e.2.isDirectory = true ∧ e.1 = place := by
  rw [directories, List.mem_mergeSort, List.mem_map]
  simp only [List.mem_filter, below]
  constructor
  · rintro ⟨e, ⟨⟨hmem, hbelow⟩, hdirectory⟩, rfl⟩
    exact ⟨e, hmem, hbelow, hdirectory, rfl⟩
  · rintro ⟨e, hmem, hbelow, hdirectory, rfl⟩
    exact ⟨e, ⟨⟨hmem, hbelow⟩, hdirectory⟩, rfl⟩

theorem directories_listed (h : t.Unambiguous) (root : Place) : Listed (directories t root) t where
  deepest := by
    have htrans : ∀ a b c : Place, decide (b.length ≤ a.length) = true →
        decide (c.length ≤ b.length) = true → decide (c.length ≤ a.length) = true := by
      intro a b c hab hbc
      rw [decide_eq_true_eq] at *
      exact Nat.le_trans hbc hab
    have htotal : ∀ a b : Place,
        (decide (b.length ≤ a.length) || decide (a.length ≤ b.length)) = true := by
      intro a b
      rw [Bool.or_eq_true, decide_eq_true_eq, decide_eq_true_eq]
      exact Nat.le_total _ _
    exact (List.pairwise_mergeSort htrans htotal _).imp of_decide_eq_true
  directory := by
    intro e he hlisted
    obtain ⟨e', he', _, hdirectory, hsame⟩ := mem_directories.1 hlisted
    have hentry : e'.2 = e.2 := entry_unique h he' (hsame ▸ he)
    rwa [← hentry]
  inner := by
    intro place hplace e he hbelow hdirectory
    obtain ⟨_, _, hroot, _, _⟩ := mem_directories.1 hplace
    exact .inl (mem_directories.2 ⟨e, he, isBelow_trans hroot hbelow, hdirectory, rfl⟩)

theorem at?_removeFiles_of_not_mem (h : place ∉ places) :
    (removeFiles places t).at? place = t.at? place := by
  induction places generalizing t with
  | nil => rfl
  | cons p rest ih =>
      rw [List.mem_cons, not_or] at h
      rw [removeFiles, List.foldl_cons]
      exact (ih h.2).trans (at?_erase h.1)

theorem at?_removeEmpty_of_not_mem (h : place ∉ places) :
    (removeEmpty places t).1.at? place = t.at? place := by
  induction places generalizing t with
  | nil => rfl
  | cons p rest ih =>
      rw [List.mem_cons, not_or] at h
      rw [removeEmpty]
      split
      · exact (ih h.2).trans (at?_erase h.1)
      · exact ih h.2

theorem home_removeEmpty : (removeEmpty places t).1.home = t.home := by
  induction places generalizing t with
  | nil => rfl
  | cons p rest ih =>
      rw [removeEmpty]
      split
      · exact ih
      · exact ih

theorem not_mem_of_isBelow (h : ∀ p ∈ places, isBelow root p = true)
    (hplace : isBelow root place = false) : place ∉ places := by
  intro hmem
  rw [h place hmem] at hplace
  cases hplace

theorem home_cleared : (cleared t root).home = t.home := by
  rw [cleared, removeFiles_eq]

theorem at?_cleared (hplace : isBelow root place = false) :
    (cleared t root).at? place = t.at? place := by
  refine at?_removeFiles_of_not_mem (not_mem_of_isBelow (fun p hp => ?_) hplace)
  obtain ⟨⟨_, size⟩, hfile, rfl⟩ := List.mem_map.1 hp
  obtain ⟨bytes, _, htarget, _⟩ := mem_generatedFiles.1 hfile
  exact (Bool.and_eq_true_iff.1 htarget).1

theorem isBelow_of_mem_directories (h : place ∈ directories t root) : isBelow root place = true := by
  obtain ⟨_, _, hbelow, _⟩ := mem_directories.1 h
  exact hbelow

/-! ## Directories that have been gone through in part -/

theorem mem_of_file {bytes : ByteArray} (h : t.Unambiguous)
    (hplace : t.at? place = some (.file bytes)) : (place, .file bytes) ∈ t.entries := by
  rwa [at?_of_ne_nil (ne_nil_of_file hplace), lookup_iff_mem h] at hplace

/-- A file is gone after its removal if it was listed, and else it is there as before. -/
theorem at?_cleared_file {bytes : ByteArray} (h : t.Unambiguous)
    (hplace : t.at? place = some (.file bytes)) :
    (cleared t root).at? place =
      if (place, bytes.size) ∈ generatedFiles t root then none else some (.file bytes) := by
  have hmem := mem_of_file h hplace
  have hlisted : (place, bytes.size) ∈ generatedFiles t root ↔
      isTarget root (place, .file bytes) = true := by
    rw [mem_generatedFiles]
    constructor
    · rintro ⟨bytes', hmem', htarget, -⟩
      rwa [← entry_unique h hmem' hmem]
    · intro htarget
      exact ⟨bytes, hmem, htarget, rfl⟩
  rw [at?_of_ne_nil (ne_nil_of_file hplace)]
  split
  · next hgone =>
      refine List.lookup_eq_none_iff.2 fun e he => bne_iff_ne.2 ?_
      rintro rfl
      obtain ⟨hthere, hkept⟩ := (mem_cleared h).1 he
      have hentry : e = (e.1, .file bytes) := Prod.ext rfl (entry_unique h hthere hmem)
      rw [hentry, hlisted.1 hgone] at hkept
      cases hkept
  · next hkept =>
      rw [lookup_iff_mem (cleared_unambiguous h), mem_cleared h]
      exact ⟨hmem, Bool.eq_false_iff.2 (mt hlisted.2 hkept)⟩

/-- Directories that are gone through are not where a file was. -/
theorem at?_removeEmpty_file {bytes : ByteArray} (h : t.Unambiguous)
    (hplaces : ∀ p ∈ places, p ∈ directories (cleared t root) root)
    (hplace : t.at? place = some (.file bytes)) :
    (removeEmpty places (cleared t root)).1.at? place =
      if (place, bytes.size) ∈ generatedFiles t root then none else some (.file bytes) := by
  refine (at?_removeEmpty_of_not_mem fun hmem => ?_).trans (at?_cleared_file h hplace)
  obtain ⟨e, he, _, hdirectory, rfl⟩ := mem_directories.1 (hplaces place hmem)
  rw [entry_unique h ((mem_cleared h).1 he).1 (mem_of_file h hplace)] at hdirectory
  cases hdirectory

/-- What is left of a tree was there before. -/
theorem at?_of_erase {p : Place} {entry : FileEntry} (h : (t.erase p).at? place = some entry) :
    t.at? place = some entry := by
  by_cases hsame : place = p
  · subst hsame
    by_cases hroot : place = []
    · rwa [hroot, at?_nil] at h ⊢
    · rw [at?_of_ne_nil hroot] at h
      exact absurd (mem_of_lookup h) (by simp [FileTree.erase])
  · rwa [at?_erase hsame] at h

theorem at?_of_removeFiles {entry : FileEntry} (h : (removeFiles places t).at? place = some entry) :
    t.at? place = some entry := by
  induction places generalizing t with
  | nil => exact h
  | cons p rest ih => exact at?_of_erase (ih h)

theorem at?_of_removeEmpty {entry : FileEntry}
    (h : (removeEmpty places t).1.at? place = some entry) : t.at? place = some entry := by
  induction places generalizing t with
  | nil => exact h
  | cons p rest ih =>
      rw [removeEmpty] at h
      split at h
      · exact at?_of_erase (ih h)
      · exact ih h

theorem mem_of_removeEmpty (h : e ∈ (removeEmpty places t).1.entries) : e ∈ t.entries := by
  induction places generalizing t with
  | nil => exact h
  | cons p rest ih =>
      rw [removeEmpty] at h
      split at h
      · exact (List.mem_filter.1 (ih h)).1
      · exact ih h

/-- A directory below which something is left was not empty when it was its turn. -/
theorem at?_removeEmpty_of_held (h : e ∈ (removeEmpty places t).1.entries)
    (hbelow : isBelow place e.1 = true) : (removeEmpty places t).1.at? place = t.at? place := by
  induction places generalizing t with
  | nil => rfl
  | cons p rest ih =>
      rw [removeEmpty] at h ⊢
      split at h
      · next hempty =>
          rw [if_pos hempty]
          refine (ih h).trans (at?_erase ?_)
          rintro rfl
          have hmem : e ∈ t.below place :=
            List.mem_filter.2 ⟨(List.mem_filter.1 (mem_of_removeEmpty h)).1, hbelow⟩
          rw [FileTree.isEmptyAt, List.isEmpty_iff] at hempty
          exact List.ne_nil_of_mem hmem hempty
      · next hfull =>
          rw [if_neg hfull]
          exact ih h

/-! ## Cleaning a directory -/

/-- What is at a place that does not lie below the directory stays. -/
theorem at?_sweep_elsewhere (hplace : isBelow root place = false) :
    (sweep t root).tree.at? place = t.at? place := by
  refine (at?_removeEmpty_of_not_mem fun hmem => ?_).trans (at?_cleared hplace)
  rw [isBelow_of_mem_directories hmem] at hplace
  cases hplace

theorem home_sweep : (sweep t root).tree.home = t.home := home_removeEmpty.trans home_cleared

theorem sweep_tree (h : t.Unambiguous) :
    (sweep t root).tree = ⟨(cleared t root).home, (cleared t root).entries.filter fun e =>
      !((directories (cleared t root) root).contains e.1 && isBarren (cleared t root) e.1)⟩ :=
  congrArg (·.1) (removeEmpty_eq (directories_listed (cleared_unambiguous h) root))

theorem sweep_unambiguous (h : t.Unambiguous) : (sweep t root).tree.Unambiguous := by
  rw [sweep_tree h]
  exact (cleared_unambiguous h).sublist (List.filter_sublist.map _)

theorem isBarren_sweep (h : t.Unambiguous) (place : Place) :
    isBarren (sweep t root).tree place = isBarren (cleared t root) place := by
  rw [sweep_tree h]
  refine isBarren_filter fun e he hfile => ?_
  cases hlisted : (directories (cleared t root) root).contains e.1 with
  | false => rfl
  | true =>
      rw [List.contains_iff_mem] at hlisted
      rw [(directories_listed (cleared_unambiguous h) root).directory e he hlisted] at hfile
      cases hfile

/-- Of what lies below the directory, the generated files go and the directories that hold no
file. -/
theorem mem_sweep (h : t.Unambiguous) : e ∈ (sweep t root).tree.entries ↔
    e ∈ t.entries ∧ isTarget root e = false ∧ (isBelow root e.1 = true →
      e.2.isDirectory = true → isBarren (sweep t root).tree e.1 = false) := by
  rw [isBarren_sweep h, sweep_tree h, List.mem_filter, mem_cleared h, and_assoc]
  refine and_congr_right fun hmem => and_congr_right fun htarget => ?_
  have hlisted : (directories (cleared t root) root).contains e.1 = true ↔
      isBelow root e.1 = true ∧ e.2.isDirectory = true := by
    rw [List.contains_iff_mem]
    constructor
    · intro hplace
      obtain ⟨_, _, hbelow, _⟩ := mem_directories.1 hplace
      exact ⟨hbelow, (directories_listed (cleared_unambiguous h) root).directory e
        ((mem_cleared h).2 ⟨hmem, htarget⟩) hplace⟩
    · rintro ⟨hbelow, hdirectory⟩
      exact mem_directories.2 ⟨e, (mem_cleared h).2 ⟨hmem, htarget⟩, hbelow, hdirectory, rfl⟩
  rw [Bool.not_eq_true', Bool.and_eq_false_imp, hlisted, and_imp]

theorem at?_sweep {entry : FileEntry} (h : t.Unambiguous) (hplace : place ≠ []) :
    (sweep t root).tree.at? place = some entry ↔
      t.at? place = some entry ∧ isTarget root (place, entry) = false ∧
        (isBelow root place = true → entry.isDirectory = true →
          isBarren (sweep t root).tree place = false) := by
  rw [at?_of_ne_nil hplace, at?_of_ne_nil hplace, lookup_iff_mem (sweep_unambiguous h), lookup_iff_mem h, mem_sweep h]

/-- The files that remain are those that are no generated files below the directory. -/
theorem file_sweep {bytes : ByteArray} (h : t.Unambiguous) :
    (sweep t root).tree.at? place = some (.file bytes) ↔
      t.at? place = some (.file bytes) ∧
        ¬ (isBelow root place = true ∧ isGenerated place (.file bytes) = true) := by
  by_cases hroot : place = []
  · simp [hroot]
  · rw [at?_sweep h hroot, isTarget, ← Bool.and_eq_true, Bool.not_eq_true]
    refine and_congr_right fun _ => and_iff_left fun _ hfile => ?_
    cases hfile

theorem directory_sweep (h : t.Unambiguous) (hbelow : isBelow root place = true) :
    (sweep t root).tree.at? place = some .directory ↔ t.at? place = some .directory ∧
      ∃ inner bytes, isBelow place inner = true ∧
        (sweep t root).tree.at? inner = some (.file bytes) := by
  rw [at?_sweep h (ne_nil_of_isBelow hbelow), isBarren_eq_false]
  refine and_congr_right fun _ => ?_
  constructor
  · rintro ⟨-, hfruitful⟩
    obtain ⟨inner, bytes, hmem, hinner⟩ := hfruitful hbelow rfl
    exact ⟨inner, bytes, hinner, ((sweep_unambiguous h).at?_iff hinner).2 hmem⟩
  · rintro ⟨inner, bytes, hinner, hplace⟩
    refine ⟨?_, fun _ _ => ⟨inner, bytes, ((sweep_unambiguous h).at?_iff hinner).1 hplace, hinner⟩⟩
    rw [isTarget, isGenerated, Bool.and_false]

/-- The files that are reported are those that were removed. -/
theorem mem_files_sweep {size : Nat} (h : t.Unambiguous) :
    (place, size) ∈ (sweep t root).files ↔
      ∃ bytes, t.at? place = some (.file bytes) ∧
        (sweep t root).tree.at? place ≠ some (.file bytes) ∧ bytes.size = size := by
  refine mem_generatedFiles.trans (exists_congr fun bytes => ?_)
  rw [isTarget, Bool.and_eq_true, ne_eq, file_sweep h]
  constructor
  · rintro ⟨hmem, htarget, hsize⟩
    exact ⟨(h.at?_iff htarget.1).2 hmem, fun hkept => hkept.2 htarget, hsize⟩
  · rintro ⟨hplace, hgone, hsize⟩
    have htarget : isBelow root place = true ∧ isGenerated place (.file bytes) = true :=
      not_not.1 fun hkept => hgone ⟨hplace, hkept⟩
    exact ⟨(h.at?_iff htarget.1).1 hplace, htarget, hsize⟩

/-- Below a place, no generated file is left and no directory without a file. -/
structure Settled (t : FileTree) (root : Place) : Prop where
  file : ∀ e ∈ t.entries, isTarget root e = false
  directory : ∀ e ∈ t.entries, isBelow root e.1 = true → e.2.isDirectory = true →
    isBarren t e.1 = false

theorem sweep_settled (h : t.Unambiguous) : Settled (sweep t root).tree root where
  file := fun _ he => ((mem_sweep h).1 he).2.1
  directory := fun _ he => ((mem_sweep h).1 he).2.2

theorem Settled.generatedFiles (h : Settled t root) : generatedFiles t root = [] := by
  rw [List.eq_nil_iff_forall_not_mem]
  rintro ⟨place, size⟩ hfile
  obtain ⟨bytes, hmem, htarget, _⟩ := mem_generatedFiles.1 hfile
  rw [h.file _ hmem] at htarget
  cases htarget

theorem Settled.removeEmpty (h : Settled t root) (hplaces : ∀ p ∈ places, p ∈ directories t root) :
    removeEmpty places t = (t, []) := by
  induction places with
  | nil => rfl
  | cons p rest ih =>
      rw [List.forall_mem_cons] at hplaces
      obtain ⟨e, hmem, hbelow, hdirectory, rfl⟩ := mem_directories.1 hplaces.1
      have hfull : t.isEmptyAt e.1 = false := by
        obtain ⟨inner, bytes, hfile, hinner⟩ :=
          isBarren_eq_false.1 (h.directory e hmem hbelow hdirectory)
        rw [FileTree.isEmptyAt, Bool.eq_false_iff, ne_eq, List.isEmpty_iff]
        exact List.ne_nil_of_mem (List.mem_filter.2 ⟨hfile, hinner⟩)
      rw [Clean.removeEmpty, hfull, if_neg Bool.false_ne_true, ih hplaces.2]

theorem Settled.cleared (h : Settled t root) : cleared t root = t := by
  rw [Clean.cleared, h.generatedFiles]
  rfl

/-- Where everything is settled, there is nothing to clean. -/
theorem Settled.sweep (h : Settled t root) : sweep t root = ⟨[], [], t⟩ := by
  have hsame := h.removeEmpty fun p hp => hp
  rw [Clean.sweep, h.generatedFiles]
  show Report.mk [] (Clean.removeEmpty (directories t root) t).2
    (Clean.removeEmpty (directories t root) t).1 = _
  rw [hsame]

/-- What it means that a directory of a tree was cleaned. -/
structure Cleaned (t : FileTree) (root : Place) (r : Report) : Prop where
  /-- The files that remain are those that are no generated files below the directory, with the
  bytes that they had. -/
  file : ∀ place bytes, r.tree.at? place = some (.file bytes) ↔
    t.at? place = some (.file bytes) ∧
      ¬ (isBelow root place = true ∧ isGenerated place (.file bytes) = true)
  /-- A directory below this one remains if a file remains below it, and only then. -/
  directory : ∀ place, isBelow root place = true → (r.tree.at? place = some .directory ↔
    t.at? place = some .directory ∧
      ∃ inner bytes, isBelow place inner = true ∧ r.tree.at? inner = some (.file bytes))
  /-- Whatever does not lie below the directory remains, the directory itself for one. -/
  elsewhere : ∀ place, isBelow root place = false → r.tree.at? place = t.at? place
  /-- The files that are reported are those that were removed, each with its size. -/
  reported : ∀ place size, (place, size) ∈ r.files ↔
    ∃ bytes, t.at? place = some (.file bytes) ∧ r.tree.at? place ≠ some (.file bytes) ∧
      bytes.size = size
  /-- No file is reported twice. -/
  distinct : (r.files.map (·.1)).Nodup
  /-- The total is that of the sizes. -/
  total : r.total = (r.files.map (·.2)).sum
  /-- Cleaned again, the directory stays as it is. -/
  again : sweep r.tree root = ⟨[], [], r.tree⟩

theorem sweep_cleaned (h : t.Unambiguous) (root : Place) : Cleaned t root (sweep t root) where
  file := fun _ _ => file_sweep h
  directory := fun _ => directory_sweep h
  elsewhere := fun _ => at?_sweep_elsewhere
  reported := fun _ _ => mem_files_sweep h
  distinct := generatedFiles_nodup h
  total := by rw [Report.total, List.sum_eq_foldr, List.foldr_map]
  again := (sweep_settled h).sweep

/-- What it means that a directory of a tree was cleaned of its files, and of some directories. -/
structure Begun (t : FileTree) (root : Place) (t' : FileTree) : Prop where
  /-- The files that remain are those that are no generated files below the directory, with the
  bytes that they had. -/
  file : ∀ place bytes, t'.at? place = some (.file bytes) ↔
    t.at? place = some (.file bytes) ∧
      ¬ (isBelow root place = true ∧ isGenerated place (.file bytes) = true)
  /-- No directory has come into being. -/
  directory : ∀ place, t'.at? place = some .directory → t.at? place = some .directory
  /-- Directories below which a file remains are still there. -/
  held : ∀ place, t.at? place = some .directory →
    (∃ inner bytes, isBelow place inner = true ∧ t'.at? inner = some (.file bytes)) →
    t'.at? place = some .directory
  elsewhere : ∀ place, isBelow root place = false → t'.at? place = t.at? place

theorem removeEmpty_begun (h : t.Unambiguous)
    (hplaces : ∀ p ∈ places, p ∈ directories (cleared t root) root) :
    Begun t root (removeEmpty places (cleared t root)).1 where
  file := by
    intro place bytes
    constructor
    · intro hplace
      have hcleared := at?_of_removeEmpty hplace
      have hmem := (mem_cleared h).1 (mem_of_file (cleared_unambiguous h) hcleared)
      refine ⟨at?_of_removeFiles hcleared, fun htarget => ?_⟩
      rw [isTarget, htarget.1, htarget.2] at hmem
      cases hmem.2
    · rintro ⟨hplace, hkept⟩
      rw [at?_removeEmpty_file h hplaces hplace, if_neg]
      intro hlisted
      obtain ⟨bytes', hmem, htarget, _⟩ := mem_generatedFiles.1 hlisted
      rw [entry_unique h hmem (mem_of_file h hplace), isTarget, Bool.and_eq_true] at htarget
      exact hkept htarget
  directory := fun _ hplace => at?_of_removeFiles (at?_of_removeEmpty hplace)
  held := by
    rintro place hplace ⟨inner, bytes, hinner, hfile⟩
    have hne := ne_nil_of_file hfile
    rw [at?_of_ne_nil hne] at hfile
    rw [at?_removeEmpty_of_held (mem_of_lookup hfile) hinner]
    refine (at?_removeFiles_of_not_mem fun hmem => ?_).trans hplace
    obtain ⟨⟨_, size⟩, hlisted, rfl⟩ := List.mem_map.1 hmem
    obtain ⟨bytes', hentry, htarget, _⟩ := mem_generatedFiles.1 hlisted
    rw [(h.at?_iff (Bool.and_eq_true_iff.1 htarget).1).2 hentry] at hplace
    cases hplace
  elsewhere := fun _ hplace => (at?_removeEmpty_of_not_mem (not_mem_of_isBelow
    (fun p hp => isBelow_of_mem_directories (hplaces p hp)) hplace)).trans (at?_cleared hplace)

end Clean

/-! ## The command -/

namespace CommandLine

open FileTree

/-- Arguments that have a directory cleaned. -/
structure Cleans (around : Surroundings) (args : List String) (outDir : Path) (root : Place) :
    Prop where
  accepted : ∃ a, Arguments.parse cleanSpecs none args = .ok a ∧ a.isSet "--dry-run" = false ∧
    Path.ofText (a.positional.getD "generated") = outDir
  located : around.files.locate outDir = .ok root
  directory : around.files.at? root = some .directory

/-- The lines about a directory that was cleaned. -/
def cleanedText (outDir : Path) (root : Place) (r : Clean.Report) : String :=
  unlines ([cleaningLine outDir] ++ fileLines outDir root "Removing" r.files
    ++ r.removed.map (fun place => "  Removed empty directory: " ++ shownPlace outDir root place)
    ++ ["", "Freed: " ++ FileSize.text r.total])

/-- How a command ends that cleaned a directory. -/
def cleanedOutcome (outDir : Path) (root : Place) (r : Clean.Report) : Outcome :=
  ⟨.code 0, cleanedText outDir root r, "", r.tree⟩

variable {around : Surroundings} {args : List String} {outDir : Path} {root : Place}
  {places : List Place}

theorem reachableDirectories_take (t : FileTree) (outDir : Path) (places : List Place) :
    ∃ n, reachableDirectories t outDir places = places.take n := by
  rw [reachableDirectories]
  split
  · next n _ => exact ⟨n, rfl⟩
  · exact ⟨places.length, List.take_length.symm⟩

/-- A directory that is passed by can be examined to the end. -/
theorem reachableDirectories_eq {t : FileTree} (hlocated : t.locate outDir = .ok root)
    (hdirectory : t.at? root = some .directory) (hby : outDir.PassesBy t.home root)
    (hplaces : ∀ p ∈ places, isBelow root p = true) :
    reachableDirectories t outDir places = places := by
  have hreached : ∀ n, (Clean.removeEmpty (places.take n) t).1.isDirectory outDir = true := by
    intro n
    have hkept : ∀ q, isBelow root q = false →
        (Clean.removeEmpty (places.take n) t).1.at? q = t.at? q := fun q hq =>
      Clean.at?_removeEmpty_of_not_mem
        (Clean.not_mem_of_isBelow (fun p hp => hplaces p (List.mem_of_mem_take hp)) hq)
    rw [isDirectory_iff (locate_congr Clean.home_removeEmpty hby hkept hlocated),
      hkept root (not_isBelow_self root)]
    exact hdirectory
  have hnone : (List.range (places.length + 1)).find? (fun n =>
      !(Clean.removeEmpty (places.take n) t).1.isDirectory outDir) = none := by
    rw [List.find?_eq_none]
    intro n _
    simp [hreached n]
  rw [reachableDirectories, hnone]

/-- Either a directory is cleaned, or the path to it breaks off while its directories are gone
through. -/
theorem wetClean_cases (around : Surroundings) (outDir : Path) (root : Place) :
    wetClean around outDir root = cleanedOutcome outDir root (Clean.sweep around.files root) ∨
      (wetClean around outDir root).exit = .fault .fileMissing ∧
        reachableDirectories (Clean.cleared around.files root) outDir
            (Clean.directories (Clean.cleared around.files root) root) ≠
          Clean.directories (Clean.cleared around.files root) root ∧
        ∃ n, (wetClean around outDir root).files =
          (Clean.removeEmpty ((Clean.directories (Clean.cleared around.files root) root).take n)
            (Clean.cleared around.files root)).1 := by
  by_cases hcut : (reachableDirectories (Clean.cleared around.files root) outDir
      (Clean.directories (Clean.cleared around.files root) root)).length <
      (Clean.directories (Clean.cleared around.files root) root).length
  · right
    have hends : wetClean around outDir root = _ := if_pos hcut
    rw [hends]
    refine ⟨rfl, fun hsame => ?_, ?_⟩
    · rw [hsame] at hcut
      exact Nat.lt_irrefl _ hcut
    · obtain ⟨n, hn⟩ := reachableDirectories_take (Clean.cleared around.files root) outDir
        (Clean.directories (Clean.cleared around.files root) root)
      exact ⟨n, congrArg (fun places => (Clean.removeEmpty places _).1) hn⟩
  · exact .inl (if_neg hcut)

theorem cleanCommand_eq (h : Cleans around args outDir root) :
    cleanCommand around args = wetClean around outDir root := by
  obtain ⟨a, hparse, hwet, rfl⟩ := h.accepted
  have hdirectory := (isDirectory_iff h.located).2 h.directory
  rw [cleanCommand, hparse]
  dsimp only
  rw [h.located, hdirectory]
  dsimp only
  rw [hwet, if_neg Bool.false_ne_true]

/-- A clean that ends well has cleaned the directory. -/
theorem Cleans.outcome (h : Cleans around args outDir root)
    (hexit : (cleanCommand around args).exit = .code 0) :
    cleanCommand around args = cleanedOutcome outDir root (Clean.sweep around.files root) := by
  rw [cleanCommand_eq h] at *
  rcases wetClean_cases around outDir root with hends | ⟨hfault, _⟩
  · exact hends
  · rw [hfault] at hexit
    cases hexit

/-- A clean ends well if the path does not lead through directories that may be removed. -/
theorem Cleans.exit (h : Cleans around args outDir root)
    (hby : outDir.PassesBy around.files.home root) :
    (cleanCommand around args).exit = .code 0 := by
  rw [cleanCommand_eq h]
  rcases wetClean_cases around outDir root with hends | ⟨_, hcut, _⟩
  · rw [hends]
    rfl
  · refine absurd ?_ hcut
    have hkept : ∀ q, isBelow root q = false →
        (Clean.cleared around.files root).at? q = around.files.at? q := fun q => Clean.at?_cleared
    have hbyCleared : outDir.PassesBy (Clean.cleared around.files root).home root := by
      rw [Clean.home_cleared]
      exact hby
    exact reachableDirectories_eq (locate_congr Clean.home_cleared hby hkept h.located)
      ((hkept root (not_isBelow_self root)).trans h.directory) hbyCleared
      fun p hp => Clean.isBelow_of_mem_directories hp

/-- A clean that does not end well has come to where its path leads no more. Then it has removed the
generated files, and directories that were empty. -/
theorem Cleans.begun (h : Cleans around args outDir root) (hfiles : around.files.Unambiguous)
    (hexit : (cleanCommand around args).exit ≠ .code 0) :
    (cleanCommand around args).exit = .fault .fileMissing ∧
      Clean.Begun around.files root (cleanCommand around args).files := by
  rw [cleanCommand_eq h] at *
  rcases wetClean_cases around outDir root with hends | ⟨hfault, _, n, htree⟩
  · rw [hends] at hexit
    exact absurd rfl hexit
  · rw [htree]
    exact ⟨hfault, Clean.removeEmpty_begun hfiles fun p hp => List.mem_of_mem_take hp⟩

theorem wetClean_files_of_settled (h : Clean.Settled around.files root) :
    (wetClean around outDir root).files = around.files := by
  rcases wetClean_cases around outDir root with hends | ⟨_, _, n, hfiles⟩
  · rw [hends, h.sweep]
    rfl
  · rw [h.cleared, h.removeEmpty fun p hp => List.mem_of_mem_take hp] at hfiles
    exact hfiles

/-- Where everything is settled, the command changes nothing, whatever comes of the path. -/
theorem cleanCommand_files_of_settled (h : Cleans around args outDir root) {t : FileTree}
    (hhome : t.home = around.files.home) (hsettled : Clean.Settled t root) :
    (cleanCommand { around with files := t } args).files = t := by
  obtain ⟨a, hparse, hwet, rfl⟩ := h.accepted
  rw [cleanCommand, hparse]
  dsimp only
  split
  · rfl
  · next place hlocated _ =>
      have hplace : place = root := by
        rw [← (locate_eq_ok.1 hlocated).2.2.2, ← (locate_eq_ok.1 h.located).2.2.2, hhome]
      rw [hwet, if_neg Bool.false_ne_true, hplace]
      exact wetClean_files_of_settled hsettled
  · rfl

/-- Cleaned directories can be cleaned again. -/
theorem Cleans.again (h : Cleans around args outDir root)
    (hby : outDir.PassesBy around.files.home root) {t : FileTree}
    (hhome : t.home = around.files.home) (hkept : ∀ q, isBelow root q = false → t.at? q = around.files.at? q) :
    Cleans { around with files := t } args outDir root where
  accepted := h.accepted
  located := locate_congr hhome hby hkept h.located
  directory := (hkept root (not_isBelow_self root)).trans h.directory

/-- Cleaning a directory of any tree removes the generated files and then the directories that hold
no file, and nothing else. A command that ends well has done just that, and run again it changes
nothing. It ends well if the path to the directory does not lead through what lies below it, and the
second run then reports that nothing was freed. Else it may remove a directory that its path leads
through and find its way no more: the same files are gone then, and perhaps not all of the empty
directories. -/
theorem clean_exact (around : Surroundings) (h : around.files.Unambiguous) (root : Place) :
    Clean.Cleaned around.files root (Clean.sweep around.files root) ∧
      ∀ args outDir, Cleans around args outDir root →
        ((cleanCommand around args).exit = .code 0 → cleanCommand around args =
          cleanedOutcome outDir root (Clean.sweep around.files root)) ∧
        (cleanCommand { around with files := (Clean.sweep around.files root).tree } args).files =
          (Clean.sweep around.files root).tree ∧
        (outDir.PassesBy around.files.home root → (cleanCommand around args).exit = .code 0 ∧
          cleanCommand { around with files := (Clean.sweep around.files root).tree } args =
            cleanedOutcome outDir root ⟨[], [], (Clean.sweep around.files root).tree⟩) ∧
        ((cleanCommand around args).exit ≠ .code 0 →
          (cleanCommand around args).exit = .fault .fileMissing ∧
            Clean.Begun around.files root (cleanCommand around args).files) := by
  have hcleaned := Clean.sweep_cleaned h root
  refine ⟨hcleaned, fun args outDir hargs => ⟨hargs.outcome,
    cleanCommand_files_of_settled hargs Clean.home_sweep (Clean.sweep_settled h),
    fun hby => ⟨hargs.exit hby, ?_⟩, hargs.begun h⟩⟩
  have hagain := hargs.again hby Clean.home_sweep hcleaned.elsewhere
  have hbyAgain : outDir.PassesBy (Clean.sweep around.files root).tree.home root := by
    rw [Clean.home_sweep]
    exact hby
  rw [hagain.outcome (hagain.exit hbyAgain), hcleaned.again]

/-- A client of two modules, one of them in a directory of its own, next to a file that was written
by hand. -/
def mixedFiles : FileTree where
  home := ["work"]
  entries :=
    [(["work"], .directory), (["work", "out"], .directory),
      (["work", "out", "pets.ts"], .file (generatedMarker ++ "\n").toUTF8),
      (["work", "out", "notes.ts"], .file "let notes\n".toUTF8),
      (["work", "out", "gateway"], .directory),
      (["work", "out", "gateway", "spec.ts"], .file (generatedMarker ++ "\n").toUTF8)]

theorem clean_exact_of_mixed :
    mixedFiles.Unambiguous ∧
      Clean.Cleaned mixedFiles ["work", "out"] (Clean.sweep mixedFiles ["work", "out"]) ∧
      cleanCommand ⟨mixedFiles, []⟩ ["out"] =
        cleanedOutcome ⟨"", ["out"]⟩ ["work", "out"] (Clean.sweep mixedFiles ["work", "out"]) ∧
      (Clean.sweep mixedFiles ["work", "out"]).tree.at? ["work", "out", "notes.ts"] =
        some (.file "let notes\n".toUTF8) ∧
      (Clean.sweep mixedFiles ["work", "out"]).tree.at? ["work", "out", "pets.ts"] ≠
        some (.file (generatedMarker ++ "\n").toUTF8) := by
  have hunambiguous : mixedFiles.Unambiguous := by decide +kernel
  have hcleans : Cleans ⟨mixedFiles, []⟩ ["out"] ⟨"", ["out"]⟩ ["work", "out"] :=
    { accepted := ⟨{ positional := some "out", isPositionalTaken := true }, by decide +kernel,
        by decide +kernel, by decide +kernel⟩
      located := rfl
      directory := rfl }
  have hby : Path.PassesBy ["work"] ⟨"", ["out"]⟩ ["work", "out"] := Path.passesBy_of_plain (by decide)
  obtain ⟨hcleaned, hcommand⟩ := clean_exact ⟨mixedFiles, []⟩ hunambiguous ["work", "out"]
  obtain ⟨hends, _, hplain, _⟩ := hcommand _ _ hcleans
  refine ⟨hunambiguous, hcleaned, hends (hplain hby).1, ?_, ?_⟩
  · exact (hcleaned.file _ _).2 ⟨rfl, by decide +kernel⟩
  · exact fun hkept => ((hcleaned.file _ _).1 hkept).2 (by decide +kernel)

end CommandLine

end TypedClient
