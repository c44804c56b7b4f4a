import TypedClient.Files.Tree
import TypedClient.Proofs.Outcomes
import TypedClient.Proofs.Tables

/-!
# File trees

A file tree is a list of places with what is at them, so it stands for a table as
long as no place is listed twice (`Unambiguous`). The first half of this file
says when a place lies below another one, and what is at a place after something
was put somewhere or taken away.

The second half is about paths. Where a path leads depends only on the
directories that it passes, so it leads to the same place in any tree that has
these directories too (`locate_mono`). A path that passes nothing below some
place does not notice what happens there (`locate_congr`).
-/

namespace TypedClient

namespace FileTree

/-! ## Places -/

theorem isBelow_iff {outer inner : Place} :
    isBelow outer inner = true ↔ ∃ name rest, inner = outer ++ name :: rest := by
  rw [isBelow, Bool.and_eq_true, decide_eq_true_eq, decide_eq_true_eq]
  constructor
  · rintro ⟨htake, hlength⟩
    obtain ⟨name, rest, hdrop⟩ : ∃ name rest, inner.drop outer.length = name :: rest :=
      List.exists_cons_of_ne_nil (by simpa using hlength)
    refine ⟨name, rest, ?_⟩
    rw [← hdrop, ← List.take_append_drop outer.length inner, htake]
    simp
  · rintro ⟨name, rest, rfl⟩
    simp

theorem isBelow_trans {a b c : Place} (hab : isBelow a b = true) (hbc : isBelow b c = true) :
    isBelow a c = true := by
  obtain ⟨name, rest, rfl⟩ := isBelow_iff.1 hab
  obtain ⟨name', rest', rfl⟩ := isBelow_iff.1 hbc
  exact isBelow_iff.2 ⟨name, rest ++ name' :: rest', by simp⟩

theorem length_lt_of_isBelow {outer inner : Place} (h : isBelow outer inner = true) :
    outer.length < inner.length := by
  obtain ⟨name, rest, rfl⟩ := isBelow_iff.1 h
  simp

theorem not_isBelow_self (place : Place) : isBelow place place = false := by
  rw [Bool.eq_false_iff]
  exact fun h => Nat.lt_irrefl _ (length_lt_of_isBelow h)

theorem ne_nil_of_isBelow {outer inner : Place} (h : isBelow outer inner = true) : inner ≠ [] := by
  obtain ⟨name, rest, rfl⟩ := isBelow_iff.1 h
  simp

/-! ## What is at a place -/

/-- Nothing is listed twice. -/
def Unambiguous (t : FileTree) : Prop := (t.entries.map (·.1)).Nodup

instance (t : FileTree) : Decidable t.Unambiguous :=
  inferInstanceAs (Decidable (List.Nodup (t.entries.map (·.1))))

variable {t : FileTree} {place other : Place} {entry : FileEntry} {bytes : ByteArray}

theorem at?_of_ne_nil (h : place ≠ []) : t.at? place = t.entries.lookup place := if_neg h

@[simp]
theorem at?_nil : t.at? [] = some .directory := if_pos rfl

/-- A file is where it is listed. -/
theorem ne_nil_of_file (h : t.at? place = some (.file bytes)) : place ≠ [] := by
  rintro rfl
  rw [at?_nil] at h
  cases h

theorem Unambiguous.at?_iff (h : t.Unambiguous) (hbelow : isBelow other place = true) :
    t.at? place = some entry ↔ (place, entry) ∈ t.entries := by
  rw [at?_of_ne_nil (ne_nil_of_isBelow hbelow), lookup_iff_mem h]

@[simp]
theorem home_erase : (t.erase place).home = t.home := rfl

theorem Unambiguous.put (h : t.Unambiguous) : (t.put place entry).Unambiguous := by
  rw [Unambiguous, FileTree.put, List.map_append, List.nodup_append]
  refine ⟨h.sublist (List.filter_sublist.map _), List.nodup_singleton _, ?_⟩
  rintro a ha b hb rfl
  obtain ⟨e, he, rfl⟩ := List.mem_map.1 ha
  have hplace : e.1 = place := List.mem_singleton.1 hb
  simp [hplace] at he

theorem at?_erase (hne : other ≠ place) : (t.erase place).at? other = t.at? other := by
  by_cases hroot : other = []
  · rw [hroot, at?_nil, at?_nil]
  · rw [at?_of_ne_nil hroot, at?_of_ne_nil hroot]
    exact lookup_filter_ne hne

theorem isDirectoryAt_iff : t.isDirectoryAt place = true ↔ t.at? place = some .directory := by
  rw [isDirectoryAt]
  cases t.at? place with
  | none => simp
  | some entry => cases entry <;> simp [FileEntry.isDirectory]

/-! ## Where paths lead -/

/-- The place that parts lead to from a place, if they lead anywhere. -/
def reached (place : Place) (parts : List String) : Place := parts.foldl next place

/-- The places that parts lead through, from the first one on and without the last. -/
def passed : Place → List String → List Place
  | _, [] => []
  | place, part :: rest => place :: passed (next place part) rest

theorem passed_append (place : Place) (parts more : List String) :
    passed place (parts ++ more) = passed place parts ++ passed (reached place parts) more := by
  induction parts generalizing place with
  | nil => rfl
  | cons part rest ih =>
      rw [List.cons_append, passed, passed, ih, List.cons_append]
      rfl

/-- Whether the names of parts are short enough. -/
def fit (parts : List String) : Bool := parts.all fun part => Path.byteSize part ≤ maxNameSize

/-- Through directories, parts lead to a place unless one of them is too long. -/
theorem follow_of_directories {place : Place} {parts : List String}
    (h : ∀ p ∈ passed place parts, t.at? p = some .directory) :
    t.follow place parts = if fit parts then .ok (reached place parts) else .error .nameTooLong := by
  induction parts generalizing place with
  | nil => rfl
  | cons part rest ih =>
      rw [passed, List.forall_mem_cons] at h
      rw [follow, h.1, fit, List.all_cons]
      by_cases hlong : Path.byteSize part > maxNameSize
      · rw [decide_eq_false (Nat.not_le_of_lt hlong)]
        exact if_pos hlong
      · rw [decide_eq_true (Nat.le_of_not_lt hlong), Bool.true_and]
        exact (if_neg hlong).trans (ih h.2)

/-- Parts lead to a place only through directories. -/
theorem directories_of_follow {place target : Place} {parts : List String}
    (h : t.follow place parts = .ok target) :
    ∀ p ∈ passed place parts, t.at? p = some .directory := by
  induction parts generalizing place with
  | nil => simp [passed]
  | cons part rest ih =>
      rw [follow] at h
      rw [passed, List.forall_mem_cons]
      split at h
      · cases h
      · cases h
      · next hhere =>
          split at h
          · cases h
          · exact ⟨hhere, ih h⟩

end FileTree

namespace Path

variable {p : Path}

/-- The place that a path leads to, if it leads anywhere. -/
def target (home : Place) (p : Path) : Place :=
  FileTree.reached (FileTree.start home p) (FileTree.onward p)

/-- The places that a path leads through, from the one on that it starts from and without the
last. -/
def passed (home : Place) (p : Path) : List Place :=
  FileTree.passed (FileTree.start home p) (FileTree.onward p)

/-- The places on the way of a path, those that its leading double dots climb through too. -/
def way (home : Place) (p : Path) : List Place :=
  FileTree.passed (if p.root = "" then home else []) p.parts

/-- Whether a path and its names are short enough. -/
def fits (p : Path) : Bool :=
  decide (byteSize p.text ≤ FileTree.maxPathSize) && FileTree.fit (FileTree.onward p)

/-- A path passes nothing that lies below a place. -/
def PassesBy (home : Place) (p : Path) (place : Place) : Prop :=
  ∀ q ∈ p.passed home, FileTree.isBelow place q = false

instance (home : Place) (p : Path) (place : Place) : Decidable (p.PassesBy home place) :=
  inferInstanceAs (Decidable (∀ q ∈ p.passed home, FileTree.isBelow place q = false))

theorem target_eq (home : Place) (p : Path) :
    p.target home = FileTree.reached (if p.root = "" then home else []) p.parts := by
  rw [target, FileTree.start, FileTree.onward]
  split
  · rw [FileTree.reached, FileTree.reached, ← List.foldl_append, List.takeWhile_append_dropWhile]
  · rfl

theorem length_le_of_plain {place : Place} {parts : List String} (h : ".." ∉ parts) :
    place.length ≤ (FileTree.reached place parts).length ∧
      ∀ q ∈ FileTree.passed place parts, q.length ≤ (FileTree.reached place parts).length := by
  induction parts generalizing place with
  | nil => simp [FileTree.passed, FileTree.reached]
  | cons part rest ih =>
      rw [List.mem_cons, not_or] at h
      have hnext : FileTree.next place part = place ++ [nameOnDisk part] := if_neg (Ne.symm h.1)
      obtain ⟨hhere, hrest⟩ :
          (FileTree.next place part).length ≤ (FileTree.reached place (part :: rest)).length ∧
            ∀ q ∈ FileTree.passed (FileTree.next place part) rest,
              q.length ≤ (FileTree.reached place (part :: rest)).length := ih h.2
      have hshort : place.length ≤ (FileTree.next place part).length := by simp [hnext]
      rw [FileTree.passed, List.forall_mem_cons]
      exact ⟨Nat.le_trans hshort hhere, Nat.le_trans hshort hhere, hrest⟩

/-- A path that never turns back does not pass what lies below the place it leads to. -/
theorem passesBy_of_plain {home : Place} {p : Path} (h : ".." ∉ FileTree.onward p) :
    p.PassesBy home (p.target home) := by
  intro q hq
  have hlength := (length_le_of_plain h).2 q hq
  rw [Bool.eq_false_iff]
  intro hbelow
  exact absurd (FileTree.length_lt_of_isBelow hbelow) (Nat.not_lt_of_le hlength)

end Path

namespace FileTree

variable {t t' : FileTree} {place : Place} {p : Path} {fault : Fault}

theorem locate_of_fault (h : p.fault? = some fault) : t.locate p = .error fault := by
  rw [locate, h]

/-- Through directories, a path leads to its place unless something is too long. -/
theorem locate_of_directories (hvalid : p.fault? = none)
    (h : ∀ q ∈ p.passed t.home, t.at? q = some .directory) :
    t.locate p = if p.fits then .ok (p.target t.home) else .error .nameTooLong := by
  rw [locate, hvalid, Path.fits]
  dsimp only
  by_cases hlong : Path.byteSize p.text > maxPathSize
  · rw [if_pos hlong, decide_eq_false (Nat.not_le_of_lt hlong)]
    rfl
  · rw [if_neg hlong, decide_eq_true (Nat.le_of_not_lt hlong), Bool.true_and]
    exact follow_of_directories h

theorem locate_eq_ok :
    t.locate p = .ok place ↔ p.fault? = none ∧
      (∀ q ∈ p.passed t.home, t.at? q = some .directory) ∧ p.fits = true ∧
        p.target t.home = place := by
  constructor
  · intro h
    have hvalid : p.fault? = none := by
      rw [← Option.not_isSome_iff_eq_none, Option.isSome_iff_exists]
      rintro ⟨fault, hfault⟩
      cases (locate_of_fault hfault).symm.trans h
    have hpassed : ∀ q ∈ p.passed t.home, t.at? q = some .directory := by
      rw [locate, hvalid] at h
      dsimp only at h
      split at h
      · cases h
      · exact directories_of_follow h
    rw [locate_of_directories hvalid hpassed] at h
    split at h
    · next hfits => exact ⟨hvalid, hpassed, hfits, Except.ok.inj h⟩
    · cases h
  · rintro ⟨hvalid, hpassed, hfits, rfl⟩
    rw [locate_of_directories hvalid hpassed, if_pos hfits]

/-- A path leads to its place in every tree that has the directories too. -/
theorem locate_mono (hhome : t'.home = t.home)
    (hkept : ∀ q, t.at? q = some .directory → t'.at? q = some .directory)
    (h : t.locate p = .ok place) : t'.locate p = .ok place := by
  rw [locate_eq_ok] at h ⊢
  rw [hhome]
  exact ⟨h.1, fun q hq => hkept q (h.2.1 q hq), h.2.2⟩

/-- What happens below a place does not matter to a path that passes it by. -/
theorem locate_congr {root : Place} (hhome : t'.home = t.home) (hby : p.PassesBy t.home root)
    (hkept : ∀ q, isBelow root q = false → t'.at? q = t.at? q) (h : t.locate p = .ok place) :
    t'.locate p = .ok place := by
  rw [locate_eq_ok] at h ⊢
  rw [hhome]
  exact ⟨h.1, fun q hq => (hkept q (hby q hq)).trans (h.2.1 q hq), h.2.2⟩

theorem isDirectory_iff (h : t.locate p = .ok place) :
    t.isDirectory p = true ↔ t.at? place = some .directory := by
  rw [isDirectory, find?, h]
  exact isDirectoryAt_iff

end FileTree

end TypedClient
