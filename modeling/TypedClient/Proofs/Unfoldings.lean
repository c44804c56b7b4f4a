import Mathlib.Data.List.Perm.Subperm
import Mathlib.Logic.Relation
import TypedClient.Document.Display
import TypedClient.Proofs.NestedSchemas

/-!
# Values that unfold to trees

`unfold` carries fuel and the path that it came by, and neither should be heard
of outside of it. For a value that is tree-shaped both are beside the point: the
path never holds the value again, and since it holds each part of the store at
most once, it is never longer than the fuel. So the tree of a sequence is the
sequence of the trees of its items, wherever the sequence is met, and the same
for mappings and for the collections that a written type makes.

With that, values of two stores can be compared. `SameTree` says that two values
unfold to the same tree, and the lemmas after it say that nothing that looks at
a value tells them apart.
-/

namespace TypedClient

variable {store store' : Store}

/-! ## Parts -/

/-- The items of a sequence, a pair or a set, or the values of a mapping. -/
def Store.parts (store : Store) : Value → List Value
  | .scalar _ => []
  | .sequence id => store.items id
  | .typed _ id => store.items id
  | .mapping id => (store.entries id).map (·.2)

/-- Whether a value is another one or lies within it. -/
def Within (store : Store) (outer inner : Value) : Prop :=
  Relation.ReflTransGen (fun v w => w ∈ store.parts v) outer inner

namespace TreeShaped

theorem part {v w : Value} (h : TreeShaped store v) (hw : w ∈ store.parts v) :
    TreeShaped store w := by
  cases h with
  | scalar s => cases hw
  | sequence items | typed items => exact items w hw
  | mapping entries =>
      obtain ⟨entry, hentry, rfl⟩ := List.mem_map.1 hw
      exact entries entry hentry

/-- A value does not lie within one of its parts. The induction is on the tree:
if it did, the part would lie within a part of its own. -/
theorem not_within_part {v w : Value} (h : TreeShaped store v) (hw : w ∈ store.parts v) :
    ¬ Within store w v := by
  have hstep : ∀ {v w : Value}, (∀ u ∈ store.parts w, ¬ Within store u w) →
      w ∈ store.parts v → ¬ Within store w v := by
    intro v w hbelow hw hback
    rcases Relation.ReflTransGen.cases_head hback with rfl | ⟨u, hu, hrest⟩
    · exact hbelow w hw .refl
    · exact hbelow u hu (hrest.tail hw)
  induction h generalizing w with
  | scalar s => cases hw
  | sequence items ih | typed items ih => exact hstep (fun u hu => ih w hw hu) hw
  | mapping entries ih =>
      refine hstep (fun u hu => ?_) hw
      obtain ⟨entry, hentry, rfl⟩ := List.mem_map.1 hw
      exact ih entry hentry hu

end TreeShaped

/-! ## Fuel -/

/-- The collections that a value can be. -/
def Store.collections (store : Store) : List Value :=
  (List.range store.sequences.size).map .sequence ++
    (List.range store.sequences.size).map (.typed .pair) ++
    (List.range store.sequences.size).map (.typed .set) ++
    (List.range store.mappings.size).map .mapping

theorem Store.length_collections (store : Store) : store.collections.length = store.size := by
  simp only [Store.collections, Store.size, List.length_append, List.length_map,
    List.length_range]
  omega

theorem Store.lt_of_mem_items {id : Nat} {w : Value} (h : w ∈ store.items id) :
    id < store.sequences.size := by
  by_contra hout
  rw [Store.items, Array.getElem?_eq_none (Nat.le_of_not_lt hout)] at h
  cases h

theorem Store.lt_of_mem_entries {id : Nat} {entry : Scalar × Value}
    (h : entry ∈ store.entries id) : id < store.mappings.size := by
  by_contra hout
  rw [Store.entries, Array.getElem?_eq_none (Nat.le_of_not_lt hout)] at h
  cases h

/-- What has a part is one of the collections. -/
theorem Store.mem_collections {v w : Value} (h : w ∈ store.parts v) :
    v ∈ store.collections := by
  cases v with
  | scalar s => cases h
  | sequence id =>
      have hid : id < store.sequences.size := Store.lt_of_mem_items h
      simp [Store.collections, hid]
  | mapping id =>
      obtain ⟨entry, hentry, -⟩ := List.mem_map.1 h
      have hid : id < store.mappings.size := Store.lt_of_mem_entries hentry
      simp [Store.collections, hid]
  | typed kind id =>
      have hid : id < store.sequences.size := Store.lt_of_mem_items h
      cases kind <;> simp [Store.collections, hid]

/-- A path without repetition is no longer than there are collections. -/
theorem Store.path_bounded {path : List Value} (hnodup : path.Nodup)
    (hholds : path ⊆ store.collections) : path.length ≤ store.size := by
  rw [← store.length_collections]
  exact (List.subperm_of_subset hnodup hholds).length_le

/-- A path by which a value can be unfolded: it holds collections of the store,
none of them twice and none that lies within the value, and with the fuel that is
left it is longer than there are collections. -/
structure Clear (store : Store) (fuel : Nat) (path : List Value) (v : Value) : Prop where
  nodup : path.Nodup
  holds : path ⊆ store.collections
  outside : ∀ p ∈ path, ¬ Within store v p
  enough : store.size < fuel + path.length

namespace Clear

variable {fuel fuel' : Nat} {path path' : List Value} {v w : Value}

theorem start (store : Store) (v : Value) : Clear store (store.size + 1) [] v :=
  ⟨List.nodup_nil, by simp, by simp, Nat.lt_succ_self _⟩

theorem fuel_pos (h : Clear store fuel path v) : ∃ n, fuel = n + 1 := by
  have hlength := Store.path_bounded h.nodup h.holds
  have henough := h.enough
  exact ⟨fuel - 1, by omega⟩

theorem not_mem (h : Clear store fuel path v) : path.contains v = false := by
  rw [← Bool.not_eq_true, List.contains_iff_mem]
  intro hmem
  exact h.outside v hmem .refl

theorem part (h : Clear store (fuel + 1) path v) (hv : TreeShaped store v)
    (hw : w ∈ store.parts v) : Clear store fuel (v :: path) w where
  nodup := List.nodup_cons.2 ⟨fun hmem => h.outside v hmem .refl, h.nodup⟩
  holds := List.cons_subset.2 ⟨Store.mem_collections hw, h.holds⟩
  outside := List.forall_mem_cons.2
    ⟨hv.not_within_part hw, fun p hp hwithin => h.outside p hp (.head hw hwithin)⟩
  enough := by
    have henough := h.enough
    rw [List.length_cons]
    omega

/-- Whatever the path and the fuel, a value unfolds to the same. -/
theorem unfold_eq (hv : TreeShaped store v) (h : Clear store fuel path v)
    (h' : Clear store fuel' path' v) :
    store.unfold fuel path v = store.unfold fuel' path' v := by
  induction hv generalizing fuel fuel' path path' with
  | scalar s => cases fuel <;> cases fuel' <;> rfl
  | @sequence id items ih =>
      obtain ⟨n, rfl⟩ := h.fuel_pos
      obtain ⟨n', rfl⟩ := h'.fuel_pos
      simp only [Store.unfold, h.not_mem, h'.not_mem, Bool.false_eq_true, if_false]
      refine congrArg Tree.sequence (List.map_congr_left fun w hw => ?_)
      exact ih w hw (h.part (.sequence items) hw) (h'.part (.sequence items) hw)
  | @mapping id entries ih =>
      obtain ⟨n, rfl⟩ := h.fuel_pos
      obtain ⟨n', rfl⟩ := h'.fuel_pos
      simp only [Store.unfold, h.not_mem, h'.not_mem, Bool.false_eq_true, if_false]
      refine congrArg Tree.mapping (List.map_congr_left fun entry hentry => ?_)
      have hpart : entry.2 ∈ store.parts (.mapping id) := List.mem_map_of_mem hentry
      rw [ih entry hentry (h.part (.mapping entries) hpart) (h'.part (.mapping entries) hpart)]
  | @typed kind id items ih =>
      obtain ⟨n, rfl⟩ := h.fuel_pos
      obtain ⟨n', rfl⟩ := h'.fuel_pos
      simp only [Store.unfold, h.not_mem, h'.not_mem, Bool.false_eq_true, if_false]
      refine congrArg (Tree.typed kind) (List.map_congr_left fun w hw => ?_)
      exact ih w hw (h.part (.typed items) hw) (h'.part (.typed items) hw)

end Clear

/-! ## Trees -/

namespace TreeShaped

theorem tree_sequence {id : Nat} (h : TreeShaped store (.sequence id)) :
    store.tree (.sequence id) = .sequence ((store.items id).map store.tree) := by
  refine congrArg Tree.sequence (List.map_congr_left fun w hw => ?_)
  exact Clear.unfold_eq (h.part hw) ((Clear.start store _).part h hw) (Clear.start store w)

theorem tree_mapping {id : Nat} (h : TreeShaped store (.mapping id)) :
    store.tree (.mapping id) =
      .mapping ((store.entries id).map fun entry => (entry.1, store.tree entry.2)) := by
  refine congrArg Tree.mapping (List.map_congr_left fun entry hentry => ?_)
  have hpart : entry.2 ∈ store.parts (.mapping id) := List.mem_map_of_mem hentry
  exact congrArg (entry.1, ·) (Clear.unfold_eq (h.part hpart)
    ((Clear.start store _).part h hpart) (Clear.start store entry.2))

theorem tree_typed {kind : TypedKind} {id : Nat} (h : TreeShaped store (.typed kind id)) :
    store.tree (.typed kind id) = .typed kind ((store.items id).map store.tree) := by
  refine congrArg (Tree.typed kind) (List.map_congr_left fun w hw => ?_)
  exact Clear.unfold_eq (h.part hw) ((Clear.start store _).part h hw) (Clear.start store w)

end TreeShaped

theorem forall₂_of_map_eq {α β γ : Type} {P : α → Prop} {Q : β → Prop} {f : α → γ} {g : β → γ}
    {as : List α} {bs : List β} (has : ∀ a ∈ as, P a) (hbs : ∀ b ∈ bs, Q b)
    (h : as.map f = bs.map g) : List.Forall₂ (fun a b => P a ∧ Q b ∧ f a = g b) as bs := by
  induction as generalizing bs with
  | nil =>
      cases bs with
      | nil => exact .nil
      | cons b bs => cases h
  | cons a as ih =>
      cases bs with
      | nil => cases h
      | cons b bs =>
          rw [List.forall_mem_cons] at has hbs
          rw [List.map_cons, List.map_cons, List.cons.injEq] at h
          exact .cons ⟨has.1, hbs.1, h.1⟩ (ih has.2 hbs.2 h.2)

theorem isEmpty_of_forall₂ {α β : Type} {R : α → β → Prop} {as : List α} {bs : List β}
    (h : List.Forall₂ R as bs) : as.isEmpty = bs.isEmpty := by
  cases h <;> rfl

/-- Two values that unfold to the same tree and have no part within itself. -/
structure SameTree (store store' : Store) (v v' : Value) : Prop where
  shaped : TreeShaped store v
  shaped' : TreeShaped store' v'
  tree : store.tree v = store'.tree v'

namespace SameTree

variable {v v' : Value}

theorem scalar (s : Scalar) : SameTree store store' (.scalar s) (.scalar s) :=
  ⟨.scalar s, .scalar s, rfl⟩

theorem symm (h : SameTree store store' v v') : SameTree store' store v' v :=
  ⟨h.shaped', h.shaped, h.tree.symm⟩

/-- Values with the same tree are the same scalar, or sequences whose items have
the same trees, or mappings whose entries do, or pairs or sets whose items do. -/
theorem cases (h : SameTree store store' v v') :
    (∃ s, v = .scalar s ∧ v' = .scalar s) ∨
      (∃ id id', v = .sequence id ∧ v' = .sequence id' ∧
        List.Forall₂ (SameTree store store') (store.items id) (store'.items id')) ∨
      (∃ id id', v = .mapping id ∧ v' = .mapping id' ∧
        List.Forall₂ (fun entry entry' => entry.1 = entry'.1 ∧
          SameTree store store' entry.2 entry'.2) (store.entries id) (store'.entries id')) ∨
      ∃ kind id id', v = .typed kind id ∧ v' = .typed kind id' ∧
        List.Forall₂ (SameTree store store') (store.items id) (store'.items id') := by
  obtain ⟨hv, hv', htree⟩ := h
  have hitems {id id' : Nat} (hall : ∀ w ∈ store.items id, TreeShaped store w)
      (hall' : ∀ w ∈ store'.items id', TreeShaped store' w)
      (htrees : (store.items id).map store.tree = (store'.items id').map store'.tree) :
      List.Forall₂ (SameTree store store') (store.items id) (store'.items id') :=
    (forall₂_of_map_eq hall hall' htrees).imp fun _ _ both => ⟨both.1, both.2.1, both.2.2⟩
  cases hv with
  | scalar s =>
      cases hv' with
      | scalar s' =>
          obtain rfl : s = s' := Tree.scalar.inj htree
          exact .inl ⟨s, rfl, rfl⟩
      | _ => cases htree
  | @sequence id items =>
      cases hv' with
      | @sequence id' items' =>
          rw [(TreeShaped.sequence items).tree_sequence,
            (TreeShaped.sequence items').tree_sequence, Tree.sequence.injEq] at htree
          exact .inr (.inl ⟨id, id', rfl, rfl, hitems items items' htree⟩)
      | _ => cases htree
  | @mapping id entries =>
      cases hv' with
      | @mapping id' entries' =>
          rw [(TreeShaped.mapping entries).tree_mapping,
            (TreeShaped.mapping entries').tree_mapping, Tree.mapping.injEq] at htree
          refine .inr (.inr (.inl ⟨id, id', rfl, rfl,
            (forall₂_of_map_eq entries entries' htree).imp fun _ _ both => ?_⟩))
          obtain ⟨hkey, hsame⟩ := Prod.mk.inj both.2.2
          exact ⟨hkey, both.1, both.2.1, hsame⟩
      | _ => cases htree
  | @typed kind id items =>
      cases hv' with
      | @typed kind' id' items' =>
          rw [(TreeShaped.typed items).tree_typed, (TreeShaped.typed items').tree_typed,
            Tree.typed.injEq] at htree
          obtain ⟨rfl, htrees⟩ := htree
          exact .inr (.inr (.inr ⟨kind, id, id', rfl, rfl, hitems items items' htrees⟩))
      | _ => cases htree

/-! Nothing that looks at a value tells it from one with the same tree. -/

theorem scalar_iff (h : SameTree store store' v v') (s : Scalar) :
    v = .scalar s ↔ v' = .scalar s := by
  rcases h.cases with ⟨s', rfl, rfl⟩ | ⟨_, _, rfl, rfl, _⟩ | ⟨_, _, rfl, rfl, _⟩ |
    ⟨_, _, _, rfl, rfl, _⟩ <;> simp

theorem beq_scalar (h : SameTree store store' v v') (s : Scalar) :
    (v == .scalar s) = (v' == .scalar s) := by
  rw [Bool.eq_iff_iff, beq_iff_eq, beq_iff_eq, h.scalar_iff]

theorem text? (h : SameTree store store' v v') : v.text? = v'.text? := by
  rcases h.cases with ⟨s, rfl, rfl⟩ | ⟨_, _, rfl, rfl, _⟩ | ⟨_, _, rfl, rfl, _⟩ |
    ⟨_, _, _, rfl, rfl, _⟩ <;> rfl

theorem truthy (h : SameTree store store' v v') : store.truthy v = store'.truthy v' := by
  rcases h.cases with ⟨s, rfl, rfl⟩ | ⟨id, id', rfl, rfl, hitems⟩ |
    ⟨id, id', rfl, rfl, hentries⟩ | ⟨kind, id, id', rfl, rfl, hitems⟩
  · rfl
  · rw [Store.truthy, Store.truthy, isEmpty_of_forall₂ hitems]
  · rw [Store.truthy, Store.truthy, isEmpty_of_forall₂ hentries]
  · rw [Store.truthy, Store.truthy, isEmpty_of_forall₂ hitems]

theorem plain (h : SameTree store store' v v') : store.plain v = store'.plain v' := by
  have hquoted : store.quoted v = store'.quoted v' := congrArg Tree.quoted h.tree
  rcases h.cases with ⟨s, rfl, rfl⟩ | ⟨_, _, rfl, rfl, _⟩ | ⟨_, _, rfl, rfl, _⟩ |
    ⟨_, _, _, rfl, rfl, _⟩
  · rfl
  all_goals exact hquoted

/-- What is found under a key of two mappings has the same tree, too. -/
theorem get {id id' : Nat} (h : SameTree store store' (.mapping id) (.mapping id'))
    (key : String) : SameTree store store' (store.get id key) (store'.get id' key) := by
  rcases h.cases with ⟨_, hid, _⟩ | ⟨_, _, hid, _⟩ | ⟨_, _, hid, hid', hentries⟩ |
    ⟨_, _, _, hid, _⟩
  · cases hid
  · cases hid
  · cases hid
    cases hid'
    rw [Store.get, Store.get]
    generalize store.entries id = entries, store'.entries id' = entries' at hentries ⊢
    induction hentries with
    | nil => exact .scalar .null
    | @cons entry entry' rest rest' hentry _ ih =>
        obtain ⟨k, w⟩ := entry
        obtain ⟨k', w'⟩ := entry'
        obtain ⟨rfl, hsame⟩ := hentry
        rw [Entries.get, Entries.get, Entries.value?_cons, Entries.value?_cons]
        split
        · exact hsame
        · exact ih
  · cases hid

end SameTree

end TypedClient
