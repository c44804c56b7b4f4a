import TypedClient.Proofs.NodeFaults
import TypedClient.Yaml.Reader

/-!
# Faults of YAML values

The nodes of a document get their values one after the other, and now a scalar
may turn out not to be what its type says: a date that the calendar lacks, an
integer without a digit. Building changes nodes on the way, when it replaces the
merge keys of mappings, but it never writes a scalar. So whatever scalar is at
fault stands in the document, which is the invariant `Within`.

It also counts the mappings of the store, of which there are only ever more. That
is why a document that is a mapping is one of the store.
-/

namespace TypedClient.Yaml

variable {α β : Type}

/-- A scalar of some nodes has a text. -/
def Writes (nodes : Array Node) (text : String) : Prop :=
  ∃ node ∈ nodes, node.content = .scalar text

/-- A text that is written, or nothing where nothing is. -/
def Legible (nodes : Array Node) (text : String) : Prop := text = "" ∨ Writes nodes text

/-- Why the nodes of a document have no value. -/
inductive Misfit (nodes : Array Node) : Fault → Prop
  /-- A scalar does not have the form of its type. -/
  | scalar {tag : Tag} {text : String} {f : Fault} (written : Legible nodes text)
      (misfit : scalarOf tag text = .error (.fault f)) : Misfit nodes f
  /-- A collection has a type that only a text can have. -/
  | collection : Misfit nodes .notText
  /-- A mapping counts as a value that leads back to it. -/
  | circle : Misfit nodes .tooDeep

/-- What stays while a document is built: no scalar has a text that was not
written, and there are at least so many mappings. -/
structure Within (nodes : Array Node) (count : Nat) (b : Builder) : Prop where
  written : ∀ text, Writes b.nodes text → Writes nodes text
  mappings : count ≤ b.store.mappings.size

/-- A step of building lets a fault through only for a misfit. -/
def Builds (nodes : Array Node) (count : Nat) (x : Build α) (post : α → Prop) : Prop :=
  Keeps (Within nodes count) (Misfit nodes) x post

namespace Build

variable {nodes : Array Node} {count : Nat}

theorem findM?_builds {p : α → Build Bool} (hp : ∀ a, Builds nodes count (p a) fun _ => True)
    (as : List α) : Builds nodes count (as.findM? p) fun _ => True := by
  induction as with
  | nil => exact .pure trivial
  | cons a rest ih =>
      refine (hp a).bind fun found _ => ?_
      cases found with
      | true => exact .pure trivial
      | false => exact ih

theorem mapM_builds {f : α → Build β} (hf : ∀ a, Builds nodes count (f a) fun _ => True)
    (as : List α) : Builds nodes count (as.mapM f) fun _ => True := by
  induction as with
  | nil => exact .pure trivial
  | cons a rest ih =>
      rw [List.mapM_cons]
      exact (hf a).bind fun _ _ => ih.bind fun _ _ => .pure trivial

theorem nodeAt_builds (id : Nat) : Builds nodes count (nodeAt id) fun node =>
    ∀ text, node.content = .scalar text → Legible nodes text := by
  refine Keeps.get.bind fun b hb => .pure fun text htext => ?_
  cases hnode : b.nodes[id]? with
  | none =>
      rw [hnode] at htext
      exact .inl (NodeContent.scalar.inj htext).symm
  | some node =>
      rw [hnode] at htext
      exact .inr (hb.written text ⟨node, Array.mem_of_getElem? hnode, htext⟩)

theorem textOf_builds (fuel id : Nat) : Builds nodes count (textOf fuel id) (Legible nodes) := by
  induction fuel generalizing id with
  | zero => exact .fault .circle
  | succ fuel ih =>
      refine (nodeAt_builds id).bind fun node hnode => ?_
      split
      · next text htext => exact .pure (hnode text htext)
      · exact .malformed
      · have hkey (entry : Nat × Nat) : Builds nodes count
            (do return (← nodeAt entry.1).tag == .value) fun _ => True :=
          (nodeAt_builds _).bind fun _ _ => .pure trivial
        refine (findM?_builds hkey _).bind fun found _ => ?_
        split
        · exact ih _
        · exact .malformed

theorem keep_builds (id : Nat) (v : Value) : Builds nodes count (keep id v) fun _ => True :=
  .modify fun _ hb => ⟨hb.written, hb.mappings⟩

theorem await_builds (id : Nat) (v : Value) : Builds nodes count (await id v) fun _ => True :=
  (keep_builds id v).bind fun _ _ => .modify fun _ hb => ⟨hb.written, hb.mappings⟩

/-- A new collection is the last of its kind. -/
theorem emptyOf_mappings {store store' : Store} {tag : Tag} {v : Value}
    (h : emptyOf store tag = some (store', v)) : store.mappings.size ≤ store'.mappings.size := by
  cases tag <;> cases h
  case mapping => simp
  all_goals exact Nat.le_refl _

theorem value_builds (id : Nat) : Builds nodes count (value id) fun _ => True := by
  unfold value
  refine Keeps.get.bind fun b hb => ?_
  split
  · exact .pure trivial
  · refine (nodeAt_builds id).bind fun node _ => ?_
    split
    · next store v hempty =>
        exact .bind (.set ⟨hb.written, Nat.le_trans hb.mappings (emptyOf_mappings hempty)⟩)
          fun _ _ => (await_builds _ _).bind fun _ _ => .pure trivial
    · have hscalar : Builds nodes count (do
          let text ← textOf (b.nodes.size + 1) id
          if node.tag == .timestamp && node.text?.isNone then throw (.fault .notText)
          let v := Value.scalar (← scalarOf node.tag text)
          keep id v
          return v) fun _ => True := by
        refine (textOf_builds _ id).bind fun text htext => .ite (.fault .collection) ?_
        refine (Keeps.lift fun f hf => .scalar htext hf).bind fun _ _ => ?_
        exact (keep_builds _ _).bind fun _ _ => .pure trivial
      dsimp only
      split
      · exact .malformed
      · exact .ite .malformed hscalar

/-- A node may be changed, but not into a scalar. -/
theorem within_modify {b : Builder} (hb : Within nodes count b) {id : Nat} {change : Node → Node}
    (hchange : ∀ node text, (change node).content = .scalar text → node.content = .scalar text) :
    Within nodes count { b with nodes := b.nodes.modify id change } := by
  refine ⟨?_, hb.mappings⟩
  rintro text ⟨node, hnode, htext⟩
  obtain ⟨i, hi⟩ := Array.mem_iff_getElem?.1 hnode
  rw [Array.getElem?_modify] at hi
  split at hi
  · obtain ⟨old, hold, rfl⟩ := Option.map_eq_some_iff.1 hi
    exact hb.written text ⟨old, Array.mem_of_getElem? hold, hchange old text htext⟩
  · exact hb.written text ⟨node, Array.mem_of_getElem? hi, htext⟩

theorem setEntries_builds (id : Nat) (entries : List (Nat × Nat)) :
    Builds nodes count (setEntries id entries) fun _ => True :=
  .modify fun _ hb => within_modify hb nofun

theorem entries?_builds (id : Nat) : Builds nodes count (entries? id) fun _ => True := by
  refine (nodeAt_builds id).bind fun node _ => ?_
  split <;> exact .pure trivial

/-- What is done for merge keys with an amount of fuel. -/
structure AllMerge (nodes : Array Node) (count fuel : Nat) : Prop where
  merge : ∀ id, Builds nodes count (merge fuel id) fun _ => True
  takeMerges : ∀ id, Builds nodes count (takeMerges fuel id) fun _ => True
  mergedFrom : ∀ id, Builds nodes count (mergedFrom fuel id) fun _ => True

section Step

variable {fuel : Nat} (h : AllMerge nodes count fuel)

include h

theorem merge_builds (id : Nat) : Builds nodes count (merge (fuel + 1) id) fun _ => True := by
  unfold merge
  refine (h.takeMerges id).bind fun _ _ => .ite ?_ (.pure trivial)
  exact (entries?_builds id).bind fun _ _ => setEntries_builds _ _

theorem takeMerges_builds (id : Nat) :
    Builds nodes count (takeMerges (fuel + 1) id) fun _ => True := by
  unfold takeMerges
  refine (entries?_builds id).bind fun entries _ => Keeps.get.bind fun b _ => ?_
  dsimp only
  split
  · exact .pure trivial
  · refine .ite ?_ ?_
    · refine (setEntries_builds _ _).bind fun _ _ => (h.mergedFrom _).bind fun _ _ => ?_
      exact (h.takeMerges id).bind fun _ _ => .pure trivial
    · refine .bind (.modify fun _ hb => within_modify hb ?_) fun _ _ => h.takeMerges id
      exact fun _ _ hsame => hsame

/-- The entries of a mapping after its merge keys have been replaced. -/
theorem merged_builds (id : Nat) : Builds nodes count (do
    merge fuel id
    return (← entries? id).getD []) fun _ => True :=
  (h.merge id).bind fun _ _ => (entries?_builds id).bind fun _ _ => .pure trivial

theorem mergedFrom_builds (id : Nat) :
    Builds nodes count (mergedFrom (fuel + 1) id) fun _ => True := by
  unfold mergedFrom
  refine (nodeAt_builds id).bind fun node _ => ?_
  split
  · exact merged_builds h id
  · refine Keeps.bind (mapM_builds (fun item => ?_) _) fun _ _ => .pure trivial
    refine (entries?_builds item).bind fun entries _ => ?_
    split
    · exact .malformed
    · exact merged_builds h item
  · exact .malformed

end Step

theorem allMerge (fuel : Nat) : AllMerge nodes count fuel := by
  induction fuel with
  | zero => exact ⟨fun _ => .malformed, fun _ => .malformed, fun _ => .malformed⟩
  | succ fuel ih => exact ⟨merge_builds ih, takeMerges_builds ih, mergedFrom_builds ih⟩

theorem mappingEntries_builds (entries : List (Nat × Nat)) (done : List (NodeKey × Value)) :
    Builds nodes count (mappingEntries entries done) fun _ => True := by
  induction entries generalizing done with
  | nil => exact .pure trivial
  | cons entry rest ih =>
      refine (value_builds entry.1).bind fun key _ => ?_
      split
      · refine (nodeAt_builds _).bind fun node _ => ?_
        exact (value_builds entry.2).bind fun v _ => ih _
      · exact .malformed

theorem mergedEntries_builds (id : Nat) :
    Builds nodes count (mergedEntries id) fun _ => True := by
  refine Keeps.get.bind fun b _ => ((allMerge _).merge id).bind fun _ _ => ?_
  exact (entries?_builds id).bind fun _ _ => mappingEntries_builds _ _

theorem pairOf_builds (id : Nat) : Builds nodes count (pairOf id) fun _ => True := by
  refine (entries?_builds id).bind fun entries _ => ?_
  split
  · refine (value_builds _).bind fun first _ => (value_builds _).bind fun second _ => ?_
    exact Keeps.get.bind fun b hb => .bind (.set ⟨hb.written, hb.mappings⟩) fun _ _ => .pure trivial
  · exact .malformed

theorem fill_builds (id : Nat) (v : Value) : Builds nodes count (fill id v) fun _ => True := by
  refine (nodeAt_builds id).bind fun node _ => ?_
  split
  · have hitem (item : Nat) :
        Builds nodes count ((if node.tag == .pairs then pairOf else value) item) fun _ => True := by
      split
      · exact pairOf_builds item
      · exact value_builds item
    refine (mapM_builds hitem _).bind fun values _ => .modify fun b hb => ?_
    exact ⟨hb.written, hb.mappings⟩
  · refine (mergedEntries_builds id).bind fun entries _ => .modify fun b hb => ?_
    exact ⟨hb.written, Nat.le_trans hb.mappings (by simp [Store.setEntries])⟩
  · exact (mergedEntries_builds id).bind fun entries _ => .modify fun b hb =>
      ⟨hb.written, hb.mappings⟩
  · exact .malformed

theorem fillAll_builds (fuel : Nat) : Builds nodes count (fillAll fuel) fun _ => True := by
  induction fuel with
  | zero => exact .pure trivial
  | succ fuel ih =>
      refine Keeps.get.bind fun b _ => ?_
      split
      · exact .pure trivial
      · refine .bind (.modify fun b hb => ⟨hb.written, hb.mappings⟩) fun _ _ => ?_
        exact (fill_builds _ _).bind fun _ _ => ih

theorem document_builds (root : Nat) : Builds nodes count (document root) fun _ => True :=
  (value_builds root).bind fun _ _ => Keeps.get.bind fun _ _ =>
    (fillAll_builds _).bind fun _ _ => .pure trivial

theorem emptyOf_mapping {store store' : Store} {tag : Tag} {target : Nat}
    (h : emptyOf store tag = some (store', .mapping target)) : target < store'.mappings.size := by
  cases tag <;> cases h
  simp

/-- A mapping that is new is in the store, though it is still empty. -/
theorem value_run {id target : Nat} {b b' : Builder} (hnew : b.built[id]?.join = none)
    (h : (value id).run b = .ok (.mapping target, b')) : target < b'.store.mappings.size := by
  unfold value at h
  obtain ⟨_, _, hget, h⟩ := run_bind_eq_ok.1 h
  cases hget
  rw [hnew] at h
  obtain ⟨node, _, hnode, h⟩ := run_bind_eq_ok.1 h
  cases hnode
  dsimp only at h
  split at h
  · next store v hempty =>
      obtain ⟨_, _, hset, h⟩ := run_bind_eq_ok.1 h
      cases hset
      obtain ⟨_, _, hawait, h⟩ := run_bind_eq_ok.1 h
      cases hawait
      cases h
      exact emptyOf_mapping hempty
  · -- whatever else succeeds is a scalar
    split at h
    · cases h
    · split at h
      · cases h
      · obtain ⟨_, _, _, h⟩ := run_bind_eq_ok.1 h
        split at h
        · cases h
        · obtain ⟨_, _, _, h⟩ := run_bind_eq_ok.1 h
          cases h

theorem document_run {root target : Nat} {b b' : Builder} (hnew : b.built[root]?.join = none)
    (hb : Within nodes 0 b) (h : (document root).run b = .ok (.mapping target, b')) :
    target < b'.store.mappings.size := by
  have hrun : (document root).run b = (value root).run b >>= fun found =>
      (fillAll (found.2.nodes.size + 1)).run found.2 >>= fun filled =>
        .ok (found.1, filled.2) := rfl
  rw [hrun] at h
  obtain ⟨⟨v, b₁⟩, hvalue, h⟩ := bind_eq_ok.1 h
  obtain ⟨⟨_, b₂⟩, hfill, h⟩ := bind_eq_ok.1 h
  cases h
  have hsize := value_run hnew hvalue
  have hb₁ : Within nodes (target + 1) b₁ :=
    ⟨((value_builds root b hb).2 _ _ hvalue).1.written, hsize⟩
  exact ((fillAll_builds _ _ hb₁).2 _ _ hfill).1.mappings

end Build

/-- Why a text has no value, unless it breaks a rule. -/
inductive Unfit (text : String) : Fault → Prop
  /-- It writes what no number or character can be. -/
  | unrepresentable {f : Fault} (h : Unrepresentable f) : Unfit text f
  /-- Too many collections lie within one another. -/
  | deep : Unfit text .tooDeep
  /-- A node of the document does not fit its type. -/
  | misfit {graph : NodeGraph} {f : Fault}
      (document : NodeGraph.ofText text.toList = .ok (some graph))
      (h : Misfit graph.nodes f) : Unfit text f

/-- Reading ends with a fault only for a text that is unfit. -/
theorem read_unfit {store : Store} {text : String} {f : Fault}
    (h : read store text = .error (.fault f)) : Unfit text f := by
  unfold read at h
  dsimp only at h
  split at h
  · cases h
  · rcases bind_eq_error.1 h with h | ⟨graph, hgraph, h⟩
    · rcases NodeGraph.ofText_error h with rfl | h
      · exact .deep
      · exact .unrepresentable h
    · split at h
      · cases h
      · rcases bind_eq_error.1 h with h | ⟨_, _, h⟩
        · exact .misfit hgraph ((Build.document_builds _ _ ⟨fun _ h => h, Nat.zero_le _⟩).1 f h)
        · cases h

theorem read_mapping {store store' : Store} {text : String} {id : Nat}
    (h : read store text = .ok (store', .mapping id)) : id < store'.mappings.size := by
  unfold read at h
  dsimp only at h
  split at h
  · cases h
  · obtain ⟨graph, hgraph, h⟩ := bind_eq_ok.1 h
    split at h
    · cases h
    · next found =>
        obtain ⟨⟨v, b⟩, hrun, h⟩ := bind_eq_ok.1 h
        cases h
        refine Build.document_run ?_ ⟨fun _ h => h, Nat.zero_le _⟩ hrun
        rw [Array.getElem?_replicate]
        split <;> rfl

end TypedClient.Yaml
