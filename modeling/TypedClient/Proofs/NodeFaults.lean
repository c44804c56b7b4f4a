import TypedClient.Proofs.ScannerFaults
import TypedClient.Yaml.Node

/-!
# Faults of composing nodes

Nodes are composed from tokens by steps with a state. Such a step is described by
`Keeps`: from a state with an invariant it leads to one with it, its result
satisfies a condition, and it lets a fault through only for a cause. A lemma for
each way to put steps together carries the description from the parts to the
whole, so that every function of the composer needs one lemma that follows its
text.

Composing itself faults only at collections that lie too deep; all else it hands
on is what scanning ended with, which no step changes.
-/

namespace TypedClient.Yaml

variable {α β : Type} {cause : Fault → Prop}

/-! ## Steps with a state -/

/-- From states that satisfy an invariant a step leads to such states, its
results satisfy a condition, and faults are let through only for a cause. -/
def Keeps {σ : Type} (inv : σ → Prop) (cause : Fault → Prop)
    (x : StateT σ (Except YamlError) α) (post : α → Prop) : Prop :=
  ∀ s, inv s → Blames cause (x.run s) ∧ ∀ a s', x.run s = .ok (a, s') → inv s' ∧ post a

theorem run_bind_eq_ok {σ : Type} {x : StateT σ (Except YamlError) α}
    {next : α → StateT σ (Except YamlError) β} {s s'' : σ} {b : β} :
    (x >>= next).run s = .ok (b, s'') ↔
      ∃ a s', x.run s = .ok (a, s') ∧ (next a).run s' = .ok (b, s'') := by
  refine bind_eq_ok.trans ⟨?_, ?_⟩
  · rintro ⟨⟨a, s'⟩, ha, hb⟩
    exact ⟨a, s', ha, hb⟩
  · rintro ⟨a, s', ha, hb⟩
    exact ⟨⟨a, s'⟩, ha, hb⟩

theorem run_bind_eq_error {σ : Type} {x : StateT σ (Except YamlError) α}
    {next : α → StateT σ (Except YamlError) β} {s : σ} {e : YamlError} :
    (x >>= next).run s = .error e ↔
      x.run s = .error e ∨ ∃ a s', x.run s = .ok (a, s') ∧ (next a).run s' = .error e := by
  refine bind_eq_error.trans (or_congr_right ⟨?_, ?_⟩)
  · rintro ⟨⟨a, s'⟩, ha, hb⟩
    exact ⟨a, s', ha, hb⟩
  · rintro ⟨a, s', ha, hb⟩
    exact ⟨⟨a, s'⟩, ha, hb⟩

namespace Keeps

variable {σ : Type} {inv : σ → Prop} {post : α → Prop} {post' : β → Prop}

theorem pure {a : α} (h : post a) : Keeps inv cause (pure a) post := by
  intro s hs
  refine ⟨.ok, fun b s' hb => ?_⟩
  cases hb
  exact ⟨hs, h⟩

theorem bind {x : StateT σ (Except YamlError) α} {next : α → StateT σ (Except YamlError) β}
    (h : Keeps inv cause x post) (hnext : ∀ a, post a → Keeps inv cause (next a) post') :
    Keeps inv cause (x >>= next) post' := by
  intro s hs
  obtain ⟨hblames, hok⟩ := h s hs
  constructor
  · intro f hf
    rcases run_bind_eq_error.1 hf with hf | ⟨a, s', ha, hf⟩
    · exact hblames f hf
    · obtain ⟨hs', hpost⟩ := hok a s' ha
      exact (hnext a hpost s' hs').1 f hf
  · intro b s'' hb
    obtain ⟨a, s', ha, hb⟩ := run_bind_eq_ok.1 hb
    obtain ⟨hs', hpost⟩ := hok a s' ha
    exact (hnext a hpost s' hs').2 b s'' hb

theorem error {e : YamlError} (h : ∀ f, e = .fault f → cause f) :
    Keeps inv cause (throw e) post := by
  intro s _
  refine ⟨fun f hf => h f ?_, nofun⟩
  cases hf
  rfl

theorem malformed : Keeps inv cause (throw .malformed) post := .error nofun

theorem fault {f : Fault} (h : cause f) : Keeps inv cause (throw (.fault f)) post := by
  refine .error ?_
  rintro _ ⟨⟩
  exact h

theorem ite {p : Prop} [Decidable p] {x y : StateT σ (Except YamlError) α}
    (hx : Keeps inv cause x post) (hy : Keeps inv cause y post) :
    Keeps inv cause (if p then x else y) post := by
  split
  · exact hx
  · exact hy

theorem get : Keeps inv cause get inv := by
  intro s hs
  refine ⟨.ok, fun a s' ha => ?_⟩
  cases ha
  exact ⟨hs, hs⟩

theorem set {s : σ} (h : inv s) : Keeps inv cause (set s) fun _ => True := by
  intro s₀ _
  refine ⟨.ok, fun a s' ha => ?_⟩
  cases ha
  exact ⟨h, trivial⟩

theorem modify {f : σ → σ} (h : ∀ s, inv s → inv (f s)) :
    Keeps inv cause (modify f) fun _ => True := by
  intro s hs
  refine ⟨.ok, fun a s' ha => ?_⟩
  cases ha
  exact ⟨h s hs, trivial⟩

theorem lift {x : Except YamlError α} (h : Blames cause x) :
    Keeps inv cause (liftM x : StateT σ (Except YamlError) α) fun _ => True := by
  intro s hs
  have hrun : (liftM x : StateT σ (Except YamlError) α).run s = x >>= fun a => .ok (a, s) := rfl
  rw [hrun]
  refine ⟨h.bind fun _ => .ok, fun a s' ha => ?_⟩
  obtain ⟨_, -, hpair⟩ := bind_eq_ok.1 ha
  cases hpair
  exact ⟨hs, trivial⟩

end Keeps

/-! ## Composing -/

/-- A step of composing lets a fault through only where a collection lies too
deep, or where scanning does. -/
def Composes (ending : Option YamlError) (x : Compose α) : Prop :=
  Keeps (fun s => s.ending = ending) (fun f => f = .tooDeep ∨ ending = some (.fault f)) x
    fun _ => True

namespace Compose

variable {ending : Option YamlError}

theorem peek_composes : Composes ending peek := by
  refine Keeps.get.bind fun s hs => ?_
  split
  · exact .pure trivial
  · exact .pure trivial
  · next e _ hending =>
      refine .error fun f hf => .inr ?_
      rw [← hs, hending, hf]

theorem skip_composes : Composes ending skip := .modify fun _ hs => hs

theorem isNext_composes (options : List Token) : Composes ending (isNext options) :=
  peek_composes.bind fun _ _ => .pure trivial

theorem skipIf_composes (t : Token) : Composes ending (skipIf t) :=
  (isNext_composes [t]).bind fun _ _ =>
    .ite (skip_composes.bind fun _ _ => .pure trivial) (.pure trivial)

theorem expect_composes (t : Token) : Composes ending (expect t) :=
  (skipIf_composes t).bind fun _ _ => .ite .malformed (.pure trivial)

theorem addNode_composes (tag : Tag) (content : NodeContent) :
    Composes ending (addNode tag content) :=
  Keeps.get.bind fun _ hs => .bind (.set hs) fun _ _ => .pure trivial

theorem emptyNode_composes : Composes ending emptyNode := addNode_composes _ _

theorem fill_composes (id : Nat) (content : NodeContent) : Composes ending (fill id content) :=
  .modify fun _ hs => hs

theorem setAnchor_composes (anchor : Option String) (id : Nat) :
    Composes ending (setAnchor anchor id) := by
  cases anchor with
  | none => exact .pure trivial
  | some name => exact .modify fun _ hs => hs

theorem tagName_composes (handle : Option String) (suffix : String) :
    Composes ending (tagName handle suffix) := by
  cases handle with
  | none => exact .pure trivial
  | some h =>
      refine Keeps.get.bind fun s _ => ?_
      split
      · exact .pure trivial
      · exact .malformed

theorem anchor?_composes : Composes ending anchor? := by
  refine peek_composes.bind fun next _ => ?_
  split
  · exact skip_composes.bind fun _ _ => .pure trivial
  · exact .pure trivial

theorem tag?_composes : Composes ending tag? := by
  refine peek_composes.bind fun next _ => ?_
  split
  · exact skip_composes.bind fun _ _ => .pure trivial
  · exact .pure trivial

theorem mapM_composes {f : α → Compose β} (h : ∀ a, Composes ending (f a)) (o : Option α) :
    Composes ending (o.mapM f) := by
  cases o with
  | none => exact .pure trivial
  | some a => exact (h a).bind fun _ _ => .pure trivial

theorem properties_composes : Composes ending properties := by
  refine anchor?_composes.bind fun before _ => tag?_composes.bind fun tag _ => ?_
  have hname (anchor : Option String) : Composes ending (do
      return (⟨anchor, ← tag.mapM fun found => tagName found.1 found.2⟩ : Properties)) :=
    (mapM_composes (fun _ => tagName_composes _ _) tag).bind fun _ _ => .pure trivial
  exact .ite (anchor?_composes.bind fun _ _ => hname _) (hname _)

theorem nested_composes {parts : Compose α} (h : Composes ending parts) :
    Composes ending (nested parts) := by
  refine Keeps.get.bind fun s _ => .ite (.fault (.inl rfl)) ?_
  refine .bind (.modify fun _ hs => hs) fun _ _ => h.bind fun _ _ => ?_
  exact .bind (.modify fun _ hs => hs) fun _ _ => .pure trivial

/-- What is read of a document with an amount of fuel. -/
structure AllCompose (ending : Option YamlError) (fuel : Nat) : Prop where
  node : ∀ position, Composes ending (node fuel position)
  nodeUnless : ∀ position stops, Composes ending (nodeUnless fuel position stops)
  blockItems : Composes ending (blockItems fuel)
  unindentedItems : Composes ending (unindentedItems fuel)
  blockEntries : Composes ending (blockEntries fuel)
  flowItems : ∀ isFirst, Composes ending (flowItems fuel isFirst)
  flowEntries : ∀ isFirst, Composes ending (flowEntries fuel isFirst)

section Step

variable {fuel : Nat} (h : AllCompose ending fuel)

include h

theorem node_composes (position : Position) : Composes ending (node (fuel + 1) position) := by
  unfold node
  refine peek_composes.bind fun next _ => ?_
  split
  · next name =>
      refine skip_composes.bind fun _ _ => Keeps.get.bind fun s _ => ?_
      split
      · exact .pure trivial
      · exact .malformed
  · refine properties_composes.bind fun p _ => peek_composes.bind fun next _ => ?_
    refine Keeps.get.bind fun s _ => .ite .malformed ?_
    have hcollection (start : Token) (written : Tag) (empty : NodeContent)
        {parts : Compose NodeContent} (hparts : Composes ending parts) : Composes ending (do
          if start != .blockEntry then skip
          let id ← addNode (collectionTag p.tag written) empty
          setAnchor p.anchor id
          fill id (← nested parts)
          return id) := by
      have hrest : Composes ending (do
          let id ← addNode (collectionTag p.tag written) empty
          setAnchor p.anchor id
          fill id (← nested parts)
          return id) :=
        (addNode_composes _ _).bind fun _ _ => (setAnchor_composes _ _).bind fun _ _ =>
          (nested_composes hparts).bind fun _ _ => (fill_composes _ _).bind fun _ _ => .pure trivial
      exact .ite (skip_composes.bind fun _ _ => hrest) hrest
    have hscalar (tag : Tag) (text : String) : Composes ending (do
        let id ← addNode tag (.scalar text)
        setAnchor p.anchor id
        return id) :=
      (addNode_composes _ _).bind fun _ _ => (setAnchor_composes _ _).bind fun _ _ => .pure trivial
    dsimp only
    split
    · exact hcollection _ _ _ (h.unindentedItems.bind fun _ _ => .pure trivial)
    · exact skip_composes.bind fun _ _ => hscalar _ _
    · exact hcollection _ _ _ ((h.flowItems _).bind fun _ _ => .pure trivial)
    · exact hcollection _ _ _ ((h.flowEntries _).bind fun _ _ => .pure trivial)
    · exact .malformed
    · exact .malformed
    · exact hcollection _ _ _ (h.blockItems.bind fun _ _ => .pure trivial)
    · exact hcollection _ _ _ (h.blockEntries.bind fun _ _ => .pure trivial)
    · exact .ite .malformed (hscalar _ _)

theorem nodeUnless_composes (position : Position) (stops : List Token) :
    Composes ending (nodeUnless (fuel + 1) position stops) :=
  (isNext_composes stops).bind fun _ _ => .ite emptyNode_composes (h.node position)

theorem blockItems_composes : Composes ending (blockItems (fuel + 1)) := by
  unfold blockItems
  refine (skipIf_composes _).bind fun _ _ => .ite ?_ ?_
  · exact (h.nodeUnless _ _).bind fun _ _ => h.blockItems.bind fun _ _ => .pure trivial
  · exact (expect_composes _).bind fun _ _ => .pure trivial

theorem unindentedItems_composes : Composes ending (unindentedItems (fuel + 1)) := by
  unfold unindentedItems
  refine (skipIf_composes _).bind fun _ _ => .ite ?_ (.pure trivial)
  exact (h.nodeUnless _ _).bind fun _ _ => h.unindentedItems.bind fun _ _ => .pure trivial

/-- The value after a key, which may be missing. -/
theorem valueAfter_composes {β : Type} (position : Position) (stops : List Token)
    {next : Nat → Compose β} (hnext : ∀ value, Composes ending (next value)) :
    Composes ending (do
      let value ← if ← skipIf .value then nodeUnless fuel position stops else emptyNode
      next value) :=
  (skipIf_composes _).bind fun _ _ =>
    .ite ((h.nodeUnless _ _).bind fun _ _ => hnext _) (emptyNode_composes.bind fun _ _ => hnext _)

theorem blockEntries_composes : Composes ending (blockEntries (fuel + 1)) := by
  unfold blockEntries
  refine (skipIf_composes _).bind fun _ _ => .ite ?_ ?_
  · refine (h.nodeUnless _ _).bind fun key _ => valueAfter_composes h _ _ fun value => ?_
    exact h.blockEntries.bind fun _ _ => .pure trivial
  · exact (expect_composes _).bind fun _ _ => .pure trivial

omit h in
/-- What comes after a separator, which stands before all parts but the first. -/
theorem separated_composes {isFirst : Bool} {next : Compose α} (hnext : Composes ending next) :
    Composes ending (do
      if !isFirst then expect .flowEntry
      next) :=
  .ite ((expect_composes _).bind fun _ _ => hnext) hnext

theorem flowItems_composes (isFirst : Bool) : Composes ending (flowItems (fuel + 1) isFirst) := by
  unfold flowItems
  refine (skipIf_composes _).bind fun _ _ => .ite (.pure trivial) (separated_composes ?_)
  refine (skipIf_composes _).bind fun _ _ => .ite ?_ ?_
  · have hpair : Composes ending (do
        let key ← nodeUnless fuel .flow (.value :: flowSequenceStops)
        let value ← if ← skipIf .value then nodeUnless fuel .flow flowSequenceStops else emptyNode
        return NodeContent.mapping [(key, value)]) :=
      (h.nodeUnless _ _).bind fun _ _ => valueAfter_composes h _ _ fun _ => .pure trivial
    refine (addNode_composes _ _).bind fun _ _ => (nested_composes hpair).bind fun _ _ => ?_
    exact (fill_composes _ _).bind fun _ _ => (h.flowItems _).bind fun _ _ => .pure trivial
  · refine (skipIf_composes _).bind fun _ _ => .ite (.pure trivial) ?_
    exact (h.node _).bind fun _ _ => (h.flowItems _).bind fun _ _ => .pure trivial

theorem flowEntries_composes (isFirst : Bool) :
    Composes ending (flowEntries (fuel + 1) isFirst) := by
  unfold flowEntries
  refine (skipIf_composes _).bind fun _ _ => .ite (.pure trivial) (separated_composes ?_)
  refine (skipIf_composes _).bind fun _ _ => .ite ?_ ?_
  · refine (h.nodeUnless _ _).bind fun key _ => valueAfter_composes h _ _ fun value => ?_
    exact (h.flowEntries _).bind fun _ _ => .pure trivial
  · refine (skipIf_composes _).bind fun _ _ => .ite (.pure trivial) ?_
    refine (h.node _).bind fun _ _ => emptyNode_composes.bind fun _ _ => ?_
    exact (h.flowEntries _).bind fun _ _ => .pure trivial

end Step

theorem allCompose (fuel : Nat) : AllCompose ending fuel := by
  induction fuel with
  | zero =>
      constructor
      all_goals
        intros
        exact .malformed
  | succ fuel ih =>
      exact {
        node := node_composes ih
        nodeUnless := nodeUnless_composes ih
        blockItems := blockItems_composes ih
        unindentedItems := unindentedItems_composes ih
        blockEntries := blockEntries_composes ih
        flowItems := flowItems_composes ih
        flowEntries := flowEntries_composes ih }

theorem directives_composes (fuel : Nat) (hasVersion : Bool) (handles : List (String × String)) :
    Composes ending (directives fuel hasVersion handles) := by
  induction fuel generalizing hasVersion handles with
  | zero => exact .malformed
  | succ fuel ih =>
      unfold directives
      refine peek_composes.bind fun next _ => ?_
      split
      · exact .ite .malformed (skip_composes.bind fun _ _ => ih _ _)
      · exact .ite .malformed (skip_composes.bind fun _ _ => ih _ _)
      · exact skip_composes.bind fun _ _ => ih _ _
      · exact .pure trivial

theorem atFrame_composes : Composes ending atFrame := by
  refine peek_composes.bind fun next _ => ?_
  split <;> exact .pure trivial

theorem skipEnds_composes (fuel : Nat) : Composes ending (skipEnds fuel) := by
  induction fuel with
  | zero => exact .pure trivial
  | succ fuel ih => exact (skipIf_composes _).bind fun _ _ => .ite ih (.pure trivial)

theorem document_composes (fuel : Nat) : Composes ending (document fuel) := by
  have hend (root : Nat) : Composes ending (do
      skipEnds fuel
      if (← peek).isSome then
        let _ ← directives fuel false []
        throw .malformed
      return some root) := by
    refine (skipEnds_composes _).bind fun _ _ => ?_
    refine peek_composes.bind fun _ _ => .ite ?_ (.pure trivial)
    exact (directives_composes _ _ _).bind fun _ _ => .malformed
  have hroot (startsBare : Bool) : Composes ending (do
      let root ← if !startsBare && (← atFrame) then emptyNode else node fuel .block
      skipEnds fuel
      if (← peek).isSome then
        let _ ← directives fuel false []
        throw .malformed
      return some root) := by
    refine atFrame_composes.bind fun _ _ => .ite ?_ ?_
    · exact emptyNode_composes.bind fun root _ => hend root
    · exact ((allCompose fuel).node _).bind fun root _ => hend root
  refine peek_composes.bind fun _ _ => .ite (.pure trivial) ?_
  refine atFrame_composes.bind fun _ _ => (isNext_composes _).bind fun _ _ => .ite ?_ ?_
  · exact .bind (.modify fun _ hs => hs) fun _ _ => hroot _
  · refine (directives_composes _ _ _).bind fun _ _ => .bind (.modify fun _ hs => hs) fun _ _ => ?_
    exact (expect_composes _).bind fun _ _ => hroot _

end Compose

/-- Composing ends with a fault only where a collection lies too deep, or where
the text writes what no number or character can be. -/
theorem NodeGraph.ofText_error {cs : List Char} {f : Fault}
    (h : NodeGraph.ofText cs = .error (.fault f)) : f = .tooDeep ∨ Unrepresentable f := by
  unfold NodeGraph.ofText at h
  rcases bind_eq_error.1 h with h | ⟨_, _, h⟩
  · exact ((Compose.document_composes _ _ rfl).1 f h).imp_right (Scanner.run_error _)
  · cases h

end TypedClient.Yaml
