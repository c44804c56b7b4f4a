import TypedClient.Proofs.EnumRegistry

/-!
# The two modes differ in the prefix of a reference

A schema is resolved in one of two modes, for the module of all types and for
everywhere else. The descent knows nothing of the mode, and of the leaves only
a reference does. So both modes take the same way down, do the same to the
registry and fail alike, and what they write differs in the one place where the
reference stands.

That place is the same in both texts because the layers write around whatever
stands within them. `Layer.openings` and `Layer.closings` are what they write
before and after it, and `aroundAll_eq` says that there is nothing else.
-/

namespace TypedClient

/-! ## What layers write -/

namespace Layer

/-- What a layer writes before the type within it. -/
def opening : Layer → String
  | wrapper => ""
  | array => ""
  | map => "\x7b[key: string]: "

/-- What a layer writes after the type within it. -/
def closing : Layer → String
  | wrapper => ""
  | array => "[]"
  | map => "\x7d"

/-- What layers write before the type within them all. -/
def openings : List Layer → String
  | [] => ""
  | layer :: rest => layer.opening ++ openings rest

/-- What layers write after the type within them all. -/
def closings : List Layer → String
  | [] => ""
  | layer :: rest => closings rest ++ layer.closing

theorem around_eq (layer : Layer) (type : String) :
    layer.around type = layer.opening ++ type ++ layer.closing := by
  cases layer with
  | wrapper => exact (String.append_empty.trans String.empty_append).symm
  | array => exact congrArg (· ++ "[]") String.empty_append.symm
  | map => rfl

theorem aroundAll_cons (layer : Layer) (rest : List Layer) (type : String) :
    aroundAll (layer :: rest) type = layer.around (aroundAll rest type) := by
  simp [aroundAll]

theorem aroundAll_eq (layers : List Layer) (type : String) :
    aroundAll layers type = openings layers ++ type ++ closings layers := by
  induction layers with
  | nil => simp [aroundAll, openings, closings]
  | cons layer rest ih =>
      simp only [aroundAll_cons, around_eq, ih, openings, closings, String.append_assoc]

end Layer

/-! ## Leaves in both modes -/

/-- The texts of a leaf in the module of all types and elsewhere: a reference is
qualified elsewhere, and any other leaf has one text. -/
def Leaf.Qualifies (config : ResolverConfig) : Leaf → String → String → Prop
  | .reference target, bare, elsewhere =>
    bare = Naming.referenceName target ∧ elsewhere = qualify config.typesNamespace bare
  | _, bare, elsewhere => elsewhere = bare

variable {store : Store} {config : ResolverConfig} {r : Registry}

theorem qualify_empty (name : String) : qualify "" name = name := if_pos rfl

theorem leaf_resolve_mode {leaf : Leaf} (hplain : ∀ target, leaf ≠ .reference target) :
    leaf.resolve store config .default r = leaf.resolve store config .typesModule r := by
  cases leaf with
  | reference target => exact absurd rfl (hplain target)
  | _ => rfl

theorem leaf_resolve_unqualified {leaf : Leaf} (hempty : config.typesNamespace = "") :
    leaf.resolve store config .default r = leaf.resolve store config .typesModule r := by
  cases leaf with
  | reference target =>
      simp only [Leaf.resolve, referenceType]
      rw [hempty, qualify_empty]
  | _ => rfl

theorem qualifies_self {leaf : Leaf} (hplain : ∀ target, leaf ≠ .reference target)
    (text : String) : leaf.Qualifies config text text := by
  cases leaf with
  | reference target => exact absurd rfl (hplain target)
  | _ => rfl

theorem leaf_modes (leaf : Leaf) :
    (∃ f, leaf.resolve store config .typesModule r = .error f ∧
      leaf.resolve store config .default r = .error f) ∨
    ∃ bare elsewhere after collision, leaf.Qualifies config bare elsewhere ∧
      leaf.resolve store config .typesModule r = .ok ⟨bare, after, collision⟩ ∧
      leaf.resolve store config .default r = .ok ⟨elsewhere, after, collision⟩ := by
  by_cases hreference : ∃ target, leaf = .reference target
  · obtain ⟨target, rfl⟩ := hreference
    exact .inr ⟨_, _, r, none, ⟨rfl, rfl⟩, rfl, rfl⟩
  · have hplain : ∀ target, leaf ≠ .reference target := fun target h => hreference ⟨target, h⟩
    rw [leaf_resolve_mode hplain]
    cases hleaf : leaf.resolve store config .typesModule r with
    | error f => exact .inl ⟨f, rfl, rfl⟩
    | ok written => exact .inr ⟨_, _, _, _, qualifies_self hplain written.text, rfl, rfl⟩

/-! ## Schemas in both modes -/

/-- For every schema, configuration and registry the two modes fail alike, or
both succeed, do the same to the registry, and write the same around two texts
of the leaf: one text, unless the leaf is a reference, which has its bare name in
one mode and its qualified name in the other. -/
theorem modes_differ_by_prefix (store : Store) (config : ResolverConfig) (r : Registry)
    (site : SchemaSite) :
    ((∃ f, resolve store config .typesModule r site = .error f ∧
        resolve store config .default r site = .error f) ∨
      ∃ d bare elsewhere after collision,
        descendSite store true config.budget site = .ok d ∧
        d.leaf.resolve store config .typesModule r = .ok ⟨bare, after, collision⟩ ∧
        d.leaf.Qualifies config bare elsewhere ∧
        resolve store config .typesModule r site =
          .ok ⟨Layer.openings d.layers ++ bare ++ Layer.closings d.layers, after, collision⟩ ∧
        resolve store config .default r site =
          .ok ⟨Layer.openings d.layers ++ elsewhere ++ Layer.closings d.layers, after,
            collision⟩) ∧
    (config.typesNamespace = "" →
      resolve store config .default r site = resolve store config .typesModule r site) ∧
    ((∀ layers target,
        descendSite store true config.budget site ≠ .ok ⟨layers, .reference target⟩) →
      resolve store config .default r site = resolve store config .typesModule r site) := by
  cases hdescent : descendSite store true config.budget site with
  | error e =>
      rw [resolve_of_error hdescent, resolve_of_error hdescent]
      exact ⟨.inl ⟨_, rfl, rfl⟩, fun _ => rfl, fun _ => rfl⟩
  | ok d =>
      rw [resolve_of_ok hdescent, resolve_of_ok hdescent]
      refine ⟨?_, ?_, ?_⟩
      · rcases leaf_modes d.leaf with ⟨f, htypes, hdefault⟩ |
          ⟨bare, elsewhere, after, collision, hqualifies, htypes, hdefault⟩
        · exact .inl ⟨f, by rw [htypes]; rfl, by rw [hdefault]; rfl⟩
        · refine .inr ⟨d, bare, elsewhere, after, collision, rfl, htypes, hqualifies, ?_, ?_⟩
          · rw [htypes, ← Layer.aroundAll_eq]
            rfl
          · rw [hdefault, ← Layer.aroundAll_eq]
            rfl
      · intro hempty
        rw [leaf_resolve_unqualified hempty]
      · intro hplain
        have hleaf : ∀ target, d.leaf ≠ .reference target := by
          intro target h
          exact hplain d.layers target (by rw [← h])
        rw [leaf_resolve_mode hleaf]

end TypedClient
