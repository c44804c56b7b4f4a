import TypedClient.Proofs.EnumRegistry
import TypedClient.Proofs.PropertyKeys

/-!
# What a declaration of an enum tells

An enum is declared by its members, written one after the other with bars
between them. A member may have bars, quotes and blanks of its own, so it is not
plain that the members can be told from the declaration. They can, because a
member says where it ends: between quotes it ends at the first quote that is not
escaped, and without quotes it has no blank. So where two declarations are the
same, their first members are the same, and what comes after them, too
(`IsMember.append_inj`); the rest is an induction over the members.

A strict registry compares declarations. What it accepts under a name that is
taken is therefore an enum with the same members in the same order, and nothing
else.
-/

namespace TypedClient

open Text (apostrophe escapedChar singleQuoted)
open Script (isBareChar)

/-! ## Members -/

/-- The characters of a member: a text between quotes, or a token without them. -/
inductive IsMember : List Char → Prop
  | quoted (cs : List Char) : IsMember (apostrophe :: (cs.flatMap escapedChar ++ [apostrophe]))
  | bare {cs : List Char} (nonempty : cs ≠ []) (plain : ∀ c ∈ cs, isBareChar c = true) :
      IsMember cs

namespace IsMember

theorem ne_nil {cs : List Char} (h : IsMember cs) : cs ≠ [] := by
  cases h with
  | quoted cs => exact List.cons_ne_nil _ _
  | bare nonempty _ => exact nonempty

theorem bare_append_ne {cs rest ds : List Char} (nonempty : cs ≠ [])
    (plain : ∀ c ∈ cs, isBareChar c = true) : cs ++ rest ≠ apostrophe :: ds := by
  obtain ⟨c, more, rfl⟩ := List.exists_cons_of_ne_nil nonempty
  intro h
  exact (JsonText.Lexeme.isBareChar_apart (plain c List.mem_cons_self)).2.2.1 (List.cons.inj h).1

theorem takeWhile_bare {cs rest : List Char} (plain : ∀ c ∈ cs, isBareChar c = true)
    (hrest : ∀ c ∈ rest.head?, c = ' ') : (cs ++ rest).takeWhile isBareChar = cs := by
  rw [List.takeWhile_append_of_pos plain]
  cases rest with
  | nil => exact List.append_nil cs
  | cons c rest =>
      obtain rfl : c = ' ' := hrest c rfl
      exact List.append_nil cs

/-- A member that nothing or a blank comes after can be told from what comes after. -/
theorem append_inj {cs ds rest rest' : List Char} (hcs : IsMember cs) (hds : IsMember ds)
    (hrest : ∀ c ∈ rest.head?, c = ' ') (hrest' : ∀ c ∈ rest'.head?, c = ' ')
    (h : cs ++ rest = ds ++ rest') : cs = ds ∧ rest = rest' := by
  cases hcs with
  | quoted cs =>
      cases hds with
      | quoted ds =>
          rw [List.cons_append, List.cons_append, List.cons.injEq, List.append_assoc,
            List.append_assoc] at h
          obtain ⟨rfl, hsame⟩ := Text.escapedChars_append_inj h.2
          exact ⟨rfl, hsame⟩
      | bare nonempty plain => exact absurd h.symm (bare_append_ne nonempty plain)
  | bare nonempty plain =>
      cases hds with
      | quoted ds => exact absurd h (bare_append_ne nonempty plain)
      | bare nonempty' plain' =>
          have hsame : cs = ds := by
            rw [← takeWhile_bare plain hrest, h, takeWhile_bare plain' hrest']
          subst hsame
          exact ⟨rfl, List.append_cancel_left h⟩

end IsMember

/-! ## Lists of members -/

/-- The members after the first one, each after a bar. -/
def furtherMembers (members : List String) : List Char :=
  members.flatMap fun member => " | ".toList ++ member.toList

theorem head?_furtherMembers (members : List String) :
    ∀ c ∈ (furtherMembers members).head?, c = ' ' := by
  cases members with
  | nil => exact fun _ h => absurd h (by simp [furtherMembers])
  | cons member rest =>
      intro c hc
      exact (Option.some.inj hc).symm

theorem furtherMembers_injective {members others : List String}
    (hmembers : ∀ m ∈ members, IsMember m.toList) (hothers : ∀ m ∈ others, IsMember m.toList)
    (h : furtherMembers members = furtherMembers others) : members = others := by
  induction members generalizing others with
  | nil =>
      cases others with
      | nil => rfl
      | cons other rest => cases h
  | cons member members ih =>
      cases others with
      | nil => cases h
      | cons other others =>
          rw [List.forall_mem_cons] at hmembers hothers
          have hchars : member.toList ++ furtherMembers members =
              other.toList ++ furtherMembers others := by
            simpa [furtherMembers] using h
          obtain ⟨hfirst, hrest⟩ := hmembers.1.append_inj hothers.1 (head?_furtherMembers _)
            (head?_furtherMembers _) hchars
          rw [String.toList_inj.1 hfirst, ih hmembers.2 hothers.2 hrest]

theorem unionDeclaration_inj {name : String} {members others : List String}
    (hmembers : ∀ m ∈ members, IsMember m.toList) (hothers : ∀ m ∈ others, IsMember m.toList) :
    unionDeclaration name members = unionDeclaration name others ↔ members = others := by
  refine ⟨fun h => ?_, congrArg _⟩
  have hchars := congrArg String.toList h
  simp only [unionDeclaration, String.toList_append, List.append_cancel_left_eq] at hchars
  -- A list with members is not declared like the empty one.
  have hsome : ∀ {first : String} {rest : List String}, IsMember first.toList →
      (" | ".intercalate (first :: rest)).toList ≠ [] := by
    intro first rest hfirst hnil
    rw [JsonText.toList_intercalate_cons] at hnil
    exact hfirst.ne_nil (List.append_eq_nil_iff.1 hnil).1
  cases members with
  | nil =>
      cases others with
      | nil => rfl
      | cons other others => exact absurd hchars.symm (hsome (hothers _ List.mem_cons_self))
  | cons member members =>
      cases others with
      | nil => exact absurd hchars (hsome (hmembers _ List.mem_cons_self))
      | cons other others =>
          rw [List.forall_mem_cons] at hmembers hothers
          rw [JsonText.toList_intercalate_cons, JsonText.toList_intercalate_cons] at hchars
          obtain ⟨hfirst, hrest⟩ := hmembers.1.append_inj hothers.1 (head?_furtherMembers members)
            (head?_furtherMembers others) hchars
          rw [String.toList_inj.1 hfirst, furtherMembers_injective hmembers.2 hothers.2 hrest]

/-! ## Literals -/

/-- A number or a truth value. -/
inductive Scalar.IsBare : Scalar → Prop
  | bool (b : Bool) : IsBare (.bool b)
  | int (n : Int) : IsBare (.int n)
  | float (x : Binary64) : IsBare (.float x)

/-- A scalar that JSON text can have. -/
inductive Scalar.IsLiteral : Scalar → Prop
  | null : IsLiteral .null
  | text (s : String) : IsLiteral (.text s)
  | bare {s : Scalar} (h : s.IsBare) : IsLiteral s

/-- A text that is one token without quotes. -/
structure IsBareText (t : String) : Prop where
  nonempty : t.toList ≠ []
  plain : ∀ c ∈ t.toList, isBareChar c = true

theorem isBareText_finite (negative : Bool) (m : Nat) (e : Int) :
    IsBareText (Binary64.finiteText negative m e) := by
  have hmagnitude : IsBareText (if m = 0 then "0.0" else (Decimal.shortest m e).layout) := by
    split
    · exact ⟨by decide, List.all_eq_true.1 (by decide)⟩
    · next hzero =>
        have hnearest := Decimal.shortest_nearest e (Nat.pos_of_ne_zero hzero)
        have hdigits := Decimal.digits_pos (Nat.pos_of_ne_zero hzero) hnearest
        obtain ⟨_, _, hread⟩ := Script.magnitude?_layout false hdigits
        obtain ⟨c, rest, hchars, _⟩ := Script.head_of_magnitude? hread
        exact ⟨by rw [hchars]; exact List.cons_ne_nil _ _, Script.bare_of_magnitude? hread⟩
  rw [Binary64.finiteText]
  constructor
  · simp [hmagnitude.nonempty]
  · rw [String.toList_append]
    refine List.forall_mem_append.2 ⟨?_, hmagnitude.plain⟩
    cases negative <;> exact List.all_eq_true.1 (by decide)

theorem Scalar.IsBare.json {s : Scalar} (h : s.IsBare) :
    ∃ t, JsonText.scalar s = .ok t ∧ IsBareText t := by
  cases h with
  | bool b => cases b <;> exact ⟨_, rfl, by decide, List.all_eq_true.1 (by decide)⟩
  | int n =>
      have hread := Script.number?_signedString n
      refine ⟨_, rfl, fun hnil => ?_, Script.bare_of_number? hread⟩
      rw [hnil] at hread
      cases hread
  | float x =>
      cases x with
      | finite negative m e => exact ⟨_, rfl, isBareText_finite negative m e⟩
      | infinite negative =>
          cases negative <;> exact ⟨_, rfl, by decide, List.all_eq_true.1 (by decide)⟩
      | nan => exact ⟨_, rfl, by decide, List.all_eq_true.1 (by decide)⟩

/-- A number or a truth value is written as it is, and between quotes in an enum
of texts. -/
theorem Scalar.IsBare.literal {s : Scalar} (h : s.IsBare) :
    ∃ t, IsBareText t ∧ ∀ (store : Store) (kind : EnumKind),
      kind.literal store (.scalar s) = .ok (if kind = .string then singleQuoted t else t) := by
  obtain ⟨t, ht, hbare⟩ := h.json
  refine ⟨t, hbare, fun store kind => ?_⟩
  have hjson : store.json (.scalar s) = .ok t := ht
  cases h <;> simp only [EnumKind.literal, hjson] <;> rfl

theorem isMember_singleQuoted (s : String) : IsMember (singleQuoted s).toList := by
  rw [Text.singleQuoted_toList]
  exact .quoted s.toList

theorem Scalar.IsLiteral.member {s : Scalar} (h : s.IsLiteral) (store : Store) (kind : EnumKind) :
    ∃ m, kind.literal store (.scalar s) = .ok m ∧ IsMember m.toList := by
  cases h with
  | null => exact ⟨"null", rfl, .bare (by decide) (List.all_eq_true.1 (by decide))⟩
  | text s => exact ⟨singleQuoted s, rfl, isMember_singleQuoted s⟩
  | bare h =>
      obtain ⟨t, hbare, hliteral⟩ := h.literal
      refine ⟨_, hliteral store kind, ?_⟩
      split
      · exact isMember_singleQuoted t
      · exact .bare hbare.nonempty hbare.plain

/-- How literals of two kinds are told apart: texts by what they are, and texts
from null and from what is written without quotes. -/
structure TextsApart (store : Store) (kind kind' : EnumKind) : Prop where
  text : ∀ s t, kind.literal store (.text s) = kind'.literal store (.text t) → s = t
  null : ∀ s, kind.literal store (.text s) ≠ kind'.literal store .null
  bare : ∀ s x, kind' ≠ .string → x.IsBare →
    kind.literal store (.text s) ≠ kind'.literal store (.scalar x)

theorem textsApart (store : Store) (kind kind' : EnumKind) : TextsApart store kind kind' := by
  have hbare : ∀ s {t : String}, IsBareText t → singleQuoted s ≠ t := by
    intro s t ht heq
    have hchars : t.toList = apostrophe :: (s.toList.flatMap escapedChar ++ [apostrophe]) := by
      rw [← heq, Text.singleQuoted_toList]
    exact IsMember.bare_append_ne ht.nonempty ht.plain (by rw [List.append_nil, hchars])
  constructor
  · intro s t h
    exact Text.singleQuoted_injective (Except.ok.inj h)
  · intro s h
    exact hbare s ⟨by decide, List.all_eq_true.1 (by decide)⟩ (Except.ok.inj h)
  · intro s x hkind hx h
    obtain ⟨t, ht, hliteral⟩ := hx.literal
    rw [hliteral store kind', if_neg hkind] at h
    exact hbare s ht (Except.ok.inj h)

/-! ## Declarations -/

namespace EnumSchema

/-- An enum whose literals are scalars that JSON text can have. -/
def HasLiterals (schema : EnumSchema) : Prop :=
  ∀ v ∈ schema.literals, ∃ s : Scalar, v = .scalar s ∧ s.IsLiteral

/-- Two enums with as many literals, each written like the one at its place. -/
def SameMembers (store : Store) (schema other : EnumSchema) : Prop :=
  List.Forall₂ (fun v w => schema.kind.literal store v = other.kind.literal store w)
    schema.literals other.literals

/-- The declaration of an enum is that of its members. -/
theorem HasLiterals.members {schema : EnumSchema} (h : schema.HasLiterals) (store : Store) :
    ∃ members, List.Forall₂ (fun v m => schema.kind.literal store v = .ok m)
        schema.literals members ∧
      (∀ m ∈ members, IsMember m.toList) ∧
      ∀ name, schema.declaration store name = .ok (unionDeclaration name members) := by
  have hliterals : ∃ members, List.Forall₂ (fun v m => schema.kind.literal store v = .ok m)
      schema.literals members ∧ ∀ m ∈ members, IsMember m.toList := by
    rw [HasLiterals] at h
    generalize schema.literals = literals at h ⊢
    induction literals with
    | nil => exact ⟨[], .nil, by simp⟩
    | cons v rest ih =>
        rw [List.forall_mem_cons] at h
        obtain ⟨s, rfl, hs⟩ := h.1
        obtain ⟨m, hliteral, hm⟩ := hs.member store schema.kind
        obtain ⟨members, hall, hmembers⟩ := ih h.2
        exact ⟨m :: members, .cons hliteral hall, List.forall_mem_cons.2 ⟨hm, hmembers⟩⟩
  obtain ⟨members, hall, hmembers⟩ := hliterals
  refine ⟨members, hall, hmembers, fun name => ?_⟩
  rw [declaration, mapM_eq_ok.2 hall]
  rfl

theorem sameMembers_iff {store : Store} {schema other : EnumSchema} {members members' : List String}
    (h : List.Forall₂ (fun v m => schema.kind.literal store v = .ok m) schema.literals members)
    (h' : List.Forall₂ (fun v m => other.kind.literal store v = .ok m) other.literals members') :
    SameMembers store schema other ↔ members = members' := by
  rw [SameMembers]
  generalize schema.literals = literals, other.literals = literals' at h h' ⊢
  induction h generalizing literals' members' with
  | nil => cases h' <;> simp
  | cons hfirst _ ih =>
      cases h' with
      | nil => simp
      | cons hfirst' hrest' =>
          rw [List.forall₂_cons, List.cons.injEq, ih _ hrest', hfirst, hfirst', Except.ok.injEq]

end EnumSchema

/-- Two enums of scalars have one declaration under a name when their members are
the same, and only then; so a strict registry that has the one takes the other
when their members are the same, and refuses it otherwise. And members tell
texts apart, and from null and from what is written without quotes. -/
theorem declaration_identifies_members (store : Store) {schema other : EnumSchema}
    (h : schema.HasLiterals) (h' : other.HasLiterals) (name : String) :
    ∃ declared declared', schema.declaration store name = .ok declared ∧
      other.declaration store name = .ok declared' ∧
      (declared = declared' ↔ EnumSchema.SameMembers store schema other) ∧
      (∀ r : Registry, r.strict = true → r.lookup name = some declared →
        (EnumSchema.SameMembers store schema other → r.insert name declared' = .ok (r, none)) ∧
        (¬ EnumSchema.SameMembers store schema other →
          r.insert name declared' = .error (.collision name declared declared' none))) ∧
      ∀ kind kind', TextsApart store kind kind' := by
  obtain ⟨members, hall, hmembers, hdeclared⟩ := h.members store
  obtain ⟨members', hall', hmembers', hdeclared'⟩ := h'.members store
  have hsame : unionDeclaration name members = unionDeclaration name members' ↔
      EnumSchema.SameMembers store schema other := by
    rw [unionDeclaration_inj hmembers hmembers', EnumSchema.sameMembers_iff hall hall']
  refine ⟨_, _, hdeclared name, hdeclared' name, hsame, fun r hstrict htaken => ⟨?_, ?_⟩,
    textsApart store⟩
  · intro hmatch
    exact (Registry.insert_eq_ok hstrict).2
      ⟨rfl, .inr ⟨hsame.2 hmatch ▸ htaken, rfl⟩⟩
  · intro hdiffer
    exact Registry.insert_eq_error.2
      ⟨hstrict, _, htaken, fun heq => hdiffer (hsame.1 heq), rfl⟩

/-- A number and null in an enum of texts. -/
def numberEnum : EnumSchema := ⟨[.scalar (.int 5), .null], .string, some "string", .null⟩

/-- A text and null in an enum of numbers. -/
def textEnum : EnumSchema := ⟨[.text "5", .null], .numeric, some "integer", .null⟩

/-- A text that has the members of the other two for its characters. -/
def barEnum : EnumSchema := ⟨[.text "5' | null"], .string, some "string", .null⟩

/-- The number counts as the text under a taken name; the text that looks like
two members does not. -/
theorem declaration_identifies_members_of_five :
    ∃ five barred, numberEnum.declaration {} "five" = .ok five ∧
      textEnum.declaration {} "five" = .ok five ∧
      barEnum.declaration {} "five" = .ok barred ∧
      ∀ r : Registry, r.strict = true → r.lookup "five" = some five →
        r.insert "five" five = .ok (r, none) ∧
        r.insert "five" barred = .error (.collision "five" five barred none) := by
  have hnumber : numberEnum.HasLiterals := by
    rintro v (_ | ⟨_, _ | ⟨_, ⟨⟩⟩⟩)
    · exact ⟨_, rfl, .bare (.int 5)⟩
    · exact ⟨_, rfl, .null⟩
  have htext : textEnum.HasLiterals := by
    rintro v (_ | ⟨_, _ | ⟨_, ⟨⟩⟩⟩)
    · exact ⟨_, rfl, .text "5"⟩
    · exact ⟨_, rfl, .null⟩
  have hbar : barEnum.HasLiterals := by
    rintro v (_ | ⟨_, ⟨⟩⟩)
    exact ⟨_, rfl, .text _⟩
  have halike : EnumSchema.SameMembers {} numberEnum textEnum :=
    .cons (by decide +kernel) (.cons rfl .nil)
  have hdiffer : ¬ EnumSchema.SameMembers {} numberEnum barEnum := fun h => by
    cases h.length_eq
  obtain ⟨five, five', hfive, hfive', hsame, haccept, _⟩ :=
    declaration_identifies_members {} hnumber htext "five"
  obtain ⟨_, barred, hfive'', hbarred, _, hrefuse, _⟩ :=
    declaration_identifies_members {} hnumber hbar "five"
  obtain rfl := hsame.2 halike
  obtain rfl := Except.ok.inj (hfive.symm.trans hfive'')
  exact ⟨five, barred, hfive, hfive', hbarred, fun r hstrict htaken =>
    ⟨(haccept r hstrict htaken).1 halike, (hrefuse r hstrict htaken).2 hdiffer⟩⟩

end TypedClient
