import TypedClient.Api.Pointer
import TypedClient.Proofs.CamelWords
import TypedClient.Proofs.CommentEnds
import TypedClient.Proofs.LookUps

/-!
# Pointers lead where they say

A pointer is a list of keys with slashes between them, so a slash in a key has
to be written in another way, and then so has the tilde that the other way is
written with. Decoding takes the two back in the opposite order. Each of them is
undone for the same reason (`replacePair_replaceChar`): the pair that stands for
a character is not there unless it was put there.

So a written key has no slash, and cutting a pointer at its slashes gives the
keys again. The rest is an induction over the keys: `follow` finds a value just
when the keys lead to one, mapping by mapping.
-/

namespace TypedClient

/-! ## Writing a pair for a character -/

namespace Text

variable {a b c x : Char} {cs new : List Char}

theorem replaceChar_cons_self : replaceChar c new (c :: cs) = new ++ replaceChar c new cs := by
  simp [replaceChar]

theorem replaceChar_cons_ne (h : x ≠ c) :
    replaceChar c new (x :: cs) = x :: replaceChar c new cs := by
  simp [replaceChar, h]

theorem not_mem_replaceChar (h : c ∉ new) : c ∉ replaceChar c new cs := by
  rw [replaceChar, List.mem_flatMap]
  rintro ⟨x, -, hx⟩
  split at hx
  · exact h hx
  · next hne => exact hne (List.mem_singleton.1 hx).symm

theorem replacePair_pair :
    replacePair a b new (a :: b :: cs) = new ++ replacePair a b new cs := by
  rw [replacePair, if_pos (by simp)]

theorem replacePair_cons (h : ¬ (x = a ∧ cs.head? = some b)) :
    replacePair a b new (x :: cs) = x :: replacePair a b new cs := by
  cases cs with
  | nil => rfl
  | cons y rest =>
      have hpair : ¬ (decide (x = a) && decide (y = b)) = true := by simpa using h
      rw [replacePair, if_neg hpair]

/-- A pair that is written for a character is read back as it. Where the pair
starts with another character, the text must not have the pair already. -/
theorem replacePair_replaceChar (hab : a ≠ b) (h : c = a ∨ ¬ Adjacent a b cs) :
    replacePair a b [c] (replaceChar c [a, b] cs) = cs := by
  induction cs with
  | nil => rfl
  | cons x rest ih =>
      have hrest := ih (h.imp_right fun hnone hpair => hnone (Adjacent.cons_iff.2 (.inr hpair)))
      by_cases hx : x = c
      · subst hx
        rw [replaceChar_cons_self, List.cons_append, List.cons_append, List.nil_append,
          replacePair_pair, hrest, List.singleton_append]
      · rw [replaceChar_cons_ne hx, replacePair_cons, hrest]
        rintro ⟨rfl, hhead⟩
        -- Only what was there before can stand behind the first character of the pair.
        have hnone : ¬ Adjacent x b (x :: rest) := h.resolve_left (Ne.symm hx)
        cases rest with
        | nil => cases hhead
        | cons y more =>
            by_cases hy : y = c
            · rw [hy, replaceChar_cons_self] at hhead
              exact hab (Option.some.inj hhead)
            · rw [replaceChar_cons_ne hy] at hhead
              exact hnone (Adjacent.cons_iff.2 (.inl ⟨rfl, hhead⟩))

/-- A character that is always followed by another one is not followed by a
third. -/
theorem not_adjacent_replaceChar (hca : c ≠ a) (hcb : c ≠ b) :
    ¬ Adjacent a b (replaceChar a [a, c] cs) := by
  induction cs with
  | nil => exact Adjacent.not_nil
  | cons x rest ih =>
      by_cases hx : x = a
      · rw [hx, replaceChar_cons_self, List.cons_append, List.cons_append, List.nil_append,
          Adjacent.cons_iff, Adjacent.cons_iff]
        simp [hca, hcb, ih]
      · rw [replaceChar_cons_ne hx, Adjacent.cons_iff]
        simp [hx, ih]

end Text

/-! ## Keys and pointers -/

namespace Pointer

theorem decode_encode (key : String) : decode (encode key) = key := by
  let tildes := Text.replaceChar '~' ['~', '0'] key.toList
  have hslashes : Text.replacePair '~' '1' ['/'] (Text.replaceChar '/' ['~', '1'] tildes) = tildes :=
    Text.replacePair_replaceChar (by decide)
      (.inr (Text.not_adjacent_replaceChar (by decide) (by decide)))
  have htildes : Text.replacePair '~' '0' ['~'] tildes = key.toList :=
    Text.replacePair_replaceChar (by decide) (.inl rfl)
  rw [decode, encode, String.toList_ofList, hslashes, htildes, String.ofList_toList]

theorem slash_not_mem_encode (key : String) : '/' ∉ (encode key).toList := by
  rw [encode, String.toList_ofList]
  exact Text.not_mem_replaceChar (by decide)

/-- A text cut at its slashes is the pointer that it was written from. -/
theorem ofText?_text {keys : List String} (hkeys : keys ≠ []) :
    ofText? (text ⟨keys⟩) = some ⟨keys⟩ := by
  have htext : (text ⟨keys⟩).toList =
      '#' :: '/' :: ['/'].intercalate (keys.map fun key => (encode key).toList) := by
    rw [text, String.toList_append, String.toList_intercalate, List.map_map]
    rfl
  have hpieces : Text.piecesAt '/' (['/'].intercalate (keys.map fun key => (encode key).toList)) =
      keys.map fun key => (encode key).toList := by
    refine Naming.piecesAt_intercalate ?_ (by simpa using hkeys)
    rw [List.forall_mem_map]
    exact fun key _ => slash_not_mem_encode key
  simp only [ofText?, htext, hpieces, List.map_map]
  simp [Function.comp_def, decode_encode]

theorem text_injective {keys keys' : List String} (hkeys : keys ≠ []) (hkeys' : keys' ≠ [])
    (h : text ⟨keys⟩ = text ⟨keys'⟩) : keys = keys' := by
  have hread := ofText?_text hkeys
  rw [h, ofText?_text hkeys', Option.some.injEq, Pointer.mk.injEq] at hread
  exact hread.symm

end Pointer

/-! ## What keys lead to -/

/-- The value that keys lead to, one mapping after the other. -/
inductive Reaches (store : Store) : Value → List String → Value → Prop where
  | here (v : Value) : Reaches store v [] v
  | enter {id : Nat} {key : String} {keys : List String} {v w : Value}
      (found : store.find? id key = some v) (rest : Reaches store v keys w) :
      Reaches store (.mapping id) (key :: keys) w

/-- Keys lead to a value, on their way, that does not have the next one: it is
no mapping, or a mapping without it. -/
def RunsOff (store : Store) (v : Value) (keys : List String) : Prop :=
  ∃ front key back w, keys = front ++ key :: back ∧ Reaches store v front w ∧
    ∀ id, w = .mapping id → store.find? id key = none

variable {store store' : Store} {v w : Value} {keys : List String}

theorem follow_eq_some : Pointer.follow store keys v = some w ↔ Reaches store v keys w := by
  constructor
  · intro h
    induction keys generalizing v with
    | nil =>
        cases h
        exact .here _
    | cons key rest ih =>
        cases v with
        | mapping id =>
            obtain ⟨u, hfound, hrest⟩ := Option.bind_eq_some_iff.1 h
            exact .enter hfound (ih hrest)
        | scalar s | sequence id | typed kind id => cases h
  · intro h
    induction h with
    | here v => rfl
    | enter found _ ih => rw [Pointer.follow, found, Option.bind_some, ih]

theorem RunsOff.enter {id : Nat} {key : String} (hfound : store.find? id key = some v)
    (h : RunsOff store v keys) : RunsOff store (.mapping id) (key :: keys) := by
  obtain ⟨front, next, back, w, rfl, hreaches, hlacks⟩ := h
  exact ⟨key :: front, next, back, w, rfl, .enter hfound hreaches, hlacks⟩

/-- Keys that lead nowhere stop somewhere on their way. -/
theorem runsOff_of_follow (h : Pointer.follow store keys v = none) : RunsOff store v keys := by
  induction keys generalizing v with
  | nil => cases h
  | cons key rest ih =>
      by_cases hlacks : ∀ id, v = .mapping id → store.find? id key = none
      · exact ⟨[], key, rest, v, rfl, .here v, hlacks⟩
      · push Not at hlacks
        obtain ⟨id, rfl, hhas⟩ := hlacks
        obtain ⟨u, hfound⟩ := Option.ne_none_iff_exists'.1 hhas
        rw [Pointer.follow, hfound, Option.bind_some] at h
        exact (ih h).enter hfound

theorem Reaches.unique {u : Value} (h : Reaches store v keys w) (h' : Reaches store v keys u) :
    w = u := by
  rw [← follow_eq_some] at h h'
  exact Option.some.inj (h.symm.trans h')

theorem Reaches.split {back : List String} (h : Reaches store v (keys ++ back) w) :
    ∃ u, Reaches store v keys u ∧ Reaches store u back w := by
  induction keys generalizing v with
  | nil => exact ⟨v, .here v, h⟩
  | cons key rest ih =>
      cases h with
      | enter found hrest =>
          obtain ⟨u, hfront, hback⟩ := ih hrest
          exact ⟨u, .enter found hfront, hback⟩

theorem RunsOff.not_reaches (h : RunsOff store v keys) : ¬ Reaches store v keys w := by
  obtain ⟨front, key, back, u, rfl, hfront, hlacks⟩ := h
  intro hreaches
  obtain ⟨u', hfront', hback⟩ := hreaches.split
  obtain rfl := hfront.unique hfront'
  cases hback with
  | enter found _ => exact absurd (hlacks _ rfl) (by simp [found])

/-- Keys either lead to a value or run off. -/
theorem reaches_iff_not_runsOff : (∃ w, Reaches store v keys w) ↔ ¬ RunsOff store v keys := by
  constructor
  · rintro ⟨w, hreaches⟩ hoff
    exact hoff.not_reaches hreaches
  · intro hon
    cases hfollow : Pointer.follow store keys v with
    | none => exact absurd (runsOff_of_follow hfollow) hon
    | some w => exact ⟨w, follow_eq_some.1 hfollow⟩

/-- Stores in which the same is found under every key are the same to pointers. -/
theorem dereference_congr (hfind : ∀ id key, store'.find? id key = store.find? id key)
    (v document : Value) : dereference store' v document = dereference store v document := by
  have hfollow : ∀ keys v, Pointer.follow store' keys v = Pointer.follow store keys v := by
    intro keys
    induction keys with
    | nil => exact fun _ => rfl
    | cons key rest ih =>
        intro v
        cases v with
        | mapping id =>
            rw [Pointer.follow, Pointer.follow, hfind]
            exact Option.bind_congr fun u _ => ih u
        | scalar s | sequence id | typed kind id => rfl
  cases v with
  | mapping id =>
      have hget : store'.get id "$ref" = store.get id "$ref" :=
        congrArg (·.getD .null) (hfind id "$ref")
      simp only [dereference, resolvePointer, hfollow, hget]
  | scalar s | sequence id | typed kind id => rfl

theorem resolvePointer_text {document : Value} (hkeys : keys ≠ []) :
    resolvePointer store (Pointer.text ⟨keys⟩) document =
      (Pointer.follow store keys document).getD .null := by
  rw [resolvePointer, Pointer.ofText?_text hkeys, Option.bind_some]

/-- The pointer written from keys leads to the value that the keys lead to, and
to nothing if they run off. Either the one or the other is the case. Different
keys are written as different pointers, and each of them, whatever it is made
of, is read back from the way it is written. -/
theorem pointer_leads (store : Store) (document : Value) {keys : List String} (hkeys : keys ≠ []) :
    (∀ v, Reaches store document keys v →
      resolvePointer store (Pointer.text ⟨keys⟩) document = v) ∧
    (RunsOff store document keys →
      resolvePointer store (Pointer.text ⟨keys⟩) document = .null) ∧
    ((∃ v, Reaches store document keys v) ↔ ¬ RunsOff store document keys) ∧
    (∀ keys', keys' ≠ [] → Pointer.text ⟨keys'⟩ = Pointer.text ⟨keys⟩ → keys' = keys) ∧
    ∀ key, Pointer.decode (Pointer.encode key) = key := by
  refine ⟨fun v hreaches => ?_, fun hoff => ?_, reaches_iff_not_runsOff, ?_,
    Pointer.decode_encode⟩
  · rw [resolvePointer_text hkeys, follow_eq_some.2 hreaches, Option.getD_some]
  · rw [resolvePointer_text hkeys]
    cases hfollow : Pointer.follow store keys document with
    | none => rfl
    | some w => exact absurd (follow_eq_some.1 hfollow) hoff.not_reaches
  · exact fun keys' hkeys' => Pointer.text_injective hkeys' hkeys

/-- A document with keys that look like what they are written as: `~1` for a
mapping, `a/b` and the empty one within it. -/
def slashed : Store where
  mappings := #[[(.text "a/b", .bool true), (.text "", .text "empty")],
    [(.text "~1", .mapping 0), (.text "/", .text "slash")]]

/-- The key `~1` is not taken for a slash, and one that is not there ends the
way. -/
theorem pointer_leads_of_slashed :
    Pointer.text ⟨["~1", "a/b"]⟩ = "#/~01/a~1b" ∧
      resolvePointer slashed "#/~01/a~1b" (.mapping 1) = .bool true ∧
      resolvePointer slashed (Pointer.text ⟨["~1", "c", ""]⟩) (.mapping 1) = .null := by
  have htext : Pointer.text ⟨["~1", "a/b"]⟩ = "#/~01/a~1b" := by decide +kernel
  have hfound : Reaches slashed (.mapping 1) ["~1", "a/b"] (.bool true) :=
    .enter rfl (.enter rfl (.here _))
  have hlost : RunsOff slashed (.mapping 1) ["~1", "c", ""] := by
    refine ⟨["~1"], "c", [""], .mapping 0, rfl, .enter rfl (.here _), fun id hid => ?_⟩
    obtain rfl : 0 = id := Value.mapping.inj hid
    rfl
  refine ⟨htext, ?_, ?_⟩
  · rw [← htext]
    exact (pointer_leads slashed (.mapping 1) (by simp)).1 _ hfound
  · exact (pointer_leads slashed (.mapping 1) (by simp)).2.1 hlost

end TypedClient
