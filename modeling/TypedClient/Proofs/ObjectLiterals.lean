import Mathlib.Data.List.Forall2
import TypedClient.Proofs.JsonLexemes

/-!
# Object literals read back

What a tree is as data is defined without a look at any text: `Tree.datum?`.
The question is whether the literal that is written for a mapping denotes the
data that the mapping is.

One way is an induction over the tree: if restyling leaves every leaf as it is,
the reader puts the tree together again. The other way needs no structure. The
reader never forgets a leaf and never makes one up, so the leaves of what it
has read are the tokens one by one, and they are compared with the leaves of
the tree at the same places. That also settles texts that a quote breaks off,
where nobody can say what the rest of the text is taken for: up to there the
places agree, and what has been read at the place of the text is too short.
-/

namespace TypedClient

open Text (apostrophe levels)
open Script JsonText

/-! ## Data -/

/-- The data that a scalar is: an integer is the number equal to it, if there
is one. -/
def Scalar.datum? : Scalar → Option Datum
  | .null => some .null
  | .bool b => some (.bool b)
  | .int n => if (Binary64.ofInt n).toInt? = some n then some (.number (Binary64.ofInt n)) else none
  | .float x => some (.number x)
  | .text s => some (.text (units s.toList))
  | .date _ => none
  | .moment _ => none
  | .bytes _ => none

/-- The key of an object that a key of a mapping is. -/
def Scalar.keyUnits? : Scalar → Option (List Nat)
  | .text s => some (units s.toList)
  | _ => none

mutual

/-- The data that a tree is, if it is data. -/
def Tree.datum? : Tree → Option Datum
  | .scalar s => s.datum?
  | .sequence items => (itemData? items).map .list
  | .mapping entries => (entryData? entries).map .object
  | .typed _ _ => none
  | .sequenceAgain => none
  | .mappingAgain => none
  | .typedAgain _ => none

/-- The data that the items of a sequence are. -/
def Tree.itemData? : List Tree → Option (List Datum)
  | [] => some []
  | t :: rest => do return (← t.datum?) :: (← itemData? rest)

/-- The data that the entries of a mapping are. -/
def Tree.entryData? : List (Scalar × Tree) → Option (List (List Nat × Datum))
  | [] => some []
  | (key, t) :: rest => do return (← key.keyUnits?, ← t.datum?) :: (← entryData? rest)

end

namespace Script

mutual

/-- The keys and the parts without parts of data, in order. -/
def Datum.leaves : Datum → List (Bool × Datum)
  | .list items => itemLeaves items
  | .object entries => entryLeaves entries
  | .null => [(false, .null)]
  | .bool b => [(false, .bool b)]
  | .number x => [(false, .number x)]
  | .text units => [(false, .text units)]

/-- The leaves of the items of a list. -/
def Datum.itemLeaves : List Datum → List (Bool × Datum)
  | [] => []
  | d :: rest => d.leaves ++ itemLeaves rest

/-- The leaves of the entries of an object. -/
def Datum.entryLeaves : List (List Nat × Datum) → List (Bool × Datum)
  | [] => []
  | (key, d) :: rest => (true, .text key) :: d.leaves ++ entryLeaves rest

end

namespace Datum

theorem itemLeaves_concat (items : List Datum) (d : Datum) :
    itemLeaves (items ++ [d]) = itemLeaves items ++ d.leaves := by
  induction items with
  | nil => exact List.append_nil _
  | cons first rest ih => rw [List.cons_append, itemLeaves, itemLeaves, ih, List.append_assoc]

theorem entryLeaves_concat (entries : List (List Nat × Datum)) (key : List Nat) (d : Datum) :
    entryLeaves (entries ++ [(key, d)]) = entryLeaves entries ++ (true, .text key) :: d.leaves := by
  induction entries with
  | nil => exact List.append_nil _
  | cons entry rest ih => rw [List.cons_append, entryLeaves, entryLeaves, ih, List.append_assoc]

end Datum

/-- What a leaf of a tree is as data. -/
def leafDatum? : Bool × Scalar → Option (Bool × Datum)
  | (true, key) => key.keyUnits?.map fun units => (true, .text units)
  | (false, s) => s.datum?.map (false, ·)

end Script

theorem Scalar.leaves_datum {s : Scalar} {d : Datum} (h : s.datum? = some d) :
    d.leaves = [(false, d)] := by
  unfold Scalar.datum? at h
  split at h
  · obtain rfl := Option.some.inj h; rfl
  · obtain rfl := Option.some.inj h; rfl
  · split at h
    · obtain rfl := Option.some.inj h; rfl
    · cases h
  · obtain rfl := Option.some.inj h; rfl
  · obtain rfl := Option.some.inj h; rfl
  · cases h
  · cases h
  · cases h

/-- The leaves of a tree and of the data that it is belong together. -/
theorem Tree.leaves_datum {t : Tree} (h : t.IsJson) {d : Datum} (hd : t.datum? = some d) :
    List.Forall₂ (fun leaf found => leafDatum? leaf = some found) t.leaves d.leaves := by
  induction h generalizing d with
  | scalar h =>
    rw [Tree.datum?] at hd
    rw [Scalar.leaves_datum hd]
    exact .cons (by rw [leafDatum?, hd]; rfl) .nil
  | @sequence items h ih =>
    obtain ⟨found, hfound, rfl⟩ := Option.map_eq_some_iff.1 hd
    show List.Forall₂ _ (itemLeaves items) (Datum.itemLeaves found)
    clear hd h
    induction items generalizing found with
    | nil =>
      obtain rfl := Option.some.inj hfound
      exact .nil
    | cons t rest ihrest =>
      simp only [itemData?, Option.bind_eq_bind, Option.bind_eq_some_iff, Option.pure_def,
        Option.some.injEq] at hfound
      obtain ⟨first, hfirst, others, hothers, rfl⟩ := hfound
      rw [List.forall_mem_cons] at ih
      exact List.rel_append (ih.1 hfirst) (ihrest ih.2 others hothers)
  | @mapping entries hkeys h ih =>
    obtain ⟨found, hfound, rfl⟩ := Option.map_eq_some_iff.1 hd
    show List.Forall₂ _ (entryLeaves entries) (Datum.entryLeaves found)
    clear hd h hkeys
    induction entries generalizing found with
    | nil =>
      obtain rfl := Option.some.inj hfound
      exact .nil
    | cons entry rest ihrest =>
      simp only [entryData?, Option.bind_eq_bind, Option.bind_eq_some_iff, Option.pure_def,
        Option.some.injEq] at hfound
      obtain ⟨key, hkey, first, hfirst, others, hothers, rfl⟩ := hfound
      rw [List.forall_mem_cons] at ih
      refine .cons ?_ (List.rel_append (ih.1 hfirst) (ihrest ih.2 others hothers))
      rw [leafDatum?, hkey]
      rfl

/-! ## What is read, leaf by leaf -/

namespace Script

/-- Whether a token is a key or a value. -/
def Token.isLeaf : Token → Bool
  | .mark _ => false
  | .text _ => true
  | .bare _ => true

/-- What a token that is a key or a value is read as. -/
def Token.Yields : Token → Bool × Datum → Prop
  | .mark _, _ => False
  | .text units, (isKey, d) => d = .text units ∧ (isKey = true → units ≠ prototypeKey)
  | .bare cs, (isKey, d) => isKey = false → scalar? cs = some d

/-- The leaves of the part of a list or an object that has been read. -/
def Frame.leaves : Frame → List (Bool × Datum)
  | .list items => Datum.itemLeaves items
  | .object entries key => Datum.entryLeaves entries ++ [(true, .text key)]

/-- The leaves of frames from the outside in. -/
def frameLeaves : List Frame → List (Bool × Datum)
  | [] => []
  | frame :: frames => frameLeaves frames ++ frame.leaves

namespace Reading

/-- The leaves that have been read. -/
def leaves : Reading → List (Bool × Datum)
  | value frames => frameLeaves frames
  | item items frames => frameLeaves frames ++ Datum.itemLeaves items
  | key entries frames => frameLeaves frames ++ Datum.entryLeaves entries
  | colon entries name frames => frameLeaves frames ++ Datum.entryLeaves entries ++ [(true, .text name)]
  | after d frames => frameLeaves frames ++ d.leaves

/-- A reading goes on to another with the leaf that a token yields, if it is
one. -/
def Grows (token : Token) (earlier later : Reading) : Prop :=
  ∃ found, later.leaves = earlier.leaves ++ found ∧
    List.Forall₂ Token.Yields ([token].filter Token.isLeaf) found

theorem grows_mark {c : Char} {earlier later : Reading} (h : later.leaves = earlier.leaves) :
    Grows (.mark c) earlier later :=
  ⟨[], by rw [h, List.append_nil], .nil⟩

theorem leaves_of_scalar? {cs : List Char} {d : Datum} (h : scalar? cs = some d) :
    d.leaves = [(false, d)] := by
  unfold scalar? at h
  split at h
  · obtain rfl := Option.some.inj h; rfl
  split at h
  · obtain rfl := Option.some.inj h; rfl
  split at h
  · obtain rfl := Option.some.inj h; rfl
  · obtain ⟨x, -, rfl⟩ := Option.map_eq_some_iff.1 h
    rfl

theorem grows_start {frames : List Frame} {token : Token} {next : Reading}
    (h : start frames token = some next) : Grows token (value frames) next := by
  unfold start at h
  split at h
  · split at h
    · obtain rfl := Option.some.inj h
      exact grows_mark (List.append_nil _)
    · split at h
      · obtain rfl := Option.some.inj h
        exact grows_mark (List.append_nil _)
      · cases h
  · obtain rfl := Option.some.inj h
    exact ⟨_, rfl, .cons ⟨rfl, fun hkey => by cases hkey⟩ .nil⟩
  · obtain ⟨d, hd, rfl⟩ := Option.map_eq_some_iff.1 h
    refine ⟨[(false, d)], ?_, .cons (fun _ => hd) .nil⟩
    rw [← leaves_of_scalar? hd]
    rfl

/-- A mark that is waited for adds no leaf, and without it the reading grows as it does
otherwise. -/
theorem grows_of_mark {c : Char} {token : Token} {earlier taken next : Reading}
    {others : Option Reading} (h : (if token = .mark c then some taken else others) = some next)
    (htaken : taken.leaves = earlier.leaves) (hothers : others = some next → Grows token earlier next) :
    Grows token earlier next := by
  split at h
  · next hmark =>
      obtain rfl := Option.some.inj h
      rw [hmark]
      exact grows_mark htaken
  · exact hothers h

theorem grows_key {entries : List (List Nat × Datum)} {frames : List Frame} {token : Token}
    {next : Reading} (h : (key entries frames).step token = some next) :
    Grows token (key entries frames) next := by
  cases token with
  | mark c =>
      rw [step] at h
      split at h
      · obtain rfl := Option.some.inj h
        exact grows_mark rfl
      · cases h
  | text name =>
      rw [step] at h
      split at h
      · cases h
      · next hname =>
          obtain rfl := Option.some.inj h
          exact ⟨_, rfl, .cons ⟨rfl, fun _ => hname⟩ .nil⟩
  | bare cs =>
      rw [step] at h
      split at h
      · obtain rfl := Option.some.inj h
        exact ⟨_, rfl, .cons (fun hkey => by cases hkey) .nil⟩
      · cases h

theorem grows_step {reading next : Reading} {token : Token} (h : reading.step token = some next) :
    Grows token reading next := by
  cases reading with
  | value frames => exact grows_start h
  | item items frames => exact grows_of_mark h rfl grows_start
  | key entries frames => exact grows_key h
  | colon entries name frames =>
      refine grows_of_mark h ?_ nofun
      simp [leaves, frameLeaves, Frame.leaves]
  | after d frames =>
      cases frames with
      | nil => cases h
      | cons frame frames =>
          cases frame with
          | list items =>
              have hitems : frameLeaves frames ++ Datum.itemLeaves (items ++ [d]) =
                  (after d (.list items :: frames)).leaves := by
                rw [Datum.itemLeaves_concat, ← List.append_assoc]
                rfl
              exact grows_of_mark h hitems fun h => grows_of_mark h hitems nofun
          | object entries name =>
              have hentries : frameLeaves frames ++ Datum.entryLeaves (entries ++ [(name, d)]) =
                  (after d (.object entries name :: frames)).leaves := by
                simp [Datum.entryLeaves_concat, leaves, frameLeaves, Frame.leaves]
              exact grows_of_mark h hentries fun h => grows_of_mark h hentries nofun

/-- What a run has read are its tokens, leaf by leaf. -/
theorem leaves_run {reading final : Reading} {tokens : List Token}
    (h : reading.run tokens = some final) :
    ∃ found, final.leaves = reading.leaves ++ found ∧
      List.Forall₂ Token.Yields (tokens.filter Token.isLeaf) found := by
  induction tokens generalizing reading with
  | nil =>
    obtain rfl := Option.some.inj h
    exact ⟨[], (List.append_nil _).symm, .nil⟩
  | cons token tokens ih =>
    obtain ⟨next, hstep, hrun⟩ := Option.bind_eq_some_iff.1 h
    obtain ⟨first, hfirst, hyields⟩ := grows_step hstep
    obtain ⟨others, hothers, hrest⟩ := ih hrun
    refine ⟨first ++ others, by rw [hothers, hfirst, List.append_assoc], ?_⟩
    have hsplit : (token :: tokens).filter Token.isLeaf =
        [token].filter Token.isLeaf ++ tokens.filter Token.isLeaf := by
      rw [← List.filter_append, List.singleton_append]
    rw [hsplit]
    exact List.rel_append hyields hrest

/-- The leaves of what a text denotes are its tokens. -/
theorem leaves_of_complete {tokens : List Token} {d : Datum}
    (h : ((value []).run tokens).bind complete? = some d) :
    List.Forall₂ Token.Yields (tokens.filter Token.isLeaf) d.leaves := by
  obtain ⟨final, hrun, hcomplete⟩ := Option.bind_eq_some_iff.1 h
  obtain ⟨found, hfound, hyields⟩ := leaves_run hrun
  unfold complete? at hcomplete
  split at hcomplete
  · obtain rfl := Option.some.inj hcomplete
    have hsame : found = Datum.leaves _ := hfound.symm
    rwa [← hsame]
  · cases hcomplete

end Reading

/-! ## Putting a tree together again -/

/-- A leaf that restyling and reading leave as it is: a plain text that is not
taken for the prototype of an object, an integer that a number equals, or any
other scalar. -/
def Legible (unit : List Char) : Bool × Scalar → Prop
  | (isKey, .text s) => Plain unit s.toList ∧ (isKey = true → s ≠ "__proto__")
  | (_, .int n) => (Binary64.ofInt n).toInt? = some n
  | _ => True

/-- The tokens that the lexemes of a tree become. -/
def treeTokens (unit : List Char) (depth : Nat) (t : Tree) : List Token :=
  (Lexeme.ofTree depth t).flatMap (Lexeme.tokens unit)

namespace Reading

theorem run_of_step {reading next : Reading} {token : Token} (h : reading.step token = some next)
    (rest : List Token) : reading.run (token :: rest) = next.run rest := by
  rw [run, h]
  rfl

/-- Tokens are read as a value, whether as an item of a list or otherwise. -/
structure Parses (tokens : List Token) (d : Datum) : Prop where
  value : ∀ frames rest, (value frames).run (tokens ++ rest) = (after d frames).run rest
  item : ∀ items frames rest,
    (item items frames).run (tokens ++ rest) = (after d (.list items :: frames)).run rest

/-- Only the end of the list makes a difference between an item and a value. -/
theorem Parses.of_value {token : Token} {more : List Token} {d : Datum} (h : token ≠ .mark ']')
    (hvalue : ∀ frames rest,
      (Reading.value frames).run (token :: more ++ rest) = (after d frames).run rest) :
    Parses (token :: more) d where
  value := hvalue
  item items frames rest := by
    rw [← hvalue]
    show ((Reading.item items frames).step token).bind _ = _
    rw [step, if_neg h]
    rfl

/-- A text that is plain is read as it is. -/
theorem leafToken_plain {unit : List Char} {s : String} (h : Plain unit s.toList) :
    leafToken unit (.text s) = .text (units s.toList) := by
  rw [leafToken, h.restyledText_eq]

/-- A legible scalar is read as the data that it is. -/
theorem parses_scalar {unit : List Char} {s : Scalar} (h : s.IsJson) (hlegible : Legible unit (false, s)) :
    ∃ d, s.datum? = some d ∧ Parses [leafToken unit s] d := by
  have hbare : ∀ {cs : List Char} {d : Datum}, scalar? cs = some d → Parses [.bare cs] d := by
    intro cs d hread
    refine .of_value nofun fun frames rest => ?_
    refine run_of_step ?_ rest
    rw [step, start, hread]
    rfl
  cases h with
  | null => exact ⟨_, rfl, hbare rfl⟩
  | bool b => exact ⟨_, rfl, by cases b <;> exact hbare rfl⟩
  | int n =>
    have hexact : (Binary64.ofInt n).toInt? = some n := hlegible
    exact ⟨_, if_pos hexact, hbare (scalar?_of_number? (number?_signedString n))⟩
  | float negative h =>
    exact ⟨_, rfl, hbare (scalar?_of_number? (number?_finiteText negative h))⟩
  | text s =>
    refine ⟨_, rfl, ?_⟩
    rw [leafToken_plain hlegible.1]
    exact .of_value nofun fun frames rest => run_of_step rfl rest

/-- A legible key is read as the key that it is. -/
theorem run_key {unit : List Char} {s : String} (hlegible : Legible unit (true, .text s))
    {tokens : List Token} {d : Datum} (h : Parses tokens d) (entries : List (List Nat × Datum))
    (frames : List Frame) (rest : List Token) :
    (key entries frames).run (leafToken unit (.text s) :: .mark ':' :: tokens ++ rest) =
      (after d (.object entries (units s.toList) :: frames)).run rest := by
  have hsmall : ∀ c ∈ "__proto__".toList, c.toNat < 0xd800 := by simp
  have hname : units s.toList ≠ prototypeKey := fun heq =>
    hlegible.2 rfl (String.toList_injective (eq_of_units hsmall heq.symm).symm)
  have hkey : (key entries frames).step (.text (units s.toList)) =
      some (colon entries (units s.toList) frames) := if_neg hname
  have hcolon : (colon entries (units s.toList) frames).step (.mark ':') =
      some (value (.object entries (units s.toList) :: frames)) := rfl
  rw [leafToken_plain hlegible.1, List.cons_append, List.cons_append, run_of_step hkey,
    run_of_step hcolon, h.value]

/-- The tokens of items after the first one, and the end of the list. -/
theorem run_items {unit : List Char} {depth : Nat} {items : List Tree}
    (h : ∀ t ∈ items, ∃ d, t.datum? = some d ∧ Parses (treeTokens unit depth t) d) :
    ∃ found, Tree.itemData? items = some found ∧ ∀ earlier d frames rest,
      (after d (.list earlier :: frames)).run
          (items.flatMap (fun t => .mark ',' :: treeTokens unit depth t) ++ .mark ']' :: rest) =
        (after (.list (earlier ++ d :: found)) frames).run rest := by
  induction items with
  | nil => exact ⟨[], rfl, fun earlier d frames rest => run_of_step rfl rest⟩
  | cons t items ih =>
    rw [List.forall_mem_cons] at h
    obtain ⟨⟨first, hfirst, hparses⟩, hitems⟩ := h
    obtain ⟨others, hothers, hrun⟩ := ih hitems
    refine ⟨first :: others, by rw [Tree.itemData?, hfirst, hothers]; rfl, ?_⟩
    intro earlier d frames rest
    have hcomma : (after d (.list earlier :: frames)).step (.mark ',') =
        some (item (earlier ++ [d]) frames) := rfl
    rw [List.flatMap_cons, List.cons_append, List.cons_append, run_of_step hcomma,
      List.append_assoc, hparses.item, hrun, List.append_assoc, List.singleton_append]

/-- The tokens of entries after the first one, and the end of the object. -/
theorem run_entries {unit : List Char} {depth : Nat} {entries : List (Scalar × Tree)}
    (hkeys : ∀ entry ∈ entries, ∃ s, entry.1 = .text s ∧ Legible unit (true, .text s))
    (h : ∀ entry ∈ entries,
      ∃ d, entry.2.datum? = some d ∧ Parses (treeTokens unit depth entry.2) d) :
    ∃ found, Tree.entryData? entries = some found ∧ ∀ earlier name d frames rest,
      (after d (.object earlier name :: frames)).run
          (entries.flatMap (fun entry => .mark ',' ::
            leafToken unit entry.1 :: .mark ':' :: treeTokens unit depth entry.2) ++
              .mark '}' :: rest) =
        (after (.object (earlier ++ (name, d) :: found)) frames).run rest := by
  induction entries with
  | nil => exact ⟨[], rfl, fun earlier name d frames rest => run_of_step rfl rest⟩
  | cons entry entries ih =>
    obtain ⟨name, t⟩ := entry
    rw [List.forall_mem_cons] at hkeys h
    obtain ⟨⟨s, rfl, hlegible⟩, hkeys⟩ := hkeys
    obtain ⟨⟨first, hfirst, hparses⟩, hentries⟩ := h
    obtain ⟨others, hothers, hrun⟩ := ih hkeys hentries
    refine ⟨(units s.toList, first) :: others,
      by rw [Tree.entryData?, hfirst, hothers]; rfl, ?_⟩
    intro earlier name d frames rest
    have hcomma : (after d (.object earlier name :: frames)).step (.mark ',') =
        some (Reading.key (earlier ++ [(name, d)]) frames) := rfl
    have hentry := run_key hlegible hparses (earlier ++ [(name, d)]) frames
    rw [List.flatMap_cons, List.append_assoc]
    show (after d (.object earlier name :: frames)).run (.mark ',' :: (_ ++ _)) = _
    rw [run_of_step hcomma, hentry, hrun, List.append_assoc, List.singleton_append]

theorem tokens_enclose (unit : List Char) (depth : Nat) (opening closing : Char)
    (first : List Lexeme) (rest : List (List Lexeme)) :
    (Lexeme.enclose depth opening closing (first :: rest)).flatMap (Lexeme.tokens unit) =
      .mark opening :: (first.flatMap (Lexeme.tokens unit) ++
        (rest.flatMap (fun element => .mark ',' :: element.flatMap (Lexeme.tokens unit)) ++
          [.mark closing])) := by
  simp [Lexeme.enclose, Lexeme.tokens, List.flatMap_assoc]

theorem parses_sequence {unit : List Char} {depth : Nat} {items : List Tree}
    (h : ∀ t ∈ items, ∃ d, t.datum? = some d ∧ Parses (treeTokens unit (depth + 1) t) d) :
    ∃ d, (Tree.sequence items).datum? = some d ∧
      Parses (treeTokens unit depth (.sequence items)) d := by
  cases items with
  | nil =>
    exact ⟨_, rfl, .of_value nofun fun frames rest =>
      (run_of_step rfl _).trans (run_of_step rfl _)⟩
  | cons t items =>
    rw [List.forall_mem_cons] at h
    obtain ⟨⟨first, hfirst, hparses⟩, hitems⟩ := h
    obtain ⟨others, hothers, hrun⟩ := run_items hitems
    have htokens : treeTokens unit depth (.sequence (t :: items)) =
        .mark '[' :: (treeTokens unit (depth + 1) t ++
          (items.flatMap (fun t => .mark ',' :: treeTokens unit (depth + 1) t) ++ [.mark ']'])) := by
      rw [treeTokens, Lexeme.ofTree, Lexeme.ofItems, tokens_enclose, Lexeme.ofItems_eq,
        List.flatMap_map]
      rfl
    refine ⟨.list (first :: others), by rw [Tree.datum?, Tree.itemData?, hfirst, hothers]; rfl, ?_⟩
    rw [htokens]
    refine .of_value nofun fun frames rest => ?_
    have hopen : (value frames).step (.mark '[') = some (item [] frames) := rfl
    rw [List.cons_append, run_of_step hopen, List.append_assoc, hparses.item, List.append_assoc,
      List.singleton_append, hrun]
    rfl

theorem parses_mapping {unit : List Char} {depth : Nat} {entries : List (Scalar × Tree)}
    (hkeys : ∀ entry ∈ entries, ∃ s, entry.1 = .text s ∧ Legible unit (true, .text s))
    (h : ∀ entry ∈ entries,
      ∃ d, entry.2.datum? = some d ∧ Parses (treeTokens unit (depth + 1) entry.2) d) :
    ∃ d, (Tree.mapping entries).datum? = some d ∧
      Parses (treeTokens unit depth (.mapping entries)) d := by
  cases entries with
  | nil =>
    exact ⟨_, rfl, .of_value nofun fun frames rest =>
      (run_of_step rfl _).trans (run_of_step rfl _)⟩
  | cons entry entries =>
    obtain ⟨name, t⟩ := entry
    rw [List.forall_mem_cons] at hkeys h
    obtain ⟨⟨s, rfl, hlegible⟩, hkeys⟩ := hkeys
    obtain ⟨⟨first, hfirst, hparses⟩, hentries⟩ := h
    obtain ⟨others, hothers, hrun⟩ := run_entries hkeys hentries
    have htokens : treeTokens unit depth (.mapping ((.text s, t) :: entries)) =
        .mark '{' :: ((leafToken unit (.text s) :: .mark ':' :: treeTokens unit (depth + 1) t) ++
          (entries.flatMap (fun entry => .mark ',' ::
            leafToken unit entry.1 :: .mark ':' :: treeTokens unit (depth + 1) entry.2) ++
              [.mark '}'])) := by
      rw [treeTokens, Lexeme.ofTree, Lexeme.ofEntries, tokens_enclose, Lexeme.ofEntries_eq,
        List.flatMap_map]
      rfl
    refine ⟨.object ((units s.toList, first) :: others),
      by rw [Tree.datum?, Tree.entryData?, hfirst, hothers]; rfl, ?_⟩
    rw [htokens]
    refine .of_value nofun fun frames rest => ?_
    have hopen : (value frames).step (.mark '{') = some (Reading.key [] frames) := rfl
    rw [List.cons_append, run_of_step hopen, List.append_assoc, run_key hlegible hparses,
      List.append_assoc, List.singleton_append, hrun]
    rfl

/-- A tree with legible leaves is read as the data that it is. -/
theorem parses_tree {unit : List Char} {t : Tree} (h : t.IsJson)
    (hlegible : ∀ leaf ∈ t.leaves, Legible unit leaf) (depth : Nat) :
    ∃ d, t.datum? = some d ∧ Parses (treeTokens unit depth t) d := by
  induction h generalizing depth with
  | scalar h => exact parses_scalar h (hlegible _ (List.mem_singleton_self _))
  | sequence _ ih =>
    exact parses_sequence fun t ht =>
      ih t ht (fun leaf hleaf => hlegible leaf (Tree.mem_itemLeaves ht hleaf)) _
  | mapping hkeys _ ih =>
    refine parses_mapping (fun entry hentry => ?_) fun entry hentry => ?_
    · obtain ⟨s, hs⟩ := hkeys entry hentry
      have hmem := Tree.mem_entryLeaves hentry (List.mem_cons_self ..)
      rw [hs] at hmem
      exact ⟨s, hs, hlegible _ hmem⟩
    · exact ih entry hentry (fun leaf hleaf =>
        hlegible leaf (Tree.mem_entryLeaves hentry (List.mem_cons_of_mem _ hleaf))) _

end Reading

/-! ## Comparing leaf by leaf -/

theorem forall₂_middle {α β γ : Type} {R : α → γ → Prop} {S : β → γ → Prop} {before rest : List α}
    {x : α} {before' rest' : List β} {y : β} {found : List γ}
    (hR : List.Forall₂ R (before ++ x :: rest) found)
    (hS : List.Forall₂ S (before' ++ y :: rest') found) (h : before.length = before'.length) :
    ∃ z, R x z ∧ S y z := by
  induction before generalizing before' found with
  | nil =>
    obtain rfl := List.length_eq_zero_iff.1 h.symm
    cases hR with
    | cons hx _ =>
      cases hS with
      | cons hy _ => exact ⟨_, hx, hy⟩
  | cons first before ih =>
    cases before' with
    | nil => cases h
    | cons first' before' =>
      cases hR with
      | cons _ hR =>
        cases hS with
        | cons _ hS => exact ih hR hS (Nat.succ.inj h)

/-- The tokens of lexemes that are keys or values are those of the leaves. -/
theorem filter_tokens (unit : List Char) (lexemes : List Lexeme) :
    (lexemes.flatMap (Lexeme.tokens unit)).filter Token.isLeaf =
      (lexemes.filterMap Lexeme.leaf?).map fun leaf => leafToken unit leaf.2 := by
  induction lexemes with
  | nil => rfl
  | cons l lexemes ih =>
    rw [List.flatMap_cons, List.filter_append, ih]
    cases l with
    | leaf isKey s =>
      have htoken : (leafToken unit s).isLeaf = true := by cases s <;> rfl
      rw [Lexeme.tokens, List.filter_cons_of_pos htoken]
      rfl
    | _ => rfl

/-- What is known of the tokens of restyled lexemes: either each lexeme is taken
for what it is, or so it is up to a text that a quote breaks off. -/
theorem tokens_of_scan {unit : List Char} (hunit : unit ∈ levels) {lexemes : List Lexeme}
    (h : ∀ l ∈ lexemes, l.Proper) (hapart : lexemes.IsChain Lexeme.Apart) {tokens : List Token}
    (hscan : Scanner.between.scan (lexemes.flatMap (Lexeme.restyled unit)) = some tokens) :
    ((∀ l ∈ lexemes, l.isBroken = false) ∧ tokens = lexemes.flatMap (Lexeme.tokens unit)) ∨
      ∃ before isKey s rest front back more, lexemes = before ++ .leaf isKey (.text s) :: rest ∧
        s.toList = front ++ apostrophe :: back ∧
        tokens = before.flatMap (Lexeme.tokens unit) ++ .text (units (restyledText unit front)) :: more := by
  cases hfind : lexemes.find? Lexeme.isBroken with
  | none =>
    have hwhole : ∀ l ∈ lexemes, l.isBroken = false := by
      simpa using hfind
    refine .inl ⟨hwhole, ?_⟩
    have hall := Lexeme.scan_lexemes hunit h hapart hwhole [] (by simp)
    rw [List.append_nil, hscan] at hall
    simpa [Scanner.scan] using hall
  | some l =>
    obtain ⟨hbroken, before, rest, rfl, hbefore⟩ := List.find?_eq_some_iff_append.1 hfind
    obtain ⟨isKey, s, rfl⟩ : ∃ isKey s, l = .leaf isKey (.text s) := by
      unfold Lexeme.isBroken at hbroken
      split at hbroken
      · exact ⟨_, _, rfl⟩
      · cases hbroken
    have hquote : apostrophe ∈ s.toList := List.contains_iff_mem.1 hbroken
    obtain ⟨front, back, hs, hfront⟩ := List.eq_append_cons_of_mem hquote
    have hsplit : (before ++ Lexeme.leaf isKey (.text s) :: rest).flatMap (Lexeme.restyled unit) =
        before.flatMap (Lexeme.restyled unit) ++
          (apostrophe :: restyledBody unit front ++ apostrophe :: (restyledBody unit back ++
            apostrophe :: rest.flatMap (Lexeme.restyled unit))) := by
      rw [List.flatMap_append, List.flatMap_cons, Lexeme.restyled, hs, restyledBody_quote]
      simp
    rw [hsplit, Lexeme.scan_lexemes hunit (fun l hl => h l (List.mem_append_left _ hl))
      (List.isChain_append.1 hapart).1 (by simpa using hbefore) _ (by rintro c ⟨⟩; decide),
      scan_text (blank_of_mem_level hunit) hfront, Option.map_map] at hscan
    obtain ⟨more, -, rfl⟩ := Option.map_eq_some_iff.1 hscan
    exact .inr ⟨before, isKey, s, rest, front, back, more, rfl, hs, rfl⟩

/-- A leaf is legible if its token is read as the data that it is. -/
theorem legible_of_yields {unit : List Char} (hunit : unit ∈ levels) {leaf : Bool × Scalar}
    {found : Bool × Datum} (hproper : (Lexeme.leaf leaf.1 leaf.2).Proper)
    (hwhole : (Lexeme.leaf leaf.1 leaf.2).isBroken = false) (hdatum : leafDatum? leaf = some found)
    (hyields : (leafToken unit leaf.2).Yields found) : Legible unit leaf := by
  obtain ⟨isKey, s⟩ := leaf
  obtain ⟨hjson, hkey⟩ := hproper
  cases hjson with
  | null => exact trivial
  | bool b => exact trivial
  | int n =>
    cases isKey with
    | true =>
      obtain ⟨_, htext⟩ := hkey rfl
      cases htext
    | false =>
      obtain ⟨d, hd, -⟩ := Option.map_eq_some_iff.1 hdatum
      unfold Scalar.datum? at hd
      dsimp only at hd
      split at hd
      · assumption
      · cases hd
  | float negative h => exact trivial
  | text s =>
    have hfound : found = (isKey, .text (units s.toList)) := by
      cases isKey <;> exact (Option.some.inj hdatum).symm
    subst hfound
    obtain ⟨htext, hname⟩ := hyields
    have hquote : apostrophe ∉ s.toList := by simpa [Lexeme.isBroken] using hwhole
    have hplain := plain_of_restyledText hunit hquote (Datum.text.inj htext).symm
    refine ⟨hplain, fun hkey hs => hname hkey ?_⟩
    rw [hplain.restyledText_eq, hs, prototypeKey]

/-- Legible texts are not broken off. -/
theorem whole_of_legible {unit : List Char} {t : Tree} (h : t.IsJson)
    (hlegible : ∀ leaf ∈ t.leaves, Legible unit leaf) (depth : Nat) :
    ∀ l ∈ Lexeme.ofTree depth t, l.isBroken = false := by
  intro l hl
  unfold Lexeme.isBroken
  split
  · next isKey s =>
      have hleaf : (isKey, Scalar.text s) ∈ t.leaves := by
        rw [← Lexeme.leaves_ofTree h depth]
        exact List.mem_filterMap.2 ⟨_, hl, rfl⟩
      exact Bool.eq_false_iff.2 fun hquote =>
        (hlegible _ hleaf).1.single (List.contains_iff_mem.1 hquote)
  · rfl

/-- A tree of which the literal is read as the data that the tree is has only
legible leaves. -/
theorem legible_of_read {unit : List Char} (hunit : unit ∈ levels) {t : Tree} (h : t.IsJson)
    {depth : Nat} {d : Datum} {tokens : List Token} (hd : t.datum? = some d)
    (hscan : Scanner.between.scan ((Lexeme.ofTree depth t).flatMap (Lexeme.restyled unit)) =
      some tokens)
    (hread : ((Reading.value []).run tokens).bind Reading.complete? = some d) :
    ∀ leaf ∈ t.leaves, Legible unit leaf := by
  have hleaves := Tree.leaves_datum h hd
  have hyields := Reading.leaves_of_complete hread
  have hproper := Lexeme.proper_ofTree h depth
  rw [← Lexeme.leaves_ofTree h depth] at hleaves ⊢
  rcases tokens_of_scan hunit hproper (Lexeme.apart_ofTree h depth) hscan with
    ⟨hwhole, rfl⟩ | ⟨before, isKey, s, rest, front, back, more, hsplit, hs, rfl⟩
  · intro leaf hleaf
    obtain ⟨l, hl, hl'⟩ := List.mem_filterMap.1 hleaf
    obtain rfl : l = .leaf leaf.1 leaf.2 := by
      cases l with
      | leaf isKey s => obtain rfl := Option.some.inj hl'; rfl
      | _ => cases hl'
    obtain ⟨before, rest, hsplit⟩ := List.append_of_mem hleaf
    rw [filter_tokens, hsplit, List.map_append, List.map_cons] at hyields
    rw [hsplit] at hleaves
    obtain ⟨found, hdatum, hfound⟩ := forall₂_middle hleaves hyields (List.length_map _).symm
    exact legible_of_yields hunit (hproper _ hl) (hwhole _ hl) hdatum hfound
  · have hleaf : (Lexeme.leaf isKey (.text s)).leaf? = some (isKey, .text s) := rfl
    rw [hsplit, List.filterMap_append, List.filterMap_cons_some hleaf] at hleaves
    rw [List.filter_append, filter_tokens, List.filter_cons_of_pos rfl] at hyields
    obtain ⟨found, hdatum, hfound⟩ := forall₂_middle hleaves hyields (List.length_map _).symm
    have htext : found.2 = .text (units s.toList) := by
      cases isKey <;> exact congrArg Prod.snd (Option.some.inj hdatum).symm
    obtain ⟨hread, -⟩ := hfound
    have hsame := Datum.text.inj (htext.symm.trans hread)
    rw [hs] at hsame
    exact absurd hsame.symm (units_restyledText_ne hunit front back)

end Script

theorem Formatting.unit_mem_levels (options : ClientOptions) (store : Store) :
    (options.formatting store).unit.toList ∈ levels := by
  unfold ClientOptions.formatting
  dsimp only
  cases options.indent <;> decide

theorem Tree.isJson_present {entries : List (Scalar × Tree)} (h : (Tree.mapping entries).IsJson) :
    (Tree.mapping (entries.filter fun (_, t) => !t.isNull)).IsJson := by
  cases h with
  | mapping hkeys h =>
    exact .mapping (fun entry hentry => hkeys entry (List.mem_of_mem_filter hentry))
      fun entry hentry => h entry (List.mem_of_mem_filter hentry)

/-- For a mapping that JSON has, an object literal is written, and it denotes
the data that the present entries are exactly if their leaves are legible. -/
theorem objectLiteral_reads_back (options : ClientOptions) (store : Store)
    {entries : List (Scalar × Tree)} (h : (Tree.mapping entries).IsJson) :
    let format := options.formatting store
    let view := Tree.mapping (entries.filter fun (_, t) => !t.isNull)
    ∃ text, format.objectLiteral entries = .ok text ∧
      ((∃ d, view.datum? = some d ∧ Script.read text = some d) ↔
        ∀ leaf ∈ view.leaves, Legible format.unit.toList leaf) := by
  intro format view
  have hunit := Formatting.unit_mem_levels options store
  have hview : view.IsJson := Tree.isJson_present h
  have hliteral : format.objectLiteral entries =
      .ok (format.restyle (textOf (Lexeme.ofTree 0 view))) := by
    rw [Formatting.objectLiteral, Tree.jsonIndented, render_eq hview]
    rfl
  have htext := Lexeme.restyle_eq format (Lexeme.proper_ofTree hview 0)
  refine ⟨_, hliteral, ⟨?_, ?_⟩⟩
  · rintro ⟨d, hd, hread⟩
    rw [Script.read, htext] at hread
    obtain ⟨tokens, hscan, hread⟩ := Option.bind_eq_some_iff.1 hread
    exact legible_of_read hunit hview hd hscan hread
  · intro hlegible
    obtain ⟨d, hd, hparses⟩ := Reading.parses_tree hview hlegible 0
    have hscan := Lexeme.scan_lexemes hunit (Lexeme.proper_ofTree hview 0)
      (Lexeme.apart_ofTree hview 0) (whole_of_legible hview hlegible 0) [] (by simp)
    have hrun := hparses.value [] []
    rw [List.append_nil] at hscan hrun
    refine ⟨d, hd, ?_⟩
    rw [Script.read, htext, hscan, Scanner.scan, Option.map_some, List.append_nil, Option.bind_some]
    exact congrArg (·.bind Reading.complete?) hrun

/-- An entry without a value is left out, and the others are read as they are. -/
theorem objectLiteral_reads_back_of_pet :
    let entries : List (Scalar × Tree) := [(.text "path", .text "/pets"), (.text "summary", .null),
      (.text "tags", .sequence [.text "pet", .scalar (.int 2)])]
    let view := Tree.mapping (entries.filter fun (_, t) => !t.isNull)
    (Tree.mapping entries).IsJson ∧
      ∃ text, (ClientOptions.formatting {} {}).objectLiteral entries = .ok text ∧
        ∃ d, view.datum? = some d ∧ Script.read text = some d := by
  intro entries view
  have hentries : (Tree.mapping entries).IsJson := by
    refine .mapping (by simp [entries]) ?_
    simp only [entries, List.forall_mem_cons]
    refine ⟨.scalar (.text _), .scalar .null, .sequence ?_, nofun⟩
    simp only [List.forall_mem_cons]
    exact ⟨.scalar (.text _), .scalar (.int _), nofun⟩
  obtain ⟨text, htext, hiff⟩ := objectLiteral_reads_back {} {} hentries
  refine ⟨hentries, text, htext, hiff.2 ?_⟩
  have hplain : ∀ s ∈ ["path", "/pets", "tags", "pet"],
      Plain (ClientOptions.formatting {} {}).unit.toList s.toList ∧ s ≠ "__proto__" := by
    intro s hs
    have hnone : apostrophe ∉ s.toList ∧ Text.doubleQuote ∉ s.toList ∧ s ≠ "__proto__" := by
      revert s
      decide +kernel
    exact ⟨⟨hnone.1, hnone.2.1, .inl rfl⟩, hnone.2.2⟩
  have hleaves : view.leaves = [(true, .text "path"), (false, .text "/pets"), (true, .text "tags"),
      (false, .text "pet"), (false, .int 2)] := rfl
  rw [hleaves]
  simp only [List.forall_mem_cons]
  have hpath := hplain "path" (by simp)
  have htags := hplain "tags" (by simp)
  exact ⟨⟨hpath.1, fun _ => hpath.2⟩, ⟨(hplain "/pets" (by simp)).1, nofun⟩,
    ⟨htags.1, fun _ => htags.2⟩, ⟨(hplain "pet" (by simp)).1, nofun⟩, rfl, nofun⟩

/-- A single quote within a text ends it, and then the line is no literal. -/
theorem objectLiteral_broken_by_quote :
    let entries : List (Scalar × Tree) := [(.text "a", .text "it's")]
    let text := "\x7b\n  'a': 'it's'\n\x7d"
    (ClientOptions.formatting {} {}).objectLiteral entries = .ok text ∧
      Script.read text = none ∧ (Tree.mapping entries).datum?.isSome = true := by
  refine ⟨rfl, Option.isNone_iff_eq_none.1 ?_, rfl⟩
  decide +kernel

end TypedClient
