import Mathlib.Data.Bool.AllAny
import Mathlib.Data.List.Chain
import TypedClient.Proofs.NameCharacters
import TypedClient.Proofs.NumberText
import TypedClient.Proofs.TextTokens

/-!
# JSON as a sequence of lexemes

Indented JSON is cut into lexemes: brackets and commas, the colon with the
blank after it, line breaks with the indentation after them, and leaves, which
are keys and scalars. The cut suits both ends. `render` puts out the text of
the lexemes one after the other, and `restyle` works on each lexeme on its own,
since none starts with a blank. So restyled JSON is a sequence of restyled
lexemes, and the scanner takes each of them for what it is, up to a text with a
single quote in it.
-/

namespace TypedClient

open Text (apostrophe doubleQuote levels reindent)
open Script

/-! ## Values that JSON has -/

/-- A scalar that JSON text has: a number is finite, with the representation
that reading gives. -/
inductive Scalar.IsJson : Scalar → Prop
  | null : IsJson .null
  | bool (b : Bool) : IsJson (.bool b)
  | int (n : Int) : IsJson (.int n)
  | float (negative : Bool) {m : Nat} {e : Int} (h : Binary64.Canonical m e) :
      IsJson (.float (.finite negative m e))
  | text (s : String) : IsJson (.text s)

/-- A tree that JSON text has: keys are texts, and no part contains itself. -/
inductive Tree.IsJson : Tree → Prop
  | scalar {s : Scalar} (h : s.IsJson) : IsJson (.scalar s)
  | sequence {items : List Tree} (h : ∀ t ∈ items, IsJson t) : IsJson (.sequence items)
  | mapping {entries : List (Scalar × Tree)} (hkeys : ∀ entry ∈ entries, ∃ s, entry.1 = .text s)
      (h : ∀ entry ∈ entries, IsJson entry.2) : IsJson (.mapping entries)

mutual

/-- The keys and scalars of a tree in order, each with whether it is a key. -/
def Tree.leaves : Tree → List (Bool × Scalar)
  | .scalar s => [(false, s)]
  | .sequence items => itemLeaves items
  | .mapping entries => entryLeaves entries
  | _ => []

/-- The keys and scalars of the items of a sequence. -/
def Tree.itemLeaves : List Tree → List (Bool × Scalar)
  | [] => []
  | t :: rest => t.leaves ++ itemLeaves rest

/-- The keys and scalars of the entries of a mapping. -/
def Tree.entryLeaves : List (Scalar × Tree) → List (Bool × Scalar)
  | [] => []
  | (key, t) :: rest => (true, key) :: t.leaves ++ entryLeaves rest

end

namespace Tree

theorem mem_itemLeaves {items : List Tree} {t : Tree} (ht : t ∈ items) {leaf : Bool × Scalar}
    (h : leaf ∈ t.leaves) : leaf ∈ itemLeaves items := by
  induction items with
  | nil => cases ht
  | cons first items ih =>
    rw [itemLeaves, List.mem_append]
    rcases List.mem_cons.1 ht with rfl | ht
    · exact .inl h
    · exact .inr (ih ht)

theorem mem_entryLeaves {entries : List (Scalar × Tree)} {entry : Scalar × Tree}
    (hentry : entry ∈ entries) {leaf : Bool × Scalar} (h : leaf ∈ (true, entry.1) :: entry.2.leaves) :
    leaf ∈ entryLeaves entries := by
  induction entries with
  | nil => cases hentry
  | cons first entries ih =>
    rw [entryLeaves, List.mem_append]
    rcases List.mem_cons.1 hentry with rfl | hentry
    · exact .inl h
    · exact .inr (ih hentry)

end Tree

namespace JsonText

/-! ## Lexemes -/

/-- A piece of indented JSON. -/
inductive Lexeme where
  | mark (c : Char)
  | colon
  | gap (depth : Nat)
  | leaf (isKey : Bool) (s : Scalar)

/-- The characters of a scalar in JSON, if it has any. -/
def scalarChars (s : Scalar) : List Char :=
  match scalar s with
  | .ok text => text.toList
  | .error _ => []

namespace Lexeme

/-- The characters of a lexeme. -/
def chars : Lexeme → List Char
  | mark c => [c]
  | colon => [':', ' ']
  | gap depth => (lineBreak depth).toList
  | leaf _ s => scalarChars s

/-- The key or scalar that a lexeme is. -/
def leaf? : Lexeme → Option (Bool × Scalar)
  | leaf isKey s => some (isKey, s)
  | _ => none

/-- The elements of a container at a depth between its brackets. -/
def enclose (depth : Nat) (opening closing : Char) : List (List Lexeme) → List Lexeme
  | [] => [mark opening, mark closing]
  | first :: rest =>
    mark opening :: gap (depth + 1) :: first
      ++ rest.flatMap (fun element => mark ',' :: gap (depth + 1) :: element)
      ++ [gap depth, mark closing]

mutual

/-- The lexemes of a tree whose first line is at a depth. -/
def ofTree (depth : Nat) : Tree → List Lexeme
  | .scalar s => [leaf false s]
  | .sequence items => enclose depth '[' ']' (ofItems (depth + 1) items)
  | .mapping entries => enclose depth '{' '}' (ofEntries (depth + 1) entries)
  | _ => []

/-- The lexemes of each item of a sequence. -/
def ofItems (depth : Nat) : List Tree → List (List Lexeme)
  | [] => []
  | t :: rest => ofTree depth t :: ofItems depth rest

/-- The lexemes of each entry of a mapping. -/
def ofEntries (depth : Nat) : List (Scalar × Tree) → List (List Lexeme)
  | [] => []
  | (key, t) :: rest => (leaf true key :: colon :: ofTree depth t) :: ofEntries depth rest

end

theorem ofItems_eq (depth : Nat) (items : List Tree) :
    ofItems depth items = items.map (ofTree depth) := by
  induction items with
  | nil => rfl
  | cons t rest ih => rw [ofItems, ih, List.map_cons]

theorem ofEntries_eq (depth : Nat) (entries : List (Scalar × Tree)) :
    ofEntries depth entries =
      entries.map fun (key, t) => leaf true key :: colon :: ofTree depth t := by
  induction entries with
  | nil => rfl
  | cons entry rest ih => rw [ofEntries, ih, List.map_cons]

end Lexeme

open Lexeme (ofTree ofItems ofEntries)

/-! ## Rendering -/

/-- The text of lexemes. -/
def textOf (lexemes : List Lexeme) : String := String.ofList (lexemes.flatMap Lexeme.chars)

theorem scalar_eq {s : Scalar} (h : s.IsJson) : scalar s = .ok (String.ofList (scalarChars s)) := by
  cases h <;> exact congrArg Except.ok (String.ofList_toList).symm

theorem toList_intercalate_cons (between first : String) (rest : List String) :
    (between.intercalate (first :: rest)).toList =
      first.toList ++ rest.flatMap fun element => between.toList ++ element.toList := by
  induction rest generalizing first with
  | nil => rw [String.intercalate_singleton, List.flatMap_nil, List.append_nil]
  | cons second rest ih =>
    rw [String.intercalate_cons_cons, String.toList_append, String.toList_append, ih,
      List.flatMap_cons, List.append_assoc, List.append_assoc]

theorem enclose_eq (depth : Nat) (opening closing : Char) (elements : List (List Lexeme)) :
    enclose indented depth (String.ofList [opening]) (String.ofList [closing])
        (elements.map textOf) =
      textOf (Lexeme.enclose depth opening closing elements) := by
  apply String.toList_injective
  cases elements with
  | nil => simp [enclose, textOf, Lexeme.enclose, Lexeme.chars]
  | cons first rest =>
    rw [enclose, if_neg (by simp), List.map_cons]
    simp only [String.toList_append, toList_intercalate_cons, List.flatMap_map]
    simp [textOf, Lexeme.enclose, Lexeme.chars, indented, List.flatMap_assoc, List.append_assoc]

theorem textOf_entry (s : String) (lexemes : List Lexeme) :
    textOf (.leaf true (.text s) :: .colon :: lexemes) = string s ++ ": " ++ textOf lexemes := by
  apply String.toList_injective
  simp [textOf, Lexeme.chars, scalarChars, scalar]

/-- A tree is rendered as the text of its lexemes. -/
theorem render_eq {t : Tree} (h : t.IsJson) (depth : Nat) :
    render indented depth t = .ok (textOf (ofTree depth t)) := by
  induction h generalizing depth with
  | scalar h =>
    rw [render, scalar_eq h, ofTree, textOf]
    simp [Lexeme.chars]
  | @sequence items _ ih =>
    have hitems : renderItems indented (depth + 1) items =
        .ok ((ofItems (depth + 1) items).map textOf) := by
      clear * - ih
      induction items with
      | nil => rfl
      | cons t rest ihrest =>
        rw [List.forall_mem_cons] at ih
        rw [renderItems, ih.1, ihrest ih.2]
        rfl
    rw [render, hitems, ofTree]
    exact congrArg Except.ok (enclose_eq depth '[' ']' _)
  | @mapping entries hkeys _ ih =>
    have hentries : renderEntries indented (depth + 1) entries =
        .ok ((ofEntries (depth + 1) entries).map textOf) := by
      clear * - hkeys ih
      induction entries with
      | nil => rfl
      | cons entry rest ihrest =>
        obtain ⟨k, t⟩ := entry
        rw [List.forall_mem_cons] at hkeys ih
        obtain ⟨s, rfl⟩ := hkeys.1
        rw [renderEntries, key, ih.1, ihrest hkeys.2 ih.2, ofEntries, List.map_cons,
          textOf_entry]
        rfl
    rw [render, hentries, ofTree]
    exact congrArg Except.ok (enclose_eq depth '{' '}' _)

/-! ## What the lexemes of a tree are -/

namespace Lexeme

/-- A lexeme of a tree that JSON has. -/
def Proper : Lexeme → Prop
  | mark c => c ∈ marks
  | leaf isKey s => s.IsJson ∧ (isKey = true → ∃ text, s = .text text)
  | _ => True

/-- Whether a lexeme becomes a bare token. -/
def isBare : Lexeme → Bool
  | leaf _ (.text _) => false
  | leaf _ _ => true
  | _ => false

theorem forall_mem_enclose {p : Lexeme → Prop} {depth : Nat} {opening closing : Char}
    {elements : List (List Lexeme)} (hmark : ∀ c ∈ [opening, closing, ','], p (mark c))
    (hgap : ∀ depth, p (gap depth)) (helements : ∀ element ∈ elements, ∀ l ∈ element, p l) :
    ∀ l ∈ enclose depth opening closing elements, p l := by
  simp only [List.forall_mem_cons] at hmark
  obtain ⟨hopening, hclosing, hcomma, -⟩ := hmark
  cases elements with
  | nil => simp [enclose, hopening, hclosing]
  | cons first rest =>
    rw [List.forall_mem_cons] at helements
    have hrest : ∀ l ∈ rest.flatMap (fun element => mark ',' :: gap (depth + 1) :: element), p l := by
      intro l hl
      obtain ⟨element, helement, hl⟩ := List.mem_flatMap.1 hl
      rcases List.mem_cons.1 hl with rfl | hl
      · exact hcomma
      · rcases List.mem_cons.1 hl with rfl | hl
        · exact hgap _
        · exact helements.2 element helement l hl
    simp only [enclose, List.forall_mem_append, List.forall_mem_cons]
    exact ⟨⟨⟨hopening, hgap _, helements.1⟩, hrest⟩, hgap _, hclosing, by simp⟩

theorem proper_ofTree {t : Tree} (h : t.IsJson) (depth : Nat) : ∀ l ∈ ofTree depth t, l.Proper := by
  induction h generalizing depth with
  | scalar h =>
    intro l hl
    obtain rfl := List.mem_singleton.1 hl
    exact ⟨h, fun hkey => by cases hkey⟩
  | sequence _ ih =>
    rw [ofTree, ofItems_eq]
    refine forall_mem_enclose (by simp [Proper, marks]) (fun _ => trivial) fun element hmem => ?_
    obtain ⟨t, ht, rfl⟩ := List.mem_map.1 hmem
    exact ih t ht _
  | mapping hkeys _ ih =>
    rw [ofTree, ofEntries_eq]
    refine forall_mem_enclose (by simp [Proper, marks]) (fun _ => trivial) fun element hmem => ?_
    obtain ⟨⟨key, t⟩, ht, rfl⟩ := List.mem_map.1 hmem
    obtain ⟨text, rfl⟩ := hkeys _ ht
    exact List.forall_mem_cons.2 ⟨⟨.text text, fun _ => ⟨text, rfl⟩⟩,
      List.forall_mem_cons.2 ⟨trivial, ih _ ht _⟩⟩

/-- Two lexemes that would not become one token. -/
def Apart (l next : Lexeme) : Prop := l.isBare = true → next.isBare = false

/-- A lexeme that is not bare keeps what is around it apart. -/
theorem apart_around (front : List Lexeme) {rest : List Lexeme} {l : Lexeme}
    (hl : l.isBare = false) (hfront : front.IsChain Apart) (hrest : rest.IsChain Apart) :
    (front ++ l :: rest).IsChain Apart := by
  refine List.isChain_append.2 ⟨hfront, List.IsChain.cons hrest fun next _ h => ?_, ?_⟩
  · rw [hl] at h
    cases h
  · rintro last - next hnext -
    obtain rfl := Option.some.inj hnext
    exact hl

theorem apart_enclose {depth : Nat} {opening closing : Char} {elements : List (List Lexeme)}
    (h : ∀ element ∈ elements, element.IsChain Apart) :
    (enclose depth opening closing elements).IsChain Apart := by
  have hmark : ∀ {l rest}, l.isBare = false → rest.IsChain Apart → (l :: rest).IsChain Apart :=
    fun hl hrest => apart_around [] hl List.IsChain.nil hrest
  cases elements with
  | nil => exact hmark rfl (hmark rfl List.IsChain.nil)
  | cons first rest =>
    rw [List.forall_mem_cons] at h
    suffices hfirst : (first ++ (rest.flatMap (fun element => mark ',' :: gap (depth + 1) :: element)
        ++ [gap depth, mark closing])).IsChain Apart by
      rw [← List.append_assoc] at hfirst
      exact hmark rfl (hmark rfl hfirst)
    obtain ⟨hfirst, hrest⟩ := h
    induction rest generalizing first with
    | nil => exact apart_around _ rfl hfirst (hmark rfl List.IsChain.nil)
    | cons second rest ih =>
      rw [List.forall_mem_cons] at hrest
      rw [List.flatMap_cons, List.cons_append, List.cons_append, List.cons_append,
        List.cons_append, List.append_assoc]
      exact apart_around _ rfl hfirst (hmark rfl (ih second hrest.1 hrest.2))

/-- No two bare tokens of a tree meet. -/
theorem apart_ofTree {t : Tree} (h : t.IsJson) (depth : Nat) : (ofTree depth t).IsChain Apart := by
  induction h generalizing depth with
  | scalar h => exact List.IsChain.singleton _
  | sequence _ ih =>
    rw [ofTree, ofItems_eq]
    refine apart_enclose fun element hmem => ?_
    obtain ⟨t, ht, rfl⟩ := List.mem_map.1 hmem
    exact ih t ht _
  | mapping hkeys _ ih =>
    rw [ofTree, ofEntries_eq]
    refine apart_enclose fun element hmem => ?_
    obtain ⟨⟨key, t⟩, ht, rfl⟩ := List.mem_map.1 hmem
    exact apart_around [leaf true key] rfl (List.IsChain.singleton _) (ih _ ht _)

theorem leaves_enclose (depth : Nat) (opening closing : Char) (elements : List (List Lexeme)) :
    (enclose depth opening closing elements).filterMap leaf? =
      elements.flatMap (·.filterMap leaf?) := by
  cases elements with
  | nil => rfl
  | cons first rest =>
    simp [enclose, leaf?, List.filterMap_cons, List.filterMap_flatMap]

/-- The leaves of a tree are those among its lexemes. -/
theorem leaves_ofTree {t : Tree} (h : t.IsJson) (depth : Nat) :
    (ofTree depth t).filterMap leaf? = t.leaves := by
  induction h generalizing depth with
  | scalar h => rfl
  | @sequence items _ ih =>
    rw [ofTree, leaves_enclose, ofItems_eq, List.flatMap_map, Tree.leaves]
    clear * - ih
    induction items with
    | nil => rfl
    | cons t rest ihrest =>
      rw [List.forall_mem_cons] at ih
      rw [List.flatMap_cons, ih.1, ihrest ih.2, Tree.itemLeaves]
  | @mapping entries _ _ ih =>
    rw [ofTree, leaves_enclose, ofEntries_eq, List.flatMap_map, Tree.leaves]
    clear * - ih
    induction entries with
    | nil => rfl
    | cons entry rest ihrest =>
      rw [List.forall_mem_cons] at ih
      rw [List.flatMap_cons, ihrest ih.2, Tree.entryLeaves, ← ih.1 (depth + 1)]
      rfl

/-! ## Restyled lexemes -/

/-- The characters that a lexeme becomes. -/
def restyled (unit : List Char) : Lexeme → List Char
  | mark c => [c]
  | colon => [':', ' ']
  | gap depth => '\n' :: (List.replicate depth unit).flatten
  | leaf _ (.text s) => apostrophe :: restyledBody unit s.toList ++ [apostrophe]
  | leaf _ s => scalarChars s

/-- A scalar that is no text is a numeral or a word. -/
theorem bare_scalarChars {isKey : Bool} {s : Scalar} (h : s.IsJson)
    (hbare : (leaf isKey s).isBare = true) :
    scalarChars s ≠ [] ∧ ∀ c ∈ scalarChars s, isBareChar c = true := by
  have hnumber : ∀ {cs : List Char} {x : Binary64}, number? cs = some x →
      cs ≠ [] ∧ ∀ c ∈ cs, isBareChar c = true := by
    intro cs x hread
    refine ⟨?_, bare_of_number? hread⟩
    rintro rfl
    cases hread
  cases h with
  | null => exact ⟨by decide, List.all_eq_true.1 (by decide)⟩
  | bool b => cases b <;> exact ⟨by decide, List.all_eq_true.1 (by decide)⟩
  | int n => exact hnumber (number?_signedString n)
  | float negative h => exact hnumber (number?_finiteText negative h)
  | text s => cases hbare

/-- The characters of bare tokens. -/
theorem isBareChar_apart {c : Char} (h : isBareChar c = true) :
    c ≠ ' ' ∧ c ≠ doubleQuote ∧ c ≠ apostrophe ∧ blankRanges.holds c = false ∧ c ∉ marks := by
  have hascii : c.toNat < 128 := by
    simp only [isBareChar, Bool.or_eq_true, decide_eq_true_eq] at h
    rcases h with ((((h | rfl) | rfl) | rfl) | rfl) | rfl
    · exact Naming.alphanum_ascii h
    all_goals decide
  exact Naming.ascii_forall (P := fun c => isBareChar c = true → c ≠ ' ' ∧ c ≠ doubleQuote ∧
    c ≠ apostrophe ∧ blankRanges.holds c = false ∧ c ∉ marks) (by decide +kernel) hascii h

theorem map_requote_bare {cs : List Char} (h : ∀ c ∈ cs, isBareChar c = true) :
    cs.map requote = cs :=
  map_requote fun hmem => (isBareChar_apart (h _ hmem)).2.1 rfl

theorem restyled_bare {isKey : Bool} {s : Scalar} (unit : List Char)
    (h : (leaf isKey s).isBare = true) : (leaf isKey s).restyled unit = scalarChars s := by
  cases s with
  | text s => cases h
  | _ => rfl

theorem text_of_not_bare {isKey : Bool} {s : Scalar} (h : ¬(leaf isKey s).isBare = true) :
    ∃ text, s = .text text := by
  cases s with
  | text text => exact ⟨text, rfl⟩
  | _ => exact absurd rfl h

theorem reindent_blanks (unit : List Char) (depth : Nat) :
    reindent unit (List.replicate (2 * depth) ' ') = (List.replicate depth unit).flatten := by
  induction depth with
  | zero => rfl
  | succ depth ih =>
    rw [Nat.mul_succ, List.replicate_succ, List.replicate_succ, Text.reindent_pair, ih,
      List.replicate_succ, List.flatten_cons]

/-- Restyling a lexeme on its own. -/
theorem restyled_eq (unit : List Char) {l : Lexeme} (h : l.Proper) :
    reindent unit (l.chars.map requote) = l.restyled unit := by
  cases l with
  | mark c =>
    have hmarks : ∀ c ∈ marks, requote c = c := List.all_iff_forall_prop.1 (by decide)
    exact congrArg (fun d => [d]) (hmarks c h)
  | colon => rfl
  | gap depth =>
    have hchars : (gap depth).chars = '\n' :: List.replicate (2 * depth) ' ' := by
      simp [chars, lineBreak]
    have hblanks : doubleQuote ∉ '\n' :: List.replicate (2 * depth) ' ' := by
      simp [doubleQuote]
    rw [hchars, map_requote hblanks, Text.reindent_cons unit fun h => absurd h (by decide),
      reindent_blanks, restyled]
  | leaf isKey s =>
    by_cases hbare : (leaf isKey s).isBare = true
    · obtain ⟨-, hchars⟩ := bare_scalarChars h.1 hbare
      have hblank : ' ' ∉ scalarChars s := fun hmem => (isBareChar_apart (hchars _ hmem)).1 rfl
      have hsame := Text.reindent_append_of_not_mem unit [] hblank
      rw [List.append_nil] at hsame
      rw [restyled_bare unit hbare, chars, map_requote_bare hchars, hsame]
      exact List.append_nil _
    · obtain ⟨text, rfl⟩ := text_of_not_bare hbare
      have hchars : (leaf isKey (.text text)).chars.map requote =
          apostrophe :: (text.toList.flatMap restyledChar ++ [apostrophe]) := by
        simp only [chars, scalarChars, scalar, string, String.toList_ofList, List.map_cons,
          List.map_append, List.map_flatMap, List.map_nil, List.cons_append]
        rfl
      rw [hchars, Text.reindent_cons unit fun h => absurd h (by decide),
        Text.reindent_append unit _ (by simp [apostrophe])]
      rfl

theorem head?_chars {l : Lexeme} (h : l.Proper) : ∃ c, l.chars.head? = some c ∧ requote c ≠ ' ' := by
  cases l with
  | mark c =>
    have hmarks : ∀ c ∈ marks, requote c ≠ ' ' := List.all_iff_forall_prop.1 (by decide)
    exact ⟨c, rfl, hmarks c h⟩
  | colon => exact ⟨':', rfl, by decide⟩
  | gap depth => exact ⟨'\n', by simp [chars, lineBreak], by decide⟩
  | leaf isKey s =>
    by_cases hbare : (leaf isKey s).isBare = true
    · obtain ⟨hnonempty, hchars⟩ := bare_scalarChars h.1 hbare
      obtain ⟨c, rest, hcons⟩ := List.exists_cons_of_ne_nil hnonempty
      have hc := isBareChar_apart (hchars c (by rw [hcons]; exact List.mem_cons_self ..))
      exact ⟨c, congrArg List.head? hcons, by rw [requote, if_neg hc.2.1]; exact hc.1⟩
    · obtain ⟨text, rfl⟩ := text_of_not_bare hbare
      exact ⟨doubleQuote, by simp [chars, scalarChars, scalar, string], by decide⟩

/-- Restyling works on each lexeme on its own. -/
theorem restyle_eq (format : Formatting) {lexemes : List Lexeme} (h : ∀ l ∈ lexemes, l.Proper) :
    (format.restyle (textOf lexemes)).toList =
      lexemes.flatMap (restyled format.unit.toList) := by
  rw [Formatting.restyle, textOf, String.toList_ofList, String.toList_ofList, replaceChar_requote]
  induction lexemes with
  | nil => rfl
  | cons l rest ih =>
    rw [List.forall_mem_cons] at h
    have hborder : ((rest.flatMap chars).map requote).head? ≠ some ' ' := by
      cases rest with
      | nil => simp
      | cons next rest =>
        obtain ⟨c, hhead, hc⟩ := head?_chars (h.2 next (List.mem_cons_self ..))
        rw [List.flatMap_cons, List.head?_map, List.head?_append, hhead]
        exact fun heq => hc (Option.some.inj heq)
    have hsplit := Text.reindent_append format.unit.toList (l.chars.map requote) hborder
    rw [restyled_eq _ h.1] at hsplit
    rw [List.flatMap_cons, List.map_append, List.flatMap_cons, ← ih h.2]
    exact hsplit

/-! ## Scanning -/

end Lexeme

/-- The token that a key or a scalar becomes. -/
def leafToken (unit : List Char) : Scalar → Token
  | .text s => .text (units (restyledText unit s.toList))
  | s => .bare (scalarChars s)

namespace Lexeme

/-- The tokens that a lexeme becomes. -/
def tokens (unit : List Char) : Lexeme → List Token
  | mark c => [.mark c]
  | colon => [.mark ':']
  | gap _ => []
  | leaf _ s => [leafToken unit s]

/-- Whether a lexeme is a text that a single quote breaks off. -/
def isBroken : Lexeme → Bool
  | leaf _ (.text s) => s.toList.contains apostrophe
  | _ => false

/-- Bare characters up to one that is not. -/
theorem scan_bare {cs rest : List Char} (earlier : List Char) (hcs : ∀ c ∈ cs, isBareChar c = true)
    (hrest : ∀ c ∈ rest.head?, isBareChar c = false) :
    (Scanner.bare earlier).scan (cs ++ rest) =
      (Scanner.between.scan rest).map (.bare (earlier.reverse ++ cs) :: ·) := by
  induction cs generalizing earlier with
  | nil =>
    rw [List.append_nil, List.nil_append]
    cases rest with
    | nil => rfl
    | cons c rest =>
      have hstep : (Scanner.bare earlier).step c = (Scanner.betweenStep c).map
          (Prod.map id (Token.bare earlier.reverse :: ·)) :=
        if_neg (by simp [hrest c rfl])
      have hbetween : Scanner.between.step c = Scanner.betweenStep c := rfl
      rw [scan_cons, scan_cons, hstep, hbetween]
      cases Scanner.betweenStep c with
      | none => rfl
      | some next =>
        simp only [Option.map_some, Option.bind_some, Option.map_map]
        rfl
  | cons c cs ih =>
    rw [List.forall_mem_cons] at hcs
    have hstep : (Scanner.bare earlier).step c = some (.bare (c :: earlier), []) := if_pos hcs.1
    rw [List.cons_append, scan_of_step hstep, ih _ hcs.2, List.reverse_cons, List.append_assoc]
    rfl

/-- Bare characters between tokens are a token. -/
theorem scan_bareToken {cs rest : List Char} (hnonempty : cs ≠ [])
    (hcs : ∀ c ∈ cs, isBareChar c = true) (hrest : ∀ c ∈ rest.head?, isBareChar c = false) :
    Scanner.between.scan (cs ++ rest) = (Scanner.between.scan rest).map (.bare cs :: ·) := by
  obtain ⟨c, cs, rfl⟩ := List.exists_cons_of_ne_nil hnonempty
  rw [List.forall_mem_cons] at hcs
  obtain ⟨-, -, hquote, hgap, hmark⟩ := isBareChar_apart hcs.1
  have hstep : Scanner.between.step c = some (.bare [c], []) := by
    rw [Scanner.step, Scanner.betweenStep, if_neg (by simp [hgap]), if_neg (by simpa),
      if_neg hquote, if_pos hcs.1]
  rw [List.cons_append, scan_of_step hstep, scan_bare [c] hcs.2 hrest]
  rfl

theorem scan_mark {c : Char} (h : c ∈ marks) (rest : List Char) :
    Scanner.between.scan (c :: rest) = (Scanner.between.scan rest).map (.mark c :: ·) := by
  have hmarks : ∀ c ∈ marks, Scanner.between.step c = some (.between, [.mark c]) :=
    List.all_iff_forall_prop.1 (by decide)
  rw [scan_cons, hmarks c h]
  rfl

theorem scan_blanks {cs : List Char} (h : ∀ c ∈ cs, blankRanges.holds c = true) (rest : List Char) :
    Scanner.between.scan (cs ++ rest) = Scanner.between.scan rest := by
  induction cs with
  | nil => rfl
  | cons c cs ih =>
    rw [List.forall_mem_cons] at h
    have hstep : Scanner.between.step c = some (.between, []) := if_pos h.1
    rw [List.cons_append, scan_of_step hstep, ih h.2]

/-- A restyled lexeme is scanned as what it is, unless a quote breaks it off. -/
theorem scan_restyled {unit : List Char} (hunit : unit ∈ levels) {l : Lexeme} (h : l.Proper)
    (hwhole : l.isBroken = false) {rest : List Char}
    (hrest : l.isBare = true → ∀ c ∈ rest.head?, isBareChar c = false) :
    Scanner.between.scan (l.restyled unit ++ rest) =
      (Scanner.between.scan rest).map (l.tokens unit ++ ·) := by
  cases l with
  | mark c => exact scan_mark h rest
  | colon =>
    have hblank : ∀ c ∈ [' '], blankRanges.holds c = true := List.forall_mem_singleton.2 (by decide)
    have hcolon := scan_mark (c := ':') (by decide) ([' '] ++ rest)
    rw [scan_blanks hblank] at hcolon
    exact hcolon
  | gap depth =>
    have hblank : ∀ c ∈ (gap depth).restyled unit, blankRanges.holds c = true := by
      refine List.forall_mem_cons.2 ⟨by decide, fun c hc => ?_⟩
      obtain ⟨level, hlevel, hmem⟩ := List.mem_flatten.1 hc
      rw [List.eq_of_mem_replicate hlevel] at hmem
      rcases blank_of_mem_level hunit c hmem with rfl | rfl <;> decide
    rw [scan_blanks hblank]
    exact Option.map_id'.symm
  | leaf isKey s =>
    by_cases hbare : (leaf isKey s).isBare = true
    · obtain ⟨hnonempty, hchars⟩ := bare_scalarChars h.1 hbare
      have htoken : (leaf isKey s).tokens unit = [.bare (scalarChars s)] := by
        cases s with
        | text s => cases hbare
        | _ => rfl
      rw [restyled_bare unit hbare, htoken]
      exact scan_bareToken hnonempty hchars (hrest hbare)
    · obtain ⟨text, rfl⟩ := text_of_not_bare hbare
      have hquote : apostrophe ∉ text.toList := by
        simpa [isBroken] using hwhole
      have hscan := scan_text (blank_of_mem_level hunit) hquote rest
      rw [restyled, List.append_assoc]
      exact hscan

theorem head?_restyled (unit : List Char) {l : Lexeme} (h : l.Proper) (hbare : l.isBare = false)
    (rest : List Char) : ∀ c ∈ (l.restyled unit ++ rest).head?, isBareChar c = false := by
  cases l with
  | mark c =>
    rintro d ⟨⟩
    have hmarks : ∀ c ∈ marks, isBareChar c = false := List.all_iff_forall_prop.1 (by decide)
    exact hmarks c h
  | colon =>
    rintro d ⟨⟩
    decide
  | gap depth =>
    rintro d ⟨⟩
    decide
  | leaf isKey s =>
    obtain ⟨text, rfl⟩ := text_of_not_bare (ne_of_eq_of_ne hbare (by decide))
    rintro d ⟨⟩
    decide

/-- Restyled lexemes are scanned one after the other. -/
theorem scan_lexemes {unit : List Char} (hunit : unit ∈ levels) {lexemes : List Lexeme}
    (h : ∀ l ∈ lexemes, l.Proper) (hapart : lexemes.IsChain Apart)
    (hwhole : ∀ l ∈ lexemes, l.isBroken = false) (rest : List Char)
    (hrest : ∀ c ∈ rest.head?, isBareChar c = false) :
    Scanner.between.scan (lexemes.flatMap (restyled unit) ++ rest) =
      (Scanner.between.scan rest).map (lexemes.flatMap (tokens unit) ++ ·) := by
  induction lexemes with
  | nil => exact Option.map_id'.symm
  | cons l lexemes ih =>
    rw [List.forall_mem_cons] at h hwhole
    rw [List.isChain_cons] at hapart
    have hnext : l.isBare = true →
        ∀ c ∈ (lexemes.flatMap (restyled unit) ++ rest).head?, isBareChar c = false := by
      intro hbare
      cases lexemes with
      | nil => exact hrest
      | cons next lexemes =>
        rw [List.flatMap_cons, List.append_assoc]
        exact head?_restyled unit (h.2 next (List.mem_cons_self ..)) (hapart.1 next rfl hbare) _
    rw [List.flatMap_cons, List.append_assoc, scan_restyled hunit h.1 hwhole.1 hnext,
      ih h.2 hapart.2 hwhole.2, Option.map_map]
    congr 1
    funext tokens
    exact (List.append_assoc _ _ _).symm

end Lexeme

end JsonText

end TypedClient
