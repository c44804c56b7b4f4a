import Mathlib.Data.List.Nodup
import TypedClient.Proofs.OperationPlaces
import TypedClient.Proofs.Pointers

/-!
# The response that describes the result

Of the responses of an operation one describes what it returns. `success` sorts
the codes that start with a two, goes through their responses and then to the
default one, and takes the first that has a schema. What it takes can be said
without any sorting (`Selected`): among the responses that have a schema, the
one with the least code, and of those with one code the first.

The sorting is stable, so the responses of one code are met in the order of the
document; that is where the first of them comes from. Responses of different
codes can be in any order, since they are sorted anyway. The order of media types
does count, though, and a document may use one mapping as the responses of an
operation and as the media types of one of them.
-/

namespace TypedClient

variable {store : Store} {document : Value}

theorem Value.isNull_iff {v : Value} : v.isNull = true ↔ v = .null :=
  beq_iff_eq

/-! ## Media types -/

namespace Parameter

/-- The schema of a media type, if it has one. -/
def mediaSchema? (store : Store) : Value → Option Value
  | .mapping m => if (store.get m "schema").isNull then none else some (store.get m "schema")
  | _ => none

theorem firstSchema_eq_getD (content : Entries) :
    firstSchema store content =
      (content.findSome? fun entry => mediaSchema? store entry.2).getD .null := by
  rw [firstSchema]
  congr 2

theorem mediaSchema?_eq_some {v schema : Value} :
    mediaSchema? store v = some schema ↔
      ∃ m, v = .mapping m ∧ store.get m "schema" = schema ∧ schema ≠ .null := by
  cases v with
  | mapping m =>
      rw [mediaSchema?]
      split
      · next hnull =>
          rw [Value.isNull_iff] at hnull
          constructor
          · intro h
            cases h
          · rintro ⟨m', hm, rfl, hschema⟩
            cases hm
            exact absurd hnull hschema
      · next hgiven =>
          rw [Value.isNull_iff] at hgiven
          constructor
          · intro h
            cases h
            exact ⟨m, rfl, rfl, hgiven⟩
          · rintro ⟨m', hm, rfl, -⟩
            cases hm
            rfl
  | scalar s | sequence id | typed kind id => simp [mediaSchema?]

theorem mediaSchema?_eq_none {v : Value} :
    mediaSchema? store v = none ↔ ∀ m, v = .mapping m → store.get m "schema" = .null := by
  rw [Option.eq_none_iff_forall_ne_some]
  simp only [ne_eq, mediaSchema?_eq_some, not_exists, not_and, not_not]
  exact ⟨fun h m hm => h _ m hm rfl, fun h schema m hm hschema => hschema ▸ h m hm⟩

/-- The first schema of media types is that of one before which none has any. -/
theorem firstSchema_eq_iff {content : Entries} {schema : Value} (hschema : schema ≠ .null) :
    firstSchema store content = schema ↔
      ∃ before key m after, content = before ++ (key, .mapping m) :: after ∧
        store.get m "schema" = schema ∧
        ∀ entry ∈ before, ∀ m', entry.2 = .mapping m' → store.get m' "schema" = .null := by
  have hsome : firstSchema store content = schema ↔
      (content.findSome? fun entry => mediaSchema? store entry.2) = some schema := by
    rw [firstSchema_eq_getD]
    cases content.findSome? fun entry => mediaSchema? store entry.2 with
    | none => simp [hschema.symm]
    | some found => simp
  simp only [hsome, List.findSome?_eq_some_iff, mediaSchema?_eq_some, mediaSchema?_eq_none]
  constructor
  · rintro ⟨before, ⟨key, v⟩, after, rfl, ⟨m, rfl, hm, -⟩, hbefore⟩
    exact ⟨before, key, m, after, rfl, hm, hbefore⟩
  · rintro ⟨before, key, m, after, rfl, hm, hbefore⟩
    exact ⟨before, _, after, rfl, ⟨m, rfl, hm, hschema⟩, hbefore⟩

end Parameter

theorem entriesOrNone_of_not_mapping {v : Value} (h : ∀ c, v ≠ .mapping c) :
    store.entriesOrNone v = if store.truthy v then .error .lacksMember else .ok [] := by
  cases v with
  | mapping c => exact absurd rfl (h c)
  | scalar s | sequence id | typed kind id => rfl

namespace Response

/-! ## What a response offers -/

/-- A response, or the one it refers to, has a schema: one of its own, or else
the schema of the first of its media types that has one. -/
inductive Offers (store : Store) (document raw : Value) : SchemaSite → Prop where
  | schema {id : Nat} (leads : dereference store raw document = .mapping id)
      (given : store.get id "schema" ≠ .null) : Offers store document raw (.value (.mapping id))
  | content {id c m : Nat} {before after : Entries} {key : Scalar}
      (leads : dereference store raw document = .mapping id)
      (absent : store.get id "schema" = .null)
      (listed : store.get id "content" = .mapping c)
      (place : store.entries c = before ++ (key, .mapping m) :: after)
      (given : store.get m "schema" ≠ .null)
      (first : ∀ entry ∈ before, ∀ m', entry.2 = .mapping m' → store.get m' "schema" = .null) :
      Offers store document raw (.content (store.get m "schema"))

/-- A response has a schema. -/
def Qualifies (store : Store) (document raw : Value) : Prop :=
  ∃ site, Offers store document raw site

/-- A response without a schema of its own lists its media types as something
that cannot list any. -/
def Malformed (store : Store) (document raw : Value) : Prop :=
  ∃ id, dereference store raw document = .mapping id ∧ store.get id "schema" = .null ∧
    (∀ c, store.get id "content" ≠ .mapping c) ∧ store.truthy (store.get id "content") = true

/-- A response is no mapping, has a schema of its own, or has none. -/
theorem response_cases (store : Store) (document raw : Value) :
    (∀ id, dereference store raw document ≠ .mapping id) ∨
      (∃ id, dereference store raw document = .mapping id ∧ store.get id "schema" ≠ .null) ∨
      ∃ id, dereference store raw document = .mapping id ∧ store.get id "schema" = .null := by
  cases dereference store raw document with
  | mapping id =>
      by_cases hgiven : store.get id "schema" = .null
      · exact .inr (.inr ⟨id, rfl, hgiven⟩)
      · exact .inr (.inl ⟨id, rfl, hgiven⟩)
  | scalar s | sequence items | typed kind items => exact .inl fun id h => by cases h

theorem schema?_of_not_mapping {raw : Value}
    (h : ∀ id, dereference store raw document ≠ .mapping id) :
    schema? store document raw = .ok none := by
  rw [schema?]
  cases hleads : dereference store raw document with
  | mapping id => exact absurd hleads (h id)
  | scalar s | sequence id | typed kind id => rfl

theorem schema?_of_given {raw : Value} {id : Nat}
    (hleads : dereference store raw document = .mapping id)
    (hgiven : store.get id "schema" ≠ .null) :
    schema? store document raw = .ok (some (.value (.mapping id))) := by
  simp [schema?, hleads, Value.isNull_iff.not.2 hgiven]

/-- Without a schema of its own, a response has that of its media types. -/
theorem schema?_of_absent {raw : Value} {id : Nat}
    (hleads : dereference store raw document = .mapping id)
    (habsent : store.get id "schema" = .null) :
    schema? store document raw = (store.entriesOrNone (store.get id "content")).map fun content =>
      if Parameter.firstSchema store content = .null then none
      else some (.content (Parameter.firstSchema store content)) := by
  simp only [schema?, hleads, Value.isNull_iff.2 habsent, ← Value.isNull_iff]
  cases store.entriesOrNone (store.get id "content") <;> rfl

theorem schema?_eq_some {raw : Value} {site : SchemaSite} :
    schema? store document raw = .ok (some site) ↔ Offers store document raw site := by
  constructor
  · intro h
    rcases response_cases store document raw with hno | ⟨id, hleads, hgiven⟩ | ⟨id, hleads, habsent⟩
    · rw [schema?_of_not_mapping hno] at h
      cases h
    · rw [schema?_of_given hleads hgiven] at h
      cases h
      exact .schema hleads hgiven
    rw [schema?_of_absent hleads habsent] at h
    obtain ⟨content, hcontent, hsite⟩ := map_eq_ok.1 h
    split at hsite
    · cases hsite
    next hschema =>
    cases hsite
    by_cases hlisted : ∀ c, store.get id "content" ≠ .mapping c
    · -- What is no mapping lists no media types.
      rw [entriesOrNone_of_not_mapping hlisted] at hcontent
      split at hcontent <;> cases hcontent
      exact absurd rfl hschema
    push Not at hlisted
    obtain ⟨c, hlisted⟩ := hlisted
    rw [hlisted] at hcontent
    cases hcontent
    obtain ⟨before, key, m, after, hplace, hm, hbefore⟩ :=
      (Parameter.firstSchema_eq_iff hschema).1 rfl
    rw [← hm] at hschema ⊢
    exact .content hleads habsent hlisted hplace hschema hbefore
  · intro h
    cases h with
    | schema leads given => exact schema?_of_given leads given
    | @content id c m before after key leads absent listed place given first =>
        have hschema := (Parameter.firstSchema_eq_iff given).2 ⟨_, _, _, _, place, rfl, first⟩
        have hcontent : store.entriesOrNone (.mapping c) = .ok (store.entries c) := rfl
        rw [schema?_of_absent leads absent, listed, hcontent, Except.map, hschema, if_neg given]

theorem not_qualifies_of_none {raw : Value} (h : schema? store document raw = .ok none) :
    ¬ Qualifies store document raw := by
  rintro ⟨site, hoffers⟩
  rw [schema?_eq_some.2 hoffers] at h
  cases h

theorem malformed_iff {raw : Value} :
    Malformed store document raw ↔ ∃ fault, schema? store document raw = .error fault := by
  constructor
  · rintro ⟨id, hleads, habsent, hlisted, htruthy⟩
    rw [schema?_of_absent hleads habsent, entriesOrNone_of_not_mapping hlisted, if_pos htruthy]
    exact ⟨_, rfl⟩
  rintro ⟨fault, h⟩
  rcases response_cases store document raw with hno | ⟨id, hleads, hgiven⟩ | ⟨id, hleads, habsent⟩
  · rw [schema?_of_not_mapping hno] at h
    cases h
  · rw [schema?_of_given hleads hgiven] at h
    cases h
  rw [schema?_of_absent hleads habsent, map_eq_error] at h
  have hlisted : ∀ c, store.get id "content" ≠ .mapping c := by
    intro c hc
    rw [hc] at h
    cases h
  rw [entriesOrNone_of_not_mapping hlisted] at h
  split at h
  · next htruthy => exact ⟨id, hleads, habsent, hlisted, htruthy⟩
  · cases h

/-! ## Going through responses -/

/-- What is found is offered by a response before which none qualifies. -/
theorem firstSchema_eq_some {raws : List Value} {site : SchemaSite}
    (h : firstSchema store document raws = .ok (some site)) :
    ∃ front raw back, raws = front ++ raw :: back ∧
      (∀ earlier ∈ front, ¬ Qualifies store document earlier) ∧
      Offers store document raw site := by
  induction raws with
  | nil => cases h
  | cons raw rest ih =>
      obtain ⟨found, hfound, hnext⟩ := bind_eq_ok.1 h
      cases found with
      | some first =>
          cases hnext
          exact ⟨[], raw, rest, rfl, by simp, schema?_eq_some.1 hfound⟩
      | none =>
          obtain ⟨front, offering, back, rfl, hfront, hoffers⟩ := ih hnext
          refine ⟨raw :: front, offering, back, rfl, ?_, hoffers⟩
          exact List.forall_mem_cons.2 ⟨not_qualifies_of_none hfound, hfront⟩

theorem firstSchema_eq_none {raws : List Value} (h : firstSchema store document raws = .ok none) :
    ∀ raw ∈ raws, ¬ Qualifies store document raw := by
  induction raws with
  | nil => simp
  | cons raw rest ih =>
      obtain ⟨found, hfound, hnext⟩ := bind_eq_ok.1 h
      cases found with
      | some first => cases hnext
      | none => exact List.forall_mem_cons.2 ⟨not_qualifies_of_none hfound, ih hnext⟩

theorem firstSchema_of_sound {raws : List Value}
    (h : ∀ raw ∈ raws, ¬ Malformed store document raw) :
    ∃ result, firstSchema store document raws = .ok result := by
  induction raws with
  | nil => exact ⟨none, rfl⟩
  | cons raw rest ih =>
      obtain ⟨hraw, hrest⟩ := List.forall_mem_cons.1 h
      obtain ⟨result, hresult⟩ := ih hrest
      cases hfound : schema? store document raw with
      | error fault => exact absurd (malformed_iff.2 ⟨fault, hfound⟩) hraw
      | ok found =>
          cases found with
          | some site => exact ⟨some site, bind_eq_ok.2 ⟨some site, hfound, rfl⟩⟩
          | none => exact ⟨result, bind_eq_ok.2 ⟨none, hfound, hresult⟩⟩

/-! ## Successful codes -/

/-- The text of a code starts with a two. -/
def IsSuccess (code : Scalar) : Bool := code.plain.toList.head? == some '2'

/-- Whether a code may stand before another one. -/
def codeLe (a b : String × Value) : Bool := !Text.before b.1 a.1

theorem codeLe_iff {a b : String × Value} : codeLe a b = true ↔ Text.before b.1 a.1 = false := by
  rw [codeLe, Bool.not_eq_true']

theorem codeLe_trans (a b c : String × Value) (hab : codeLe a b = true) (hbc : codeLe b c = true) :
    codeLe a c = true := by
  rw [codeLe_iff] at *
  exact Text.not_before_trans hab hbc

theorem codeLe_total (a b : String × Value) : (codeLe a b || codeLe b a) = true := by
  rw [Bool.or_eq_true, codeLe_iff, codeLe_iff]
  cases h : Text.before b.1 a.1 with
  | false => exact .inl rfl
  | true => exact .inr (Text.not_before_of_before h)

/-- An entry with its code as text. -/
def coded (entry : Scalar × Value) : String × Value := (entry.1.plain, entry.2)

theorem successful_eq (entries : Entries) :
    successful entries = ((entries.filter (IsSuccess ·.1)).map coded).mergeSort codeLe := by
  rw [successful, List.filter_map]
  rfl

theorem successful_sorted (entries : Entries) :
    (successful entries).Pairwise fun a b => Text.before b.1 a.1 = false := by
  rw [successful_eq]
  exact (List.pairwise_mergeSort codeLe_trans codeLe_total _).imp codeLe_iff.1

theorem mem_successful {entries : Entries} {x : String × Value} :
    x ∈ successful entries ↔ ∃ entry ∈ entries, IsSuccess entry.1 = true ∧ coded entry = x := by
  rw [successful_eq, (List.mergeSort_perm _ _).mem_iff]
  simp only [List.mem_map, List.mem_filter, and_assoc]

/-- The first of the sorted responses that has a property belongs to the least
code under which one has it, and to the first entry with that code. -/
theorem least_of_successful {entries : Entries} {front back : List (String × Value)}
    {code : String} {raw : Value} {q : Value → Prop}
    (h : successful entries = front ++ (code, raw) :: back) (hfront : ∀ x ∈ front, ¬ q x.2)
    (hraw : q raw) :
    ∃ before key after, entries = before ++ (key, raw) :: after ∧ key.plain = code ∧
      IsSuccess key = true ∧
      (∀ entry ∈ entries, IsSuccess entry.1 = true → q entry.2 →
        Text.before entry.1.plain code = false) ∧
      ∀ entry ∈ before, IsSuccess entry.1 = true → q entry.2 → entry.1.plain ≠ code := by
  classical
  -- Entries with this code and the property are sorted as they are, and (code, raw) is the first.
  let tied : String × Value → Bool := fun x => decide (x.1 = code ∧ q x.2)
  have hstable : (successful entries).filter tied =
      ((entries.filter (IsSuccess ·.1)).map coded).filter tied := by
    rw [successful_eq]
    refine Operation.filter_mergeSort _ codeLe_trans codeLe_total fun a b ha hb => ?_
    rw [codeLe_iff, (of_decide_eq_true ha).1, (of_decide_eq_true hb).1]
    exact Text.before_irrefl code
  have hnone : front.filter tied = [] := by
    rw [List.filter_eq_nil_iff]
    exact fun x hx htied => hfront x hx (of_decide_eq_true htied).2
  have hfirst : tied (code, raw) = true := decide_eq_true ⟨rfl, hraw⟩
  rw [h, List.filter_append, hnone, List.nil_append, List.filter_cons_of_pos hfirst,
    List.filter_map, List.filter_filter, eq_comm, List.map_eq_cons_iff] at hstable
  obtain ⟨⟨key, found⟩, others, hfilter, hcoded, -⟩ := hstable
  obtain ⟨rfl, rfl⟩ := Prod.mk.inj hcoded
  obtain ⟨before, after, rfl, hbefore, hkey, -⟩ := List.filter_eq_cons_iff.1 hfilter
  rw [Bool.and_eq_true] at hkey
  refine ⟨before, key, after, rfl, rfl, hkey.2, fun entry hentry hsuccess hq => ?_, ?_⟩
  · have hmem : coded entry ∈ successful (before ++ (key, found) :: after) :=
      mem_successful.2 ⟨entry, hentry, hsuccess, rfl⟩
    have hsorted := successful_sorted (before ++ (key, found) :: after)
    rw [h] at hmem hsorted
    rcases List.mem_append.1 hmem with hearly | hlate
    · exact absurd hq (hfront _ hearly)
    rcases List.mem_cons.1 hlate with hsame | hback
    · have hcode : entry.1.plain = key.plain := congrArg Prod.fst hsame
      rw [hcode]
      exact Text.before_irrefl _
    · exact List.rel_of_pairwise_cons (List.pairwise_append.1 hsorted).2.1 hback
  · intro entry hentry hsuccess hq hsame
    have hnot := hbefore entry hentry
    rw [Bool.and_eq_true] at hnot
    exact hnot ⟨decide_eq_true ⟨hsame, hq⟩, hsuccess⟩

/-! ## What is selected -/

/-- What describes the result: the first response with the least successful code
of those that have a schema, or else the default response if it has one. -/
inductive Selected (store : Store) (document : Value) (entries : Entries) :
    Option SchemaSite → Prop where
  | successful {before after : Entries} {key : Scalar} {raw : Value} {site : SchemaSite}
      (place : entries = before ++ (key, raw) :: after) (success : IsSuccess key = true)
      (offers : Offers store document raw site)
      (least : ∀ entry ∈ entries, IsSuccess entry.1 = true → Qualifies store document entry.2 →
        Text.before entry.1.plain key.plain = false)
      (earliest : ∀ entry ∈ before, IsSuccess entry.1 = true →
        Qualifies store document entry.2 → entry.1.plain ≠ key.plain) :
      Selected store document entries (some site)
  | default {raw : Value} {site : SchemaSite}
      (unsuccessful : ∀ entry ∈ entries, IsSuccess entry.1 = true →
        ¬ Qualifies store document entry.2)
      (listed : entries.value? "default" = some raw) (offers : Offers store document raw site) :
      Selected store document entries (some site)
  | nothing
      (unsuccessful : ∀ entry ∈ entries, IsSuccess entry.1 = true →
        ¬ Qualifies store document entry.2)
      (unlisted : ∀ raw, entries.value? "default" = some raw →
        ¬ Qualifies store document raw) :
      Selected store document entries none

theorem Offers.unique {raw : Value} {site site' : SchemaSite}
    (h : Offers store document raw site) (h' : Offers store document raw site') :
    site = site' := by
  rw [← schema?_eq_some] at h h'
  cases h.symm.trans h'
  rfl

/-- Of two entries of a list that are each the first of their kind, and of one
kind, neither stands before the other. -/
theorem place_unique {α : Type} {before before' after after' : List α} {a a' : α}
    (h : before ++ a :: after = before' ++ a' :: after') (ha : a ∉ before') (ha' : a' ∉ before) :
    a = a' := by
  rcases List.append_eq_append_iff.1 h with ⟨more, rfl, hrest⟩ | ⟨more, rfl, hrest⟩
  · cases more with
    | nil => exact (List.cons.inj hrest).1
    | cons b more =>
        obtain ⟨rfl, -⟩ := List.cons.inj hrest
        simp at ha
  · cases more with
    | nil => exact (List.cons.inj hrest).1.symm
    | cons b more =>
        obtain ⟨rfl, -⟩ := List.cons.inj hrest
        simp at ha'

theorem Selected.unique {entries : Entries} {result result' : Option SchemaSite}
    (h : Selected store document entries result) (h' : Selected store document entries result') :
    result = result' := by
  cases h with
  | @successful before after key raw site place success offers least earliest =>
      have hmem : (key, raw) ∈ entries := place ▸ List.mem_append_right _ List.mem_cons_self
      cases h' with
      | @successful before' after' key' raw' site' place' success' offers' least' earliest' =>
          have hmem' : (key', raw') ∈ entries := place' ▸ List.mem_append_right _ List.mem_cons_self
          have hcode : key.plain = key'.plain := Text.eq_of_not_before
            (least' _ hmem success ⟨_, offers⟩) (least _ hmem' success' ⟨_, offers'⟩)
          have hsame : (key, raw) = (key', raw') := by
            refine place_unique (place.symm.trans place') (fun hbefore => ?_) fun hbefore => ?_
            · exact earliest' _ hbefore success ⟨_, offers⟩ hcode
            · exact earliest _ hbefore success' ⟨_, offers'⟩ hcode.symm
          rw [(Prod.mk.inj hsame).2] at offers
          rw [offers.unique offers']
      | default unsuccessful _ _ => exact absurd ⟨_, offers⟩ (unsuccessful _ hmem success)
      | nothing unsuccessful _ => exact absurd ⟨_, offers⟩ (unsuccessful _ hmem success)
  | default unsuccessful listed offers =>
      cases h' with
      | successful place success offers' _ _ =>
          have hmem := place ▸ List.mem_append_right _ List.mem_cons_self
          exact absurd ⟨_, offers'⟩ (unsuccessful _ hmem success)
      | default _ listed' offers' =>
          cases listed.symm.trans listed'
          rw [offers.unique offers']
      | nothing _ unlisted => exact absurd ⟨_, offers⟩ (unlisted _ listed)
  | nothing unsuccessful unlisted =>
      cases h' with
      | successful place success offers' _ _ =>
          have hmem := place ▸ List.mem_append_right _ List.mem_cons_self
          exact absurd ⟨_, offers'⟩ (unsuccessful _ hmem success)
      | default _ listed offers' => exact absurd ⟨_, offers'⟩ (unlisted _ listed)
      | nothing _ _ => rfl

/-- The responses with a successful code come before the default one. -/
theorem selected_of_firstSchema {entries : Entries} {result : Option SchemaSite}
    (h : firstSchema store document (candidates entries) = .ok result) :
    Selected store document entries result := by
  have hcoded : ∀ entry ∈ entries, IsSuccess entry.1 = true →
      entry.2 ∈ (successful entries).map (·.2) := fun entry hentry hsuccess =>
    List.mem_map.2 ⟨coded entry, mem_successful.2 ⟨entry, hentry, hsuccess, rfl⟩, rfl⟩
  cases result with
  | none =>
      have hnone := firstSchema_eq_none h
      rw [candidates, List.forall_mem_append] at hnone
      refine .nothing (fun entry hentry hsuccess => hnone.1 _ (hcoded entry hentry hsuccess)) ?_
      exact fun raw hraw => hnone.2 raw (by simp [hraw])
  | some site =>
      obtain ⟨front, raw, back, hplace, hfront, hoffers⟩ := firstSchema_eq_some h
      rcases List.append_eq_append_iff.1 hplace.symm with
        ⟨more, hmore, hrest⟩ | ⟨more, rfl, hlisted⟩
      · cases more with
        | cons found more =>
            obtain ⟨rfl, -⟩ := List.cons.inj hrest
            obtain ⟨early, late, hsorted, rfl, hlate⟩ := List.map_eq_append_iff.1 hmore
            obtain ⟨⟨code, found⟩, last, rfl, rfl, -⟩ := List.map_eq_cons_iff.1 hlate
            obtain ⟨before, key, after, hentries, rfl, hsuccess, hleast, hearliest⟩ :=
              least_of_successful hsorted
                (fun x hx => hfront x.2 (List.mem_map_of_mem hx)) ⟨site, hoffers⟩
            exact .successful hentries hsuccess hoffers hleast hearliest
        | nil =>
            rw [List.append_nil] at hmore
            refine .default (fun entry hentry hsuccess => ?_) ?_ hoffers
            · exact hfront _ (hmore ▸ hcoded entry hentry hsuccess)
            · rw [List.nil_append] at hrest
              exact Option.mem_toList.1 (hrest ▸ List.mem_cons_self)
      · refine .default (fun entry hentry hsuccess => ?_) ?_ hoffers
        · exact hfront _ (List.mem_append_left _ (hcoded entry hentry hsuccess))
        · exact Option.mem_toList.1 (hlisted ▸ List.mem_append_right _ List.mem_cons_self)

/-! ## The order of responses -/

/-- Responses with different successful codes are met in one order, however they
are listed. -/
theorem candidates_perm {entries entries' : Entries} (h : entries.Distinct)
    (hcodes : ((entries.filter (IsSuccess ·.1)).map (·.1.plain)).Nodup)
    (hperm : entries'.Perm entries) : candidates entries' = candidates entries := by
  have hsorted : successful entries' = successful entries := by
    have hmaps : (successful entries').Perm (successful entries) := by
      rw [successful_eq, successful_eq]
      exact (List.mergeSort_perm _ _).trans
        (((hperm.filter _).map coded).trans (List.mergeSort_perm _ _).symm)
    refine hmaps.eq_of_pairwise (fun a b ha hb hab hba => ?_) (successful_sorted _)
      (successful_sorted _)
    rw [hmaps.mem_iff] at ha
    obtain ⟨entry, hentry, hsuccess, rfl⟩ := mem_successful.1 ha
    obtain ⟨other, hother, hsuccess', rfl⟩ := mem_successful.1 hb
    have hsame := List.inj_on_of_nodup_map hcodes (List.mem_filter.2 ⟨hentry, hsuccess⟩)
      (List.mem_filter.2 ⟨hother, hsuccess'⟩) (Text.eq_of_not_before hba hab)
    rw [hsame]
  rw [candidates, candidates, hsorted, (h.singleValued _).value?_perm hperm]

/-- What a response offers is the same in a store in which the same is found
under every key, and in which its media types stand in the same order. -/
theorem schema?_congr {store' : Store} {raw : Value}
    (hsequences : store'.sequences = store.sequences)
    (hfind : ∀ id key, store'.find? id key = store.find? id key)
    (hlisted : ∀ id c, dereference store raw document = .mapping id →
      store.get id "content" = .mapping c → store'.entries c = store.entries c) :
    schema? store' document raw = schema? store document raw := by
  have hleads := dereference_congr hfind raw document
  have hget : ∀ id key, store'.get id key = store.get id key := fun id key =>
    congrArg (·.getD .null) (hfind id key)
  have hfirst : ∀ content, Parameter.firstSchema store' content =
      Parameter.firstSchema store content := fun content => by
    simp only [Parameter.firstSchema, hget]
  rcases response_cases store document raw with hno | ⟨id, hid, hgiven⟩ | ⟨id, hid, habsent⟩
  · rw [schema?_of_not_mapping hno, schema?_of_not_mapping (by rwa [hleads])]
  · rw [schema?_of_given hid hgiven,
      schema?_of_given (hleads.trans hid) ((hget id "schema").symm ▸ hgiven)]
  have hcontent : store'.entriesOrNone (store.get id "content") =
      store.entriesOrNone (store.get id "content") := by
    cases hc : store.get id "content" with
    | mapping c => exact congrArg Except.ok (hlisted id c hid hc)
    | scalar s => rfl
    | sequence items =>
        simp only [Store.entriesOrNone, Store.truthy, Store.items, hsequences]
        rfl
    | typed kind items =>
        simp only [Store.entriesOrNone, Store.truthy, Store.items, hsequences]
        rfl
  rw [schema?_of_absent hid habsent,
    schema?_of_absent (hleads.trans hid) ((hget _ _).trans habsent), hget, hcontent]
  simp only [hfirst]

theorem firstSchema_congr {store' : Store} {raws : List Value}
    (h : ∀ raw ∈ raws, schema? store' document raw = schema? store document raw) :
    firstSchema store' document raws = firstSchema store document raws := by
  induction raws with
  | nil => rfl
  | cons raw rest ih =>
      obtain ⟨hraw, hrest⟩ := List.forall_mem_cons.1 h
      simp only [firstSchema, hraw, ih hrest]

theorem mem_candidates {entries : Entries} {raw : Value} (h : raw ∈ candidates entries) :
    ∃ entry ∈ entries, (IsSuccess entry.1 = true ∨ entry.1 = .text "default") ∧ entry.2 = raw := by
  rcases List.mem_append.1 h with hsuccess | hdefault
  · obtain ⟨x, hx, rfl⟩ := List.mem_map.1 hsuccess
    obtain ⟨entry, hentry, hcode, rfl⟩ := mem_successful.1 hx
    exact ⟨entry, hentry, .inl hcode, rfl⟩
  · exact ⟨_, Entries.mem_of_value? (Option.mem_toList.1 hdefault), .inr rfl, rfl⟩

theorem success_eq {details : Value} {r : Nat}
    (h : store.member details "responses" = .ok (.mapping r)) :
    success store details document = firstSchema store document (candidates (store.entries r)) := by
  rw [success, h]
  rfl

/-- Of the responses of an operation, the result is described by the one that is
`Selected`, and by no other. It is found unless a response that may be met is
malformed. If no two successful codes have one text, it does not matter in which
order the responses are listed: neither if they are listed in another mapping,
nor if their own is put in another order, as long as that is not the mapping in
which one of them lists its media types. -/
theorem success_selects (store : Store) (document : Value) {details : Value} {r : Nat}
    (hresponses : store.member details "responses" = .ok (.mapping r)) :
    (∀ result, success store details document = .ok result →
      ∀ other, Selected store document (store.entries r) other ↔ other = result) ∧
    ((∀ entry ∈ store.entries r, IsSuccess entry.1 = true ∨ entry.1 = .text "default" →
        ¬ Malformed store document entry.2) →
      ∃ result, success store details document = .ok result) ∧
    ((store.entries r).Distinct →
      (((store.entries r).filter (IsSuccess ·.1)).map (·.1.plain)).Nodup →
      (∀ details' r', store.member details' "responses" = .ok (.mapping r') →
        (store.entries r').Perm (store.entries r) →
        success store details' document = success store details document) ∧
      ∀ entries', entries'.Perm (store.entries r) →
        (∀ entry ∈ store.entries r, ∀ id, dereference store entry.2 document = .mapping id →
          store.get id "content" ≠ .mapping r) →
        success (store.setEntries r entries') details document =
          success store details document) := by
  refine ⟨fun result hresult other => ?_, fun hsound => ?_, fun hdistinct hcodes => ⟨?_, ?_⟩⟩
  · rw [success_eq hresponses] at hresult
    have hselected := selected_of_firstSchema hresult
    exact ⟨fun hother => hother.unique hselected, fun hsame => hsame ▸ hselected⟩
  · rw [success_eq hresponses]
    refine firstSchema_of_sound fun raw hraw => ?_
    obtain ⟨entry, hentry, hcode, rfl⟩ := mem_candidates hraw
    exact hsound entry hentry hcode
  · intro details' r' hresponses' hperm
    rw [success_eq hresponses', success_eq hresponses, candidates_perm hdistinct hcodes hperm]
  · intro entries' hperm hapart
    have hfind := Store.find?_setEntries hdistinct hperm
    have hresponses' : (store.setEntries r entries').member details "responses" =
        .ok (.mapping r) := by
      rw [← hresponses]
      cases details with
      | mapping d => exact congrArg (fun v => Except.ok (v.getD .null)) (hfind d "responses")
      | scalar s | sequence id | typed kind id => rfl
    rw [success_eq hresponses', success_eq hresponses, Store.entries_setEntries_perm hperm,
      candidates_perm hdistinct hcodes hperm]
    refine firstSchema_congr fun raw hraw => schema?_congr rfl hfind fun id c hid hc => ?_
    obtain ⟨entry, hentry, -, rfl⟩ := mem_candidates hraw
    refine Store.entries_setEntries_ne fun hsame => ?_
    exact hapart entry hentry id hid (hsame ▸ hc)

/-- An operation with four responses, by number and by text: one without a
schema, one with a schema of its media type, one that refers to the default one,
and that. They are listed in two orders. -/
def fourResponses : Store where
  mappings := #[
    [(.text "type", .text "string")],
    [(.text "schema", .mapping 0)],
    [(.text "$ref", .text "#/Pet")],
    [(.text "description", .text "Nothing")],
    [(.text "json", .mapping 1)],
    [(.text "content", .mapping 4)],
    [(.text "default", .mapping 1), (.text "202", .mapping 2), (.int 201, .mapping 5),
      (.text "200", .mapping 3)],
    [(.text "200", .mapping 3), (.int 201, .mapping 5), (.text "default", .mapping 1),
      (.text "202", .mapping 2)],
    [(.text "responses", .mapping 6)],
    [(.text "responses", .mapping 7)],
    [(.text "Pet", .mapping 1)]]

/-- The response 201 comes before 202, and 200 has no schema. -/
theorem success_selects_of_four :
    success fourResponses (.mapping 8) (.mapping 10) = .ok (some (.content (.mapping 0))) ∧
      success fourResponses (.mapping 9) (.mapping 10) = .ok (some (.content (.mapping 0))) ∧
      success (fourResponses.setEntries 6 (fourResponses.entries 7)) (.mapping 8) (.mapping 10) =
        .ok (some (.content (.mapping 0))) := by
  have hresponses : fourResponses.member (.mapping 8) "responses" = .ok (.mapping 6) := rfl
  obtain ⟨hselects, hfound, horder⟩ := success_selects fourResponses (.mapping 10) hresponses
  have hsound : ∀ entry ∈ fourResponses.entries 6,
      (schema? fourResponses (.mapping 10) entry.2).isOk = true := by
    decide +kernel
  obtain ⟨result, hresult⟩ := hfound fun entry hentry _ hmalformed => by
    obtain ⟨fault, hfault⟩ := malformed_iff.1 hmalformed
    have hok := hsound entry hentry
    rw [hfault] at hok
    cases hok
  have hleast : ∀ entry ∈ fourResponses.entries 6, IsSuccess entry.1 = true →
      schema? fourResponses (.mapping 10) entry.2 ≠ .ok none →
        Text.before entry.1.plain "201" = false := by
    decide +kernel
  have hearliest : ∀ entry ∈ (fourResponses.entries 6).take 2, IsSuccess entry.1 = true →
      entry.1.plain ≠ "201" := by
    decide +kernel
  have hselected : Selected fourResponses (.mapping 10) (fourResponses.entries 6)
      (some (.content (.mapping 0))) := by
    have hplace : fourResponses.entries 6 =
        (fourResponses.entries 6).take 2 ++ (.int 201, .mapping 5) :: [(.text "200", .mapping 3)] :=
      rfl
    refine .successful hplace (by decide +kernel) (schema?_eq_some.1 (by decide +kernel)) ?_ ?_
    · exact fun entry hentry hsuccess hqualifies =>
        hleast entry hentry hsuccess fun hnone => not_qualifies_of_none hnone hqualifies
    · exact fun entry hentry hsuccess _ => hearliest entry hentry hsuccess
  obtain rfl := (hselects result hresult _).1 hselected
  have hperm : (fourResponses.entries 7).Perm (fourResponses.entries 6) := by
    decide +kernel
  have hapart : ∀ entry ∈ fourResponses.entries 6,
      ∀ id ∈ (dereference fourResponses entry.2 (.mapping 10)).mapping?,
        fourResponses.get id "content" ≠ .mapping 6 := by
    decide +kernel
  obtain ⟨hlisted, hmoved⟩ := horder (by decide +kernel) (by decide +kernel)
  refine ⟨hresult, ?_, ?_⟩
  · rw [hlisted _ 7 rfl hperm, hresult]
  · rw [hmoved _ hperm fun entry hentry id hid => hapart entry hentry id (by rw [hid]; rfl)]
    exact hresult

end Response

end TypedClient
