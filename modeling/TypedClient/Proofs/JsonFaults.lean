import Mathlib.Data.List.TakeDrop
import TypedClient.Json.Reader
import TypedClient.Proofs.Outcomes

/-!
# Faults of JSON values

A text that is no JSON gets a complaint with a place. Two things it may have too
much of for any value to be made, which are faults: the digits of an integer, and
containers within one another. Here each of the two is traced back to the text.

Every step of the reader takes characters off the front of the text, so a run of
digits that it meets is a part of the whole, and a container that it enters is
opened by a bracket of the whole. `Reads` says both of a step.
-/

namespace TypedClient.Json

/-- The fault that an error is, unless it complains about the text. -/
def ReadError.fault? : ReadError → Option Fault
  | .problem _ _ => none
  | .tooManyDigits => some .tooManyDigits
  | .tooDeep => some .tooDeep

/-- Whether a character opens a container. -/
def opens (c : Char) : Bool := c = '[' || c = '\x7b'

/-- What a text within a number of containers has too much of. -/
inductive Excess (depth : Nat) (cs : List Char) : Fault → Prop
  | digits {run : List Char} (part : run <:+: cs) (digits : ∀ c ∈ run, c.isDigit = true)
      (many : Numeral.maxDigits < run.length) : Excess depth cs .tooManyDigits
  | containers (many : maxDepth < depth + cs.countP opens) : Excess depth cs .tooDeep

variable {α β : Type} {depth : Nat} {cs rest : List Char} {fault : Fault}

theorem Excess.of_suffix (h : Excess depth rest fault) (hrest : rest <:+ cs) :
    Excess depth cs fault := by
  cases h with
  | digits part digits many => exact .digits (part.trans hrest.isInfix) digits many
  | containers many =>
      refine .containers (Nat.lt_of_lt_of_le many ?_)
      exact Nat.add_le_add_left (hrest.sublist.countP_le) depth

theorem Excess.of_opened {c : Char} (h : Excess (depth + 1) rest fault) (hc : opens c = true) :
    Excess depth (c :: rest) fault := by
  cases h with
  | digits part digits many =>
      exact .digits (part.trans (List.suffix_cons c rest).isInfix) digits many
  | containers many =>
      refine .containers ?_
      rw [List.countP_cons_of_pos hc]
      omega

/-- A step of reading leaves an end of the text, and faults only about an excess. -/
structure Reads (depth : Nat) (cs : List Char) (x : Except ReadError (α × List Char)) : Prop where
  rest : ∀ {a after}, x = .ok (a, after) → after <:+ cs
  fault : ∀ {e f}, x = .error e → e.fault? = some f → Excess depth cs f

namespace Reads

theorem ok {a : α} (h : rest <:+ cs) : Reads depth cs (.ok (a, rest)) where
  rest := by rintro _ _ ⟨⟩; exact h
  fault := nofun

theorem problem {what : Problem} {n : Nat} :
    Reads depth cs (.error (.problem what n) : Except ReadError (α × List Char)) where
  rest := nofun
  fault := by rintro _ _ ⟨⟩ ⟨⟩

theorem of_suffix {x : Except ReadError (α × List Char)} (h : Reads depth rest x)
    (hrest : rest <:+ cs) : Reads depth cs x where
  rest hx := (h.rest hx).trans hrest
  fault hx hf := (h.fault hx hf).of_suffix hrest

theorem of_opened {c : Char} {x : Except ReadError (α × List Char)} (h : Reads (depth + 1) rest x)
    (hc : opens c = true) : Reads depth (c :: rest) x where
  rest hx := (h.rest hx).trans (List.suffix_cons c rest)
  fault hx hf := (h.fault hx hf).of_opened hc

theorem bind {x : Except ReadError (α × List Char)}
    {next : α × List Char → Except ReadError (β × List Char)} (h : Reads depth cs x)
    (hnext : ∀ a after, x = .ok (a, after) → after <:+ cs → Reads depth cs (next (a, after))) :
    Reads depth cs (x >>= next) where
  rest hx := by
    obtain ⟨⟨a, after⟩, ha, hx⟩ := bind_eq_ok.1 hx
    exact (hnext a after ha (h.rest ha)).rest hx
  fault hx hf := by
    rcases bind_eq_error.1 hx with hx | ⟨⟨a, after⟩, ha, hx⟩
    · exact h.fault hx hf
    · exact (hnext a after ha (h.rest ha)).fault hx hf

end Reads

/-! ## Strings -/

theorem codeUnit_reads (cs : List Char) : Reads depth cs (codeUnit cs) := by
  unfold codeUnit
  dsimp only
  split
  · next h => exact .ok (List.drop_suffix 4 cs)
  · exact .problem

theorem codeEscape_reads (cs : List Char) : Reads depth cs (codeEscape cs) := by
  unfold codeEscape
  refine (codeUnit_reads cs).bind fun high rest _ hrest => ?_
  dsimp only
  split
  · next more _ _ =>
      split
      · exact .ok hrest
      · have hmore : more <:+ cs :=
          ((List.suffix_cons 'u' more).trans (List.suffix_cons '\\' _)).trans hrest
        refine ((codeUnit_reads more).of_suffix hmore).bind fun low after _ hafter => ?_
        dsimp only
        split
        · exact .ok hafter
        · exact .ok hrest
  · exact .ok hrest

theorem stringRest_reads (start fuel : Nat) (acc cs : List Char) :
    Reads depth cs (stringRest start fuel acc cs) := by
  induction fuel generalizing acc cs with
  | zero => exact .problem
  | succ fuel ih =>
      cases cs with
      | nil => exact .problem
      | cons c rest =>
          have hrest : rest <:+ c :: rest := List.suffix_cons c rest
          simp only [stringRest]
          split
          · exact .ok hrest
          · split
            · split
              · exact .problem
              · next more =>
                  have hmore : more <:+ c :: 'u' :: more := (List.suffix_cons 'u' more).trans hrest
                  refine (codeEscape_reads more).of_suffix hmore |>.bind fun d after _ hafter => ?_
                  exact (ih _ after).of_suffix hafter
              · next d more _ =>
                  have hmore : more <:+ c :: d :: more := (List.suffix_cons d more).trans hrest
                  split
                  · exact (ih _ more).of_suffix hmore
                  · exact .problem
            · split
              · exact .problem
              · exact (ih _ rest).of_suffix hrest

/-! ## Numerals -/

theorem span_suffix {p : Char → Bool} {taken : List Char} (h : cs.span p = (taken, rest)) :
    rest <:+ cs := by
  rw [List.span_eq_takeWhile_dropWhile] at h
  rw [← (Prod.mk.inj h).2]
  exact List.dropWhile_suffix p

/-- The whole part of a numeral is a run of digits at the start of it. -/
theorem wholePart_spec {whole : List Char} (h : wholePart cs = some (whole, rest)) :
    cs = whole ++ rest ∧ ∀ c ∈ whole, c.isDigit = true := by
  unfold wholePart at h
  split at h
  · cases h
    refine ⟨rfl, fun c hc => ?_⟩
    rw [List.mem_singleton.1 hc]
    rfl
  · split at h
    · next c tail _ hdigit =>
        rw [List.span_eq_takeWhile_dropWhile, Option.some_inj, Prod.mk.injEq] at h
        obtain ⟨rfl, rfl⟩ := h
        refine ⟨List.takeWhile_append_dropWhile.symm, fun c hc => ?_⟩
        exact List.all_eq_true.1 List.all_takeWhile c hc
    · cases h
  · cases h

theorem fractionPart_suffix {digits : List Char} (h : fractionPart cs = some (digits, rest)) :
    rest <:+ cs := by
  unfold fractionPart at h
  split at h
  · next tail =>
      split at h
      · cases h
      · next hspan =>
          cases h
          exact (span_suffix hspan).trans (List.suffix_cons '.' tail)
  · cases h

theorem exponentPart_suffix {exponent : Int} (h : exponentPart cs = some (exponent, rest)) :
    rest <:+ cs := by
  unfold exponentPart at h
  extract_lets signed at h
  -- With a sign of either kind or with none, what is left is left of the digits.
  have hdigits : ∀ {negative : Bool} {tail : List Char},
      signed negative tail = some (exponent, rest) → rest <:+ tail := by
    intro negative tail h
    dsimp only [signed] at h
    split at h
    · cases h
    · next hspan =>
        cases h
        exact span_suffix hspan
  split at h
  · next c tail =>
      have htail : tail <:+ c :: tail := List.suffix_cons c tail
      split at h
      · split at h
        · next more => exact (hdigits h).trans ((List.suffix_cons '-' more).trans htail)
        · next more => exact (hdigits h).trans ((List.suffix_cons '+' more).trans htail)
        · exact (hdigits h).trans htail
      · cases h
  · cases h

/-- A part that may be missing leaves the end of the text, as it does where it is not. -/
theorem optionalPart_suffix {α : Type} {part : Option (α × List Char)} {missing found : α}
    (hpart : ∀ {x after}, part = some (x, after) → after <:+ cs)
    (h : part.getD (missing, cs) = (found, rest)) : rest <:+ cs := by
  cases part with
  | none =>
      cases h
      exact List.suffix_refl cs
  | some read =>
      cases h
      exact hpart rfl

theorem number_reads (cs : List Char) : Reads depth cs (number cs) := by
  unfold number
  split
  next negative unsigned hsigned =>
  have hunsigned : unsigned <:+ cs := by
    split at hsigned
    · cases hsigned; exact List.suffix_cons '-' _
    · cases hsigned; exact List.suffix_refl cs
  split
  · exact .problem
  · next whole rest hwhole =>
      obtain ⟨hparts, hdigits⟩ := wholePart_spec hwhole
      have hrest : rest <:+ cs := List.IsSuffix.trans ⟨whole, hparts.symm⟩ hunsigned
      split
      next fraction afterFraction hfound =>
      have hfraction : afterFraction <:+ cs :=
        (optionalPart_suffix fractionPart_suffix hfound).trans hrest
      split
      · split
        · next hmany =>
            have hpart : whole <:+: cs :=
              List.IsInfix.trans ⟨[], rest, hparts.symm⟩ hunsigned.isInfix
            exact ⟨nofun, by rintro _ _ ⟨⟩ ⟨⟩; exact .digits hpart hdigits hmany⟩
        · exact .ok hrest
      · split
        next exponent after hexponent =>
        exact .ok ((optionalPart_suffix exponentPart_suffix hexponent).trans hfraction)

theorem scalar_reads (cs : List Char) : Reads depth cs (scalar cs) := by
  unfold scalar
  split
  · next s rest hfound =>
      obtain ⟨⟨word, found⟩, -, hword⟩ := List.exists_of_findSome?_eq_some hfound
      obtain ⟨after, hafter, hpair⟩ := Option.map_eq_some_iff.1 hword
      cases hpair
      unfold after? at hafter
      split at hafter
      · cases hafter
        exact .ok (List.drop_suffix _ cs)
      · cases hafter
  · exact number_reads cs

/-! ## Values -/

theorem skipGap_suffix (cs : List Char) : skipGap cs <:+ cs := List.dropWhile_suffix isGap

theorem suffix_of_skipGap {c : Char} (h : skipGap cs = c :: rest) : rest <:+ cs :=
  (List.suffix_cons c rest).trans (h ▸ skipGap_suffix cs)

section Step

variable {fuel : Nat}

theorem value_reads_succ
    (helements : ∀ depth acc cs, Reads depth cs (elements fuel depth acc cs))
    (hmembers : ∀ depth acc cs, Reads depth cs (members fuel depth acc cs)) (cs : List Char) :
    Reads depth cs (value (fuel + 1) depth cs) := by
  unfold value
  cases cs with
  | nil => exact .problem
  | cons c rest =>
      have hrest : rest <:+ c :: rest := List.suffix_cons c rest
      dsimp only
      split
      · refine ((stringRest_reads _ _ [] rest).of_suffix hrest).bind fun s after _ hafter => ?_
        exact .ok hafter
      · split
        · next hdeep =>
            obtain ⟨hc, hmany⟩ : opens c = true ∧ depth ≥ maxDepth := by simpa [opens] using hdeep
            refine ⟨nofun, ?_⟩
            rintro _ _ ⟨⟩ ⟨⟩
            refine .containers ?_
            rw [List.countP_cons_of_pos hc]
            omega
        · split
          · next hc =>
              have hopens : opens c = true := by rw [hc]; decide
              split
              · next after hend => exact .ok ((suffix_of_skipGap hend).trans hrest)
              · have hitems := (helements (depth + 1) [] _).of_suffix (skipGap_suffix rest)
                exact (hitems.of_opened hopens).bind fun items after _ hafter => .ok hafter
          · split
            · next hc =>
                have hopens : opens c = true := by rw [hc]; decide
                split
                · next after hend => exact .ok ((suffix_of_skipGap hend).trans hrest)
                · have hentries := (hmembers (depth + 1) [] _).of_suffix (skipGap_suffix rest)
                  exact (hentries.of_opened hopens).bind fun entries after _ hafter => .ok hafter
            · exact (scalar_reads _).bind fun s after _ hafter => .ok hafter

theorem elements_reads_succ (hvalue : ∀ depth cs, Reads depth cs (value fuel depth cs))
    (helements : ∀ depth acc cs, Reads depth cs (elements fuel depth acc cs))
    (acc : List Tree) (cs : List Char) : Reads depth cs (elements (fuel + 1) depth acc cs) := by
  unfold elements
  refine (hvalue depth cs).bind fun t after _ hafter => ?_
  dsimp only
  split
  · next rest hend => exact .ok ((suffix_of_skipGap hend).trans hafter)
  · next rest hcomma =>
      have hrest := (skipGap_suffix rest).trans ((suffix_of_skipGap hcomma).trans hafter)
      exact (helements depth _ _).of_suffix hrest
  · exact .problem

theorem members_reads_succ (hvalue : ∀ depth cs, Reads depth cs (value fuel depth cs))
    (hmembers : ∀ depth acc cs, Reads depth cs (members fuel depth acc cs))
    (acc : List (Scalar × Tree)) (cs : List Char) :
    Reads depth cs (members (fuel + 1) depth acc cs) := by
  unfold members
  cases cs with
  | nil => exact .problem
  | cons c rest =>
      dsimp only
      split
      · exact .problem
      · refine ((stringRest_reads _ _ [] rest).of_suffix (List.suffix_cons c rest)).bind
          fun name afterName _ hafterName => ?_
        dsimp only
        split
        · next beforeValue hcolon =>
            have hbefore := (skipGap_suffix beforeValue).trans
              ((suffix_of_skipGap hcolon).trans hafterName)
            refine ((hvalue depth _).of_suffix hbefore).bind fun t after _ hafter => ?_
            dsimp only
            split
            · next more hend => exact .ok ((suffix_of_skipGap hend).trans hafter)
            · next more hcomma =>
                have hmore := (skipGap_suffix more).trans ((suffix_of_skipGap hcomma).trans hafter)
                exact (hmembers depth _ _).of_suffix hmore
            · exact .problem
        · exact .problem

end Step

theorem reads_all (fuel : Nat) :
    (∀ depth cs, Reads depth cs (value fuel depth cs)) ∧
    (∀ depth acc cs, Reads depth cs (elements fuel depth acc cs)) ∧
    ∀ depth acc cs, Reads depth cs (members fuel depth acc cs) := by
  induction fuel with
  | zero => exact ⟨fun _ _ => .problem, fun _ _ _ => .problem, fun _ _ _ => .problem⟩
  | succ fuel ih =>
      obtain ⟨hvalue, helements, hmembers⟩ := ih
      exact ⟨fun _ => value_reads_succ helements hmembers,
        fun _ => elements_reads_succ hvalue helements, fun _ => members_reads_succ hvalue hmembers⟩

/-- A text is refused with a fault only if it has too much of something. -/
theorem read_excess {text : String} {e : ReadError} (h : read text = .error e)
    (hfault : e.fault? = some fault) : Excess 0 text.toList fault := by
  unfold read at h
  dsimp only at h
  split at h
  · cases h
    cases hfault
  · rcases bind_eq_error.1 h with h | ⟨⟨t, after⟩, -, h⟩
    · have hgap : skipGap text.toList <:+ text.toList := skipGap_suffix _
      exact (((reads_all _).1 0 _).fault h hfault).of_suffix hgap
    · dsimp only at h
      split at h
      · cases h
      · cases h
        cases hfault

end TypedClient.Json
