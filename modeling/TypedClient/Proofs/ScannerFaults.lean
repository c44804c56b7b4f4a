import TypedClient.Proofs.Outcomes
import TypedClient.Yaml.Token

/-!
# Faults of the YAML scanner

What is wrong with a YAML text is an error of its own, which whoever reads the
text reports. Only where a text spells out a number or the code of a character
can a fault come from its making, and this file shows that the scanner has no
others: a number of too many digits, a code that no word holds, and a code
without a character.

`Blames cause x` says so of a step, whichever faults a cause is given for. A step
that makes no number blames no cause at all, so its lemma holds for every one.
-/

namespace TypedClient.Yaml

variable {α β : Type} {cause : Fault → Prop}

/-- A computation may complain about the text, but lets a fault through only for a cause. -/
def Blames (cause : Fault → Prop) (x : Except YamlError α) : Prop :=
  ∀ f, x = .error (.fault f) → cause f

namespace Blames

theorem ok {a : α} : Blames cause (.ok a) := nofun

theorem malformed : Blames cause (.error .malformed : Except YamlError α) := nofun

theorem fault {f : Fault} (h : cause f) :
    Blames cause (.error (.fault f) : Except YamlError α) := by
  rintro _ ⟨⟩
  exact h

theorem ite {p : Prop} [Decidable p] {x y : Except YamlError α} (hx : Blames cause x)
    (hy : Blames cause y) : Blames cause (if p then x else y) := by
  split
  · exact hx
  · exact hy

theorem bind {x : Except YamlError α} {next : α → Except YamlError β} (h : Blames cause x)
    (hnext : ∀ a, Blames cause (next a)) : Blames cause (x >>= next) := by
  intro f hf
  rcases bind_eq_error.1 hf with hf | ⟨a, -, hf⟩
  · exact h f hf
  · exact hnext a f hf

end Blames

/-! ## Scanning -/

/-- What a number or a character of the text itself may be: too long, or no such character. -/
inductive Unrepresentable : Fault → Prop
  | digits : Unrepresentable .tooManyDigits
  | code : Unrepresentable .tooLarge
  | character : Unrepresentable .badCharacter

theorem skipBlankLine_blames (c : Cursor) : Blames cause c.skipBlankLine := .ite .ok .malformed

theorem quotedBreaks_blames (fuel : Nat) (c : Cursor) : Blames cause (quotedBreaks fuel c) := by
  induction fuel generalizing c with
  | zero => exact .ok
  | succ fuel ih =>
      refine .ite .malformed ?_
      dsimp only
      split
      · exact .ok
      · exact (ih _).bind fun _ => .ok

theorem quotedSpaces_blames (c : Cursor) : Blames cause (quotedSpaces c) := by
  unfold quotedSpaces
  dsimp only
  split
  · exact .malformed
  · exact .ite .ok ((quotedBreaks_blames _ _).bind fun _ => .ok)

theorem escape_blames (c : Cursor) : Blames Unrepresentable (escape c) := by
  unfold escape
  split
  · exact .malformed
  · split
    · exact .ok
    · dsimp only
      split
      · exact .ite .malformed (.ite (.fault .code) (.ite (.fault .character) .ok))
      · exact .malformed
    · exact .ite (quotedBreaks_blames _ _) .malformed

theorem doubleQuoted_blames (fuel : Nat) (c : Cursor) :
    Blames Unrepresentable (doubleQuoted fuel c) := by
  induction fuel generalizing c with
  | zero => exact .malformed
  | succ fuel ih =>
      unfold doubleQuoted
      split
      · exact .malformed
      · have hmore (found : List Char × Cursor) : Blames Unrepresentable (do
            let more ← doubleQuoted fuel found.2
            return (found.1 ++ more.1, more.2)) := (ih _).bind fun _ => .ok
        refine .ite .ok (.ite ?_ (.ite ?_ (Blames.ok.bind hmore)))
        · exact (escape_blames _).bind hmore
        · exact (quotedSpaces_blames _).bind hmore

theorem singleQuoted_blames (fuel : Nat) (c : Cursor) : Blames cause (singleQuoted fuel c) := by
  induction fuel generalizing c with
  | zero => exact .malformed
  | succ fuel ih =>
      unfold singleQuoted
      split
      · exact .malformed
      · have hmore (found : List Char × Cursor) : Blames cause (do
            let more ← singleQuoted fuel found.2
            return (found.1 ++ more.1, more.2)) := (ih _).bind fun _ => .ok
        refine .ite .ok (.ite (Blames.ok.bind hmore) (.ite ?_ (Blames.ok.bind hmore)))
        exact (quotedSpaces_blames _).bind hmore

theorem quotedScalar_blames (c : Cursor) : Blames Unrepresentable (quotedScalar c) :=
  .ite ((doubleQuoted_blames _ _).bind fun _ => .ok) ((singleQuoted_blames _ _).bind fun _ => .ok)

theorem blockScalar_blames (fold : Bool) (indent : Int) (c : Cursor) :
    Blames cause (blockScalar fold indent c) := by
  unfold blockScalar
  refine Blames.bind ?_ fun _ => ?_
  · unfold blockHead
    split
    split
    · exact .malformed
    · exact (skipBlankLine_blames _).bind fun _ => .ok
  · exact .ok

namespace Scanner

variable (s : Scanner)

theorem dropCandidates_blames (drops : KeyCandidate → Bool) :
    Blames cause (s.dropCandidates drops) := .ite .malformed .ok

theorem dropCandidate_blames : Blames cause s.dropCandidate := s.dropCandidates_blames _

theorem noteCandidate_blames : Blames cause s.noteCandidate :=
  .ite .ok (s.dropCandidate_blames.bind fun _ => .ok)

theorem openBlockHere_blames (t : Token) : Blames cause (s.openBlockHere t) :=
  .ite .ok (.ite .malformed .ok)

theorem openedBlock_blames (t : Token) {next : Scanner → Scanner} : Blames cause (do
    let s ← (← s.openBlockHere t).dropCandidate
    return next s) :=
  (s.openBlockHere_blames t).bind fun s => s.dropCandidate_blames.bind fun _ => .ok

theorem flowEnd_blames (t : Token) : Blames cause (s.flowEnd t) :=
  .ite .malformed (s.dropCandidate_blames.bind fun _ => .ok)

theorem value_blames : Blames cause s.value := by
  unfold value
  split
  · exact .ok
  · exact s.openedBlock_blames _

theorem word_blames (c : Cursor) : Blames cause (word c) := by
  unfold word
  split
  · exact .malformed
  · exact .ok

theorem anchored_blames (t : String → Token) : Blames cause (s.anchored t) :=
  s.noteCandidate_blames.bind fun _ => (word_blames _).bind fun _ => .ite .malformed .ok

theorem tagBytes_blames (fuel : Nat) (c : Cursor) : Blames cause (tagBytes fuel c) := by
  induction fuel generalizing c with
  | zero => exact .ok
  | succ fuel ih =>
      refine .ite .ok ?_
      dsimp only
      split
      · exact .ite .malformed ((ih _).bind fun _ => .ok)
      · exact .malformed

theorem tagText_blames (fuel : Nat) (c : Cursor) : Blames cause (tagText fuel c) := by
  induction fuel generalizing c with
  | zero => exact .ok
  | succ fuel ih =>
      unfold tagText
      split
      · exact .ok
      · refine .ite .ok (.ite ((ih _).bind fun _ => .ok) ?_)
        refine (tagBytes_blames _ _).bind fun _ => ?_
        dsimp only
        split
        · exact .malformed
        · exact (ih _).bind fun _ => .ok

theorem tagSuffix_blames (c : Cursor) : Blames cause (tagSuffix c) := by
  unfold tagSuffix
  refine (tagText_blames _ _).bind fun _ => ?_
  split
  · exact .malformed
  · exact .ok

theorem tagHandle_blames (c : Cursor) : Blames cause (tagHandle c) :=
  .ite .malformed (.ite .ok (.ite .malformed .ok))

theorem tagToken_blames (c : Cursor) : Blames cause (tagToken c) := by
  unfold tagToken
  split
  · exact (tagSuffix_blames _).bind fun _ => .ite .malformed .ok
  · refine .ite .ok (.ite ?_ ?_)
    · exact (tagHandle_blames _).bind fun _ => (tagSuffix_blames _).bind fun _ => .ok
    · exact (tagSuffix_blames _).bind fun _ => .ok

theorem tagged_blames : Blames cause s.tagged :=
  s.noteCandidate_blames.bind fun _ => (tagToken_blames _).bind fun _ => .ite .malformed .ok

theorem directiveNumber_blames (c : Cursor) : Blames Unrepresentable (directiveNumber c) := by
  unfold directiveNumber
  split
  · exact .malformed
  · exact .ite (.fault .digits) .ok

theorem directiveToken_blames (name : String) (c : Cursor) :
    Blames Unrepresentable (directiveToken name c) := by
  refine .ite ?_ (.ite ?_ .ok)
  · refine (directiveNumber_blames _).bind fun (major, c) => ?_
    refine .ite .malformed ((directiveNumber_blames _).bind fun (minor, c) => ?_)
    exact .ite .malformed .ok
  · refine (tagHandle_blames _).bind fun (handle, c) => ?_
    refine .ite .malformed ((tagSuffix_blames _).bind fun (leading, c) => ?_)
    exact .ite .malformed .ok

theorem directive_blames : Blames Unrepresentable s.directive := by
  refine (dropCandidate_blames _).bind fun _ => (word_blames _).bind fun _ => .ite .malformed ?_
  exact (directiveToken_blames _ _).bind fun _ => (skipBlankLine_blames _).bind fun _ => .ok

theorem documentMark_blames (t : Token) : Blames cause (s.documentMark t) :=
  (dropCandidate_blames _).bind fun _ => .ok

theorem flowStart_blames (t : Token) : Blames cause (s.flowStart t) :=
  s.noteCandidate_blames.bind fun _ => .ok

theorem flowEntry_blames : Blames cause s.flowEntry := s.dropCandidate_blames.bind fun _ => .ok

theorem block_blames (fold : Bool) : Blames cause (s.block fold) :=
  s.dropCandidate_blames.bind fun _ => (blockScalar_blames _ _ _).bind fun _ => .ok

theorem quoted_blames : Blames Unrepresentable s.quoted :=
  s.noteCandidate_blames.bind fun _ => (quotedScalar_blames _).bind fun _ => .ok

theorem plain_blames : Blames cause s.plain := s.noteCandidate_blames.bind fun _ => .ok

theorem next_blames (ch : Char) : Blames Unrepresentable (s.next ch) :=
  .ite s.directive_blames <|
  .ite (s.documentMark_blames _) <|
  .ite (s.documentMark_blames _) <|
  .ite (s.flowStart_blames _) <|
  .ite (s.flowStart_blames _) <|
  .ite (s.flowEnd_blames _) <|
  .ite (s.flowEnd_blames _) <|
  .ite s.flowEntry_blames <|
  .ite (s.openedBlock_blames _) <|
  .ite (s.openedBlock_blames _) <|
  .ite s.value_blames <|
  .ite (s.anchored_blames _) <|
  .ite (s.anchored_blames _) <|
  .ite s.tagged_blames <|
  .ite (s.block_blames _) <|
  .ite (s.block_blames _) <|
  .ite s.quoted_blames <|
  .ite s.plain_blames .malformed

theorem step_blames : Blames Unrepresentable s.step := by
  unfold step
  refine (dropCandidates_blames _ _).bind fun _ => ?_
  split
  · exact (dropCandidate_blames _).bind fun _ => .ok
  · exact (next_blames _ _).bind fun _ => .ok

/-- Scanning ends with a fault only where the text writes what no number or character can be. -/
theorem run_error {fuel : Nat} {f : Fault} (h : (run fuel s).error = some (.fault f)) :
    Unrepresentable f := by
  induction fuel generalizing s with
  | zero => cases h
  | succ fuel ih =>
      unfold run at h
      split at h
      · next e hstep =>
          refine s.step_blames f ?_
          rw [hstep, Option.some_inj.1 h]
      · cases h
      · exact ih _ h

end Scanner

end TypedClient.Yaml
