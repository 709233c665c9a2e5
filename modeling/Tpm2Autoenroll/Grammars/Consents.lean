import Tpm2Autoenroll.Cutting.Separators
import Tpm2Autoenroll.Grammars.LossyText
import Tpm2Autoenroll.Model.Prompts
import Tpm2Autoenroll.Serving.Requests

/-! Which answers to the consent prompt approve of a re-enrollment, byte for byte. -/

namespace Tpm2Autoenroll

open Text
open Interaction Prog

namespace Text

-----------------------------------------------------------------------------------------
-- The first line
-----------------------------------------------------------------------------------------

/-- Trimming takes a carriage return at the end with it. -/
theorem trimChars_withoutReturn (line : List Char)
    : trimChars (withoutReturn line) = trimChars line := by
  unfold withoutReturn
  split_ifs with ends
  · obtain ⟨front, rfl⟩ := List.getLast?_eq_some_iff.mp ends
    rw [List.dropLast_concat, trimChars_append]
    intro c member
    rw [List.mem_singleton.mp member]
    rfl
  · rfl

theorem trimChars_first (text : List Char)
    : trimChars ((charLines text).head?.getD []) = trimChars (text.takeWhile (· != '\n')) := by
  by_cases broken : '\n' ∈ text
  · obtain ⟨first, rest, rfl, clean⟩ := List.eq_append_cons_of_mem broken
    obtain ⟨piece, more, split⟩ :=
      List.exists_cons_of_ne_nil (List.splitOn_ne_nil '\n' rest)
    have pieces : (first ++ '\n' :: rest).splitOn '\n' = first :: piece :: more := by
      rw [List.splitOn_append_cons_of_beq _ _ (beq_self_eq_true _),
        List.splitOn_eq_singleton clean, split, List.singleton_append]
    have head : (charLines (first ++ '\n' :: rest)).head? = some (withoutReturn first) := by
      unfold charLines
      rw [pieces]
      dsimp only
      rw [List.dropLast_cons_of_ne_nil (List.cons_ne_nil _ _), List.map_cons]
      split <;> rfl
    rw [head, Option.getD_some, trimChars_withoutReturn, Cutting.takeWhile_cut clean]
  · have whole : text.takeWhile (· != '\n') = text :=
      List.takeWhile_eq_self_iff.mpr fun c member =>
        bne_iff_ne.mpr fun same => broken (same ▸ member)
    have head : (charLines text).head?.getD [] = text := by
      unfold charLines
      rw [List.splitOn_eq_singleton broken]
      cases text <;> rfl
    rw [head, whole]

/-- The bytes before the first line feed, or all of them. -/
def firstLine (bytes : Bytes) : Bytes := bytes.takeWhile (· != 0x0a)

/-- Decoding keeps the lines apart. -/
theorem takeWhile_lossyChars (bytes : Bytes)
    : (lossyChars bytes).takeWhile (· != '\n') = lossyChars (firstLine bytes) := by
  by_cases broken : 0x0a ∈ bytes
  · obtain ⟨first, rest, rfl, clean⟩ := List.eq_append_cons_of_mem broken
    have feed : lossyChars (0x0a :: rest) = '\n' :: lossyChars rest :=
      lossyChars_encodeChar '\n' rest
    rw [lossyChars_append (by decide), feed, Cutting.takeWhile_cut (newline_not_mem clean),
      firstLine, Cutting.takeWhile_cut clean]
  · have whole : firstLine bytes = bytes :=
      List.takeWhile_eq_self_iff.mpr fun b member =>
        bne_iff_ne.mpr fun same => broken (same ▸ member)
    rw [whole, List.takeWhile_eq_self_iff]
    exact fun c member => bne_iff_ne.mpr fun same => newline_not_mem broken (same ▸ member)

end Text

namespace Consent

-----------------------------------------------------------------------------------------
-- Words
-----------------------------------------------------------------------------------------

/-- A letter in either case. -/
def AnyCase (c letter : Char) : Prop := c = letter ∨ c = letter.toUpper

/-- The first line is this word in any mix of cases, between white space, in valid UTF-8. -/
def Spells (word : String) (answer : Bytes) : Prop :=
  ∃ before shown after,
    firstLine answer = (before ++ shown ++ after).flatMap String.utf8EncodeChar
    ∧ (∀ c ∈ before, isWhitespace c = true)
    ∧ List.Forall₂ AnyCase shown word.toList
    ∧ ∀ c ∈ after, isWhitespace c = true

/-- A property of every lower case letter, by its value. -/
theorem forall_lower {holds : Char → Prop}
    (all : ∀ n < 128, (Char.ofNat n).isLower = true → holds (Char.ofNat n))
    : ∀ letter : Char, letter.isLower = true → holds letter := by
  intro letter lower
  have ascii : letter.toNat < 128 := by
    have low : letter.val ≤ 'z'.val := of_decide_eq_true (Bool.and_eq_true_iff.mp lower).2
    exact Nat.lt_of_le_of_lt (UInt32.le_iff_toNat_le.mp low) (by decide)
  have found := all letter.toNat ascii
  rw [Char.ofNat_toNat] at found
  exact found lower

/-- Only ASCII letters are letters in another case. -/
theorem toAsciiLowercase_eq_iff {c letter : Char} (lower : letter.isLower = true)
    : toAsciiLowercase c = letter ↔ AnyCase c letter := by
  have values : ∀ letter : Char, letter.isLower = true
      → 97 ≤ letter.toNat ∧ letter.toNat ≤ 122 ∧ letter.toUpper.toNat + 32 = letter.toNat :=
    forall_lower (by decide +kernel)
  obtain ⟨low, high, upper⟩ := values letter lower
  have capital : ('A' ≤ c ∧ c ≤ 'Z') ↔ 65 ≤ c.toNat ∧ c.toNat ≤ 90 := Iff.rfl
  rw [AnyCase, toAsciiLowercase, ← Char.toNat_inj, ← Char.toNat_inj, ← Char.toNat_inj]
  split_ifs with inside <;> rw [capital] at inside
  · have valid : (c.toNat + 32).isValidChar := by omega
    have value : (Char.ofNat (c.toNat + 32)).toNat = c.toNat + 32 := val_ofNat valid
    omega
  · omega

theorem map_toAsciiLowercase_eq_iff {shown word : List Char}
    (lower : ∀ letter ∈ word, letter.isLower = true)
    : shown.map toAsciiLowercase = word ↔ List.Forall₂ AnyCase shown word := by
  induction word generalizing shown with
  | nil => simp
  | cons letter rest ih =>
      obtain ⟨first, others⟩ := List.forall_mem_cons.mp lower
      cases shown with
      | nil => simp
      | cons c more =>
          rw [List.map_cons, List.cons.injEq, toAsciiLowercase_eq_iff first, ih others,
            List.forall₂_cons]

/-- No letter in any case is white space or stands for something invalid. -/
theorem solid_of_letters {shown word : List Char} (letters : List.Forall₂ AnyCase shown word)
    (lower : ∀ letter ∈ word, letter.isLower = true)
    : ∀ c ∈ shown, isWhitespace c = false ∧ c ≠ replacement := by
  have either : ∀ letter : Char, letter.isLower = true
      → (isWhitespace letter = false ∧ letter ≠ replacement)
        ∧ isWhitespace letter.toUpper = false ∧ letter.toUpper ≠ replacement :=
    forall_lower (by decide +kernel)
  induction letters with
  | nil => simp
  | @cons c letter shown word first later ih =>
      obtain ⟨own, others⟩ := List.forall_mem_cons.mp lower
      obtain ⟨small, capital⟩ := either letter own
      refine List.forall_mem_cons.mpr ⟨?_, ih others⟩
      rcases first with rfl | rfl
      · exact small
      · exact capital

/-- What is compared with a word is what stands between the white space of the first line. -/
theorem lowercase_eq_iff {word : String} {answer : Bytes}
    (small : word.toList.all Char.isLower = true)
    : (trimChars ((charLines (lossyChars answer)).head?.getD [])).map toAsciiLowercase
        = word.toList
      ↔ Spells word answer := by
  have lower := List.all_eq_true.mp small
  rw [trimChars_first, takeWhile_lossyChars, map_toAsciiLowercase_eq_iff lower]
  constructor
  · intro letters
    have solid := solid_of_letters letters lower
    obtain ⟨before, after, split, first, last⟩ :=
      (trimChars_eq_iff fun c member => (solid c member).1).mp rfl
    have blank {c : Char} (white : isWhitespace c = true) : c ≠ replacement := by
      rintro rfl
      exact absurd white (by decide)
    -- Neither the white space nor the word has a replacement character.
    have valid : replacement ∉ lossyChars (firstLine answer) := by
      rw [split, List.mem_append, List.mem_append]
      rintro ((member | member) | member)
      · exact blank (first _ member) rfl
      · exact (solid _ member).2 rfl
      · exact blank (last _ member) rfl
    have line := encode_lossyChars valid
    rw [split] at line
    exact ⟨before, _, after, line.symm, first, letters, last⟩
  · rintro ⟨before, shown, after, line, first, letters, last⟩
    have solid := solid_of_letters letters lower
    have trimmed : trimChars (before ++ shown ++ after) = shown :=
      (trimChars_eq_iff fun c member => (solid c member).1).mpr ⟨before, after, rfl, first, last⟩
    rw [line, lossyChars_encode, trimmed]
    exact letters

theorem classifyResponse_yes {answer : Bytes}
    : classifyResponse answer = .yes ↔ Spells "y" answer ∨ Spells "yes" answer := by
  rw [← lowercase_eq_iff rfl, ← lowercase_eq_iff rfl, classifyResponse]
  split_ifs with yes always
  · exact iff_of_true rfl yes
  · exact iff_of_false (by decide) yes
  · exact iff_of_false (by decide) yes

theorem classifyResponse_always {answer : Bytes}
    : classifyResponse answer = .always ↔ Spells "a" answer ∨ Spells "always" answer := by
  rw [← lowercase_eq_iff rfl, ← lowercase_eq_iff rfl, classifyResponse]
  split_ifs with yes always
  · refine iff_of_false (by decide) ?_
    rcases yes with yes | yes <;> rw [yes] <;> decide
  · exact iff_of_true rfl always
  · exact iff_of_false (by decide) always

theorem classifyResponse_no {answer : Bytes}
    : classifyResponse answer = .no
      ↔ ∀ word ∈ ["y", "yes", "a", "always"], ¬ Spells word answer := by
  simp only [List.forall_mem_cons, List.not_mem_nil, false_implies, implies_true, and_true]
  rw [← lowercase_eq_iff rfl, ← lowercase_eq_iff rfl, ← lowercase_eq_iff rfl,
    ← lowercase_eq_iff rfl, classifyResponse]
  split_ifs with yes always
  · exact iff_of_false (by decide) fun none => yes.elim none.1 none.2.1
  · exact iff_of_false (by decide) fun none => always.elim none.2.2.1 none.2.2.2
  · obtain ⟨y, yes⟩ := not_or.mp yes
    obtain ⟨a, always⟩ := not_or.mp always
    exact iff_of_true rfl ⟨y, yes, a, always⟩

/-- Nothing after the first line counts. -/
theorem classifyResponse_firstLine {answer other : Bytes}
    (same : firstLine other = firstLine answer)
    : classifyResponse other = classifyResponse answer := by
  unfold classifyResponse
  simp only [trimChars_first, takeWhile_lossyChars, same]

/-- Only an explicit yes is consent. The answer depends on the first line alone. It is a yes exactly
when that is `y` or `yes` between white space, and an always when it is `a` or `always`, in any mix
of cases and in valid UTF-8; everything else is a no.
-/
theorem explicit_consent (answer : Bytes)
    : (classifyResponse answer = .yes ↔ Spells "y" answer ∨ Spells "yes" answer)
      ∧ (classifyResponse answer = .always ↔ Spells "a" answer ∨ Spells "always" answer)
      ∧ (classifyResponse answer = .no
        ↔ ∀ word ∈ ["y", "yes", "a", "always"], ¬ Spells word answer)
      ∧ ((∀ chars : List Char, firstLine answer ≠ chars.flatMap String.utf8EncodeChar)
        → classifyResponse answer = .no)
      ∧ ∀ other, firstLine other = firstLine answer
        → classifyResponse other = classifyResponse answer := by
  refine ⟨classifyResponse_yes, classifyResponse_always, classifyResponse_no, ?_,
    fun other => classifyResponse_firstLine⟩
  intro invalid
  refine classifyResponse_no.mpr fun word _ spelled => ?_
  obtain ⟨before, shown, after, line, _⟩ := spelled
  exact invalid _ line

/-- Nobody is taken to have agreed without a prompt that succeeded and such an answer to it. -/
theorem ask_explicit {volume device : String} {pcrs : List UInt8} {bank : Tpm2.Bank}
    {trace : Trace} {given : Answer}
    (run : (ask volume device pcrs bank).Runs trace (some given)) (agreed : given ≠ .no)
    : ∃ out, trace = [⟨.child (.askConsent volume device pcrs bank), .ok out⟩]
        ∧ out.status.success = true
        ∧ ∃ word ∈ ["y", "yes", "a", "always"], Spells word out.stdout := by
  obtain ⟨answered, later, rfl, judged⟩ := runs_ask.mp run
  have refused {line : LogLine}
      (returned : (do log line; return Answer.no : Sys Answer).Runs later (some given))
      : False := by
    obtain ⟨_, _, _, ended⟩ := runs_ask.mp returned
    exact agreed (runs_pure_some.mp ended).2
  cases answered with
  | error e => exact (refused judged).elim
  | ok out =>
      dsimp only at judged
      split_ifs at judged with success
      · obtain ⟨rfl, rfl⟩ := runs_pure_some.mp judged
        refine ⟨out, rfl, success, ?_⟩
        by_contra none
        refine agreed (classifyResponse_no.mpr fun word member spelled => ?_)
        exact none ⟨word, member, spelled⟩
      · exact (refused judged).elim

end Consent

end Tpm2Autoenroll
