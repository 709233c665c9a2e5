import Tpm2Autoenroll.Cutting.Separators
import Tpm2Autoenroll.Model.Peer

/-! The grammar of the names systemd-cryptsetup binds: what each phase looks like, that a name
is of one shape only, and that `bindname.rs` reads exactly that.
-/

namespace Tpm2Autoenroll.Bindname

open Text (Bytes)

variable {name random mark volume rest : Bytes} {phase : Phase}

-----------------------------------------------------------------------------------------
-- The grammar
-----------------------------------------------------------------------------------------

/-- RANDOM: an alphanumeric string. -/
structure Random (random : Bytes) : Prop where
  nonempty : random ≠ []
  alphanumeric : ∀ b ∈ random, isAsciiAlphanumeric b = true

/-- A name that has this infix between RANDOM and its volume. -/
structure Built (name random mark volume : Bytes) : Prop where
  begins : Random random
  named : volume ≠ []
  split : name = random ++ mark ++ volume

/-- A name that goes on after RANDOM with a slash but with no documented infix, and its last
component.
-/
structure Unrecognised (name random rest volume : Bytes) : Prop where
  begins : Random random
  split : name = random ++ 0x2f :: rest
  undocumented : ∀ entry ∈ infixes, ¬ entry.1 <+: 0x2f :: rest
  named : volume ≠ []
  component : 0x2f ∉ volume
  last : ∃ before, 0x2f :: rest = before ++ 0x2f :: volume

/-- No slash is alphanumeric. -/
theorem Random.not_mem (begins : Random random) : 0x2f ∉ random := by
  intro member
  have slash := begins.alphanumeric 0x2f member
  revert slash
  decide

/-- Every documented infix begins with a slash. -/
theorem exists_slash {entry : Bytes × Phase} (documented : entry ∈ infixes)
    : ∃ more, entry.1 = 0x2f :: more := by
  have all : ∀ entry ∈ infixes, entry.1 = 0x2f :: entry.1.tail := by
    decide +kernel
  exact ⟨_, all entry documented⟩

/-- None of the documented infixes is a prefix of another. -/
theorem infixes_prefixFree {one other : Bytes × Phase} (first : one ∈ infixes)
    (second : other ∈ infixes) (inside : one.1 <+: other.1)
    : one = other := by
  have all : ∀ one ∈ infixes, ∀ other ∈ infixes, one.1.isPrefixOf other.1 = true → one = other := by
    decide +kernel
  exact all one first other second (List.isPrefixOf_iff_prefix.mpr inside)

/-- Two documented infixes that the same bytes begin with are the same. -/
theorem infix_unique {one other : Bytes × Phase} (first : one ∈ infixes)
    (second : other ∈ infixes) (begins : one.1 <+: rest) (also : other.1 <+: rest)
    : one = other := by
  rcases List.prefix_or_prefix_of_prefix begins also with inside | inside
  · exact infixes_prefixFree first second inside
  · exact (infixes_prefixFree second first inside).symm

/-- A documented name has one decomposition only. -/
theorem Built.unique {other otherMark otherVolume : Bytes} {otherPhase : Phase}
    (built : Built name random mark volume) (documented : (mark, phase) ∈ infixes)
    (again : Built name other otherMark otherVolume)
    (alsoDocumented : (otherMark, otherPhase) ∈ infixes)
    : random = other ∧ mark = otherMark ∧ phase = otherPhase ∧ volume = otherVolume := by
  obtain ⟨more, rfl⟩ := exists_slash documented
  obtain ⟨otherMore, rfl⟩ := exists_slash alsoDocumented
  have whole : random ++ 0x2f :: (more ++ volume) = other ++ 0x2f :: (otherMore ++ otherVolume) := by
    simpa using built.split.symm.trans again.split
  obtain ⟨rfl, rests⟩ := Cutting.cut_unique built.begins.not_mem again.begins.not_mem whole
  have begins : 0x2f :: otherMore <+: 0x2f :: (more ++ volume) := ⟨otherVolume, by simp [rests]⟩
  have same := infix_unique documented alsoDocumented ⟨volume, rfl⟩ begins
  obtain ⟨⟨_, rfl⟩, rfl⟩ := by simpa using same
  exact ⟨rfl, rfl, rfl, List.append_cancel_left rests⟩

-----------------------------------------------------------------------------------------
-- Matching an infix
-----------------------------------------------------------------------------------------

theorem dropPrefix_eq_some : rest.dropPrefix? mark = some volume ↔ rest = mark ++ volume := by
  simp [List.dropPrefix?_eq_some_iff]

/-- A match is a table entry that the bytes begin with, by induction on the table. -/
theorem mem_of_matchInfix {table : List (Bytes × Phase)}
    (found : matchInfix rest table = some (phase, volume))
    : ∃ mark, (mark, phase) ∈ table ∧ rest = mark ++ volume := by
  induction table with
  | nil => cases found
  | cons entry more ih =>
      obtain ⟨bytes, given⟩ := entry
      cases dropped : rest.dropPrefix? bytes with
      | some left =>
          simp only [matchInfix, dropped, Option.some.injEq, Prod.mk.injEq] at found
          obtain ⟨rfl, rfl⟩ := found
          exact ⟨bytes, List.mem_cons_self, dropPrefix_eq_some.mp dropped⟩
      | none =>
          simp only [matchInfix, dropped] at found
          obtain ⟨mark, member, split⟩ := ih found
          exact ⟨mark, List.mem_cons_of_mem _ member, split⟩

/-- No match means that the bytes begin with no table entry, by induction on the table. -/
theorem matchInfix_eq_none {table : List (Bytes × Phase)}
    : matchInfix rest table = none ↔ ∀ entry ∈ table, ¬ entry.1 <+: rest := by
  induction table with
  | nil => simp [matchInfix]
  | cons entry more ih =>
      obtain ⟨bytes, given⟩ := entry
      have begins : bytes <+: rest ↔ ∃ left, rest.dropPrefix? bytes = some left := by
        simp only [dropPrefix_eq_some]
        exact ⟨fun ⟨left, split⟩ => ⟨left, split.symm⟩, fun ⟨left, split⟩ => ⟨left, split.symm⟩⟩
      rw [List.forall_mem_cons, ← ih]
      cases dropped : rest.dropPrefix? bytes with
      | some left => simp [matchInfix, dropped, begins]
      | none => simp [matchInfix, dropped, begins]

/-- The documented infixes are matched whichever order they are tried in. -/
theorem matchInfix_infixes
    : matchInfix rest infixes = some (phase, volume)
      ↔ ∃ mark, (mark, phase) ∈ infixes ∧ rest = mark ++ volume := by
  refine ⟨mem_of_matchInfix, fun ⟨mark, documented, split⟩ => ?_⟩
  cases found : matchInfix rest infixes with
  | none => exact absurd ⟨volume, split.symm⟩ (matchInfix_eq_none.mp found _ documented)
  | some result =>
      obtain ⟨given, left⟩ := result
      obtain ⟨other, listed, also⟩ := mem_of_matchInfix found
      have same := infix_unique documented listed ⟨volume, split.symm⟩ ⟨left, also.symm⟩
      obtain ⟨rfl, rfl⟩ := Prod.mk.inj same
      rw [List.append_cancel_left (split.symm.trans also)]

-----------------------------------------------------------------------------------------
-- Parsing
-----------------------------------------------------------------------------------------

/-- A name that parses begins with RANDOM and a slash. -/
theorem exists_random {peerName : PeerName} (parsed : parse name = some peerName)
    : ∃ random rest, Random random ∧ name = random ++ 0x2f :: rest := by
  have slash : 0x2f ∈ name := by
    by_contra absent
    have all : ∀ b ∈ name, (b != 0x2f) = true := by
      intro b member
      exact bne_iff_ne.mpr fun same => absent (same ▸ member)
    have nothing : name.dropWhile (· != 0x2f) = [] := List.dropWhile_eq_nil_iff.mpr all
    simp [parse, nothing] at parsed
  obtain ⟨random, rest, rfl, clean⟩ := List.eq_append_cons_of_mem slash
  refine ⟨random, rest, ?_, rfl⟩
  by_contra malformed
  have bad : random = [] ∨ ¬ random.all isAsciiAlphanumeric = true := by
    by_contra sound
    rw [not_or, not_not] at sound
    exact malformed ⟨sound.1, List.all_eq_true.mp sound.2⟩
  simp only [parse, Cutting.takeWhile_cut clean, Cutting.dropWhile_cut clean, if_pos bad,
    List.cons_ne_nil, if_false] at parsed
  cases parsed

/-- What the parser does after RANDOM and a slash. -/
theorem parse_random (begins : Random random)
    : parse (random ++ 0x2f :: rest)
      = match matchInfix (0x2f :: rest) infixes with
        | some (phase, volume) => if volume = [] then none else some ⟨phase, volume⟩
        | none =>
            if Cutting.lastPart 0x2f (0x2f :: rest) = [] then none
            else some ⟨.unknown, Cutting.lastPart 0x2f (0x2f :: rest)⟩ := by
  have sound : ¬ (random = [] ∨ ¬ random.all isAsciiAlphanumeric = true) := by
    rw [not_or, not_not]
    exact ⟨begins.nonempty, List.all_eq_true.mpr begins.alphanumeric⟩
  simp only [parse, Cutting.takeWhile_cut begins.not_mem, Cutting.dropWhile_cut begins.not_mem,
    if_neg sound, List.cons_ne_nil, if_false]
  rfl

/-- After RANDOM and a slash the name has an infix or is not recognised. -/
theorem parse_random_eq_some (begins : Random random)
    : parse (random ++ 0x2f :: rest) = some ⟨phase, volume⟩
      ↔ (∃ mark, (mark, phase) ∈ infixes ∧ 0x2f :: rest = mark ++ volume ∧ volume ≠ [])
        ∨ phase = .unknown
          ∧ Unrecognised (random ++ 0x2f :: rest) random rest volume := by
  rw [parse_random begins]
  cases found : matchInfix (0x2f :: rest) infixes with
  | some result =>
      obtain ⟨given, left⟩ := result
      obtain ⟨mark, documented, split⟩ := matchInfix_infixes.mp found
      have unique : ∀ other, (other, phase) ∈ infixes → 0x2f :: rest = other ++ volume
          → given = phase ∧ left = volume := by
        intro other listed also
        have same := found.symm.trans (matchInfix_infixes.mpr ⟨other, listed, also⟩)
        exact Prod.mk.inj (Option.some.inj same)
      constructor
      · intro parsed
        change (if left = [] then none else some (⟨given, left⟩ : PeerName)) = _ at parsed
        split_ifs at parsed with empty
        obtain ⟨rfl, rfl⟩ := PeerName.mk.inj (Option.some.inj parsed)
        exact Or.inl ⟨mark, documented, split, empty⟩
      · rintro (⟨other, listed, also, named⟩ | ⟨_, unrecognised⟩)
        · obtain ⟨rfl, rfl⟩ := unique other listed also
          exact if_neg named
        · exact absurd ⟨left, split.symm⟩ (unrecognised.undocumented _ documented)
  | none =>
      have undocumented := matchInfix_eq_none.mp found
      have separated : (0x2f : UInt8) ∈ 0x2f :: rest := List.mem_cons_self
      constructor
      · intro parsed
        split_ifs at parsed with empty
        obtain ⟨rfl, rfl⟩ := PeerName.mk.inj (Option.some.inj parsed)
        obtain ⟨component, last⟩ := (Cutting.lastPart_eq separated).mp rfl
        exact Or.inr ⟨rfl, begins, rfl, undocumented, empty, component, last⟩
      · rintro (⟨other, listed, also, _⟩ | ⟨rfl, unrecognised⟩)
        · exact absurd ⟨volume, also.symm⟩ (undocumented _ listed)
        · have last := (Cutting.lastPart_eq separated).mpr
            ⟨unrecognised.component, unrecognised.last⟩
          rw [last]
          exact if_neg unrecognised.named

/-- A name parses as it is built or, without a documented infix, as unrecognised. -/
theorem parse_eq_some
    : parse name = some ⟨phase, volume⟩
      ↔ (∃ random mark, (mark, phase) ∈ infixes ∧ Built name random mark volume)
        ∨ phase = .unknown ∧ ∃ random rest, Unrecognised name random rest volume := by
  constructor
  · intro parsed
    obtain ⟨random, rest, begins, rfl⟩ := exists_random parsed
    rcases (parse_random_eq_some begins).mp parsed with
      ⟨mark, documented, split, named⟩ | ⟨unknown, unrecognised⟩
    · exact Or.inl ⟨random, mark, documented, begins, named, by rw [split, List.append_assoc]⟩
    · exact Or.inr ⟨unknown, random, rest, unrecognised⟩
  · rintro (⟨random, mark, documented, built⟩ | ⟨unknown, random, rest, unrecognised⟩)
    · obtain ⟨more, rfl⟩ := exists_slash documented
      have split : name = random ++ 0x2f :: (more ++ volume) := by simpa using built.split
      rw [split]
      exact (parse_random_eq_some built.begins).mpr
        (Or.inl ⟨_, documented, by simp, built.named⟩)
    · obtain rfl := unrecognised.split
      exact (parse_random_eq_some unrecognised.begins).mpr (Or.inr ⟨unknown, unrecognised⟩)

/-- No two documented infixes stand for one phase. -/
theorem mark_unique {other : Bytes} (documented : (mark, phase) ∈ infixes)
    (also : (other, phase) ∈ infixes)
    : mark = other := by
  have all : ∀ one ∈ infixes, ∀ other ∈ infixes, one.2 = other.2 → one.1 = other.1 := by
    decide +kernel
  exact all _ documented _ also rfl

theorem unknown_undocumented : (mark, Phase.unknown) ∉ infixes := by
  have all : ∀ entry ∈ infixes, entry.2 ≠ .unknown := by
    decide +kernel
  exact fun documented => all _ documented rfl

/-- Another infix than the plain one is never read as the plain one. -/
theorem parse_ne_plain (begins : Random random)
    (infixed : (∃ other, other ≠ Phase.plain ∧ (mark, other) ∈ infixes)
      ∨ mark.head? = some 0x2f ∧ ∀ entry ∈ infixes, ¬ entry.1 <+: mark ++ rest)
    : parse (random ++ mark ++ rest) ≠ some ⟨.plain, volume⟩ := by
  intro parsed
  obtain ⟨plain, documented, built⟩ : ∃ plain, (plain, Phase.plain) ∈ infixes
      ∧ ∃ r, Built (random ++ mark ++ rest) r plain volume := by
    rcases parse_eq_some.mp parsed with ⟨r, plain, documented, built⟩ | ⟨⟨⟩, _⟩
    exact ⟨plain, documented, r, built⟩
  obtain ⟨r, built⟩ := built
  obtain ⟨more, rfl⟩ := exists_slash documented
  obtain ⟨left, rfl⟩ : ∃ left, mark = 0x2f :: left := by
    rcases infixed with ⟨other, _, listed⟩ | ⟨slash, _⟩
    · exact exists_slash listed
    · exact List.head?_eq_some_iff.mp slash
  have whole : random ++ 0x2f :: (left ++ rest) = r ++ 0x2f :: (more ++ volume) := by
    simpa using built.split
  obtain ⟨rfl, rests⟩ := Cutting.cut_unique begins.not_mem built.begins.not_mem whole
  have follows : 0x2f :: more <+: 0x2f :: (left ++ rest) := ⟨volume, by simp [rests]⟩
  rcases infixed with ⟨other, different, listed⟩ | ⟨_, undocumented⟩
  · have same := infix_unique documented listed follows ⟨rest, rfl⟩
    exact different (Prod.mk.inj same).2.symm
  · exact undocumented _ documented follows

/-- A name is in a documented phase exactly when it is RANDOM, that phase's infix and the volume,
which it is in one way only; unrecognised exactly when no documented infix follows RANDOM and the
last component is not empty; and nothing else is a name. No other infix is read as the plain one.
-/
theorem parse_grammar (name : Bytes)
    : (∀ mark phase, (mark, phase) ∈ infixes → ∀ volume,
        parse name = some ⟨phase, volume⟩ ↔ ∃ random, Built name random mark volume)
      ∧ (∀ random mark phase volume other otherMark otherPhase otherVolume,
        (mark, phase) ∈ infixes ∧ Built name random mark volume
          → (otherMark, otherPhase) ∈ infixes ∧ Built name other otherMark otherVolume
          → random = other ∧ mark = otherMark ∧ phase = otherPhase ∧ volume = otherVolume)
      ∧ (∀ volume, parse name = some ⟨.unknown, volume⟩
        ↔ ∃ random rest, Unrecognised name random rest volume)
      ∧ (parse name = none
        ↔ (∀ random mark phase volume,
            (mark, phase) ∈ infixes → ¬ Built name random mark volume)
          ∧ ∀ random rest volume, ¬ Unrecognised name random rest volume)
      ∧ ∀ random mark rest volume, Random random → name = random ++ mark ++ rest
        → (∃ other, other ≠ Phase.plain ∧ (mark, other) ∈ infixes)
            ∨ mark.head? = some 0x2f ∧ (∀ entry ∈ infixes, ¬ entry.1 <+: mark ++ rest)
        → parse name ≠ some ⟨.plain, volume⟩ := by
  refine ⟨?_, ?_, ?_, ?_, ?_⟩
  · intro mark phase documented volume
    rw [parse_eq_some]
    constructor
    · rintro (⟨random, other, listed, built⟩ | ⟨rfl, _⟩)
      · exact ⟨random, mark_unique documented listed ▸ built⟩
      · exact absurd documented unknown_undocumented
    · exact fun ⟨random, built⟩ => Or.inl ⟨random, mark, documented, built⟩
  · intro random mark phase volume other otherMark otherPhase otherVolume one another
    exact one.2.unique one.1 another.2 another.1
  · intro volume
    rw [parse_eq_some]
    constructor
    · rintro (⟨_, _, documented, _⟩ | ⟨_, unrecognised⟩)
      · exact absurd documented unknown_undocumented
      · exact unrecognised
    · exact fun unrecognised => Or.inr ⟨rfl, unrecognised⟩
  · constructor
    · intro nothing
      constructor
      · intro random mark phase volume documented built
        have parsed := parse_eq_some.mpr (Or.inl ⟨random, mark, documented, built⟩)
        rw [nothing] at parsed
        cases parsed
      · intro random rest volume unrecognised
        have parsed := parse_eq_some.mpr (Or.inr ⟨rfl, random, rest, unrecognised⟩)
        rw [nothing] at parsed
        cases parsed
    · intro ⟨unbuilt, recognised⟩
      cases parsed : parse name with
      | none => rfl
      | some peerName =>
          obtain ⟨phase, volume⟩ := peerName
          rcases parse_eq_some.mp parsed with
            ⟨random, mark, documented, built⟩ | ⟨_, random, rest, unrecognised⟩
          · exact absurd built (unbuilt random mark phase volume documented)
          · exact absurd unrecognised (recognised random rest volume)
  · rintro random mark rest volume begins rfl infixed
    exact parse_ne_plain begins infixed

example : parse (Text.asBytes "3f2a/cryptsetup/my-root")
    = some ⟨.plain, Text.asBytes "my-root"⟩ := by decide +kernel

end Tpm2Autoenroll.Bindname
