import Tpm2Autoenroll.Model.Text

/-! Lossy decoding: what is decoded without a replacement character was valid UTF-8, and no sequence
reaches past a byte that does not continue one.
-/

namespace Tpm2Autoenroll.Text

-----------------------------------------------------------------------------------------
-- Bytes and characters
-----------------------------------------------------------------------------------------

theorem val_ofNat {n : Nat} (valid : n.isValidChar) : (Char.ofNat n).val.toNat = n := by
  rw [Char.ofNat, dif_pos valid]
  rfl

theorem toNat_ofNat_of_lt {n : Nat} (small : n < 256) : (UInt8.ofNat n).toNat = n := by
  rw [UInt8.toNat_ofNat', Nat.mod_eq_of_lt small]

theorem isContinuation_iff {b : UInt8}
    : isContinuation b = true ↔ 0x80 ≤ b.toNat ∧ b.toNat ≤ 0xbf := by
  simp [isContinuation, UInt8.le_iff_toNat_le]

theorem secondByte_iff {first second : UInt8}
    : secondByte first second = true
      ↔ 0x80 ≤ second.toNat ∧ second.toNat ≤ 0xbf
        ∧ (first.toNat = 0xe0 → 0xa0 ≤ second.toNat) ∧ (first.toNat = 0xed → second.toNat ≤ 0x9f)
        ∧ (first.toNat = 0xf0 → 0x90 ≤ second.toNat)
        ∧ (first.toNat = 0xf4 → second.toNat ≤ 0x8f) := by
  simp only [secondByte, beq_iff_eq, ← UInt8.toNat_inj, UInt8.reduceToNat]
  split_ifs with e0 ed f0 f4 <;>
    simp only [isContinuation_iff, Bool.and_eq_true, decide_eq_true_eq, UInt8.le_iff_toNat_le,
      UInt8.reduceToNat] <;>
    omega

theorem isContinuation_of_secondByte {first second : UInt8} (fits : secondByte first second = true)
    : isContinuation second = true := by
  obtain ⟨low, high, -⟩ := secondByte_iff.mp fits
  exact isContinuation_iff.mpr ⟨low, high⟩

theorem secondByte_eq_false {first second : UInt8} (apart : isContinuation second = false)
    : secondByte first second = false := by
  refine Bool.eq_false_iff.mpr fun fits => ?_
  have next := isContinuation_of_secondByte fits
  exact Bool.noConfusion (apart.symm.trans next)

theorem utf8Width_cases (b : UInt8)
    : utf8Width b = 1 ∧ b.toNat < 0x80
      ∨ utf8Width b = 2 ∧ 0xc2 ≤ b.toNat ∧ b.toNat ≤ 0xdf
      ∨ utf8Width b = 3 ∧ 0xe0 ≤ b.toNat ∧ b.toNat ≤ 0xef
      ∨ utf8Width b = 4 ∧ 0xf0 ≤ b.toNat ∧ b.toNat ≤ 0xf4
      ∨ utf8Width b = 0 ∧ (0x80 ≤ b.toNat ∧ b.toNat < 0xc2 ∨ 0xf4 < b.toNat) := by
  simp only [utf8Width, Bool.and_eq_true, decide_eq_true_eq, UInt8.le_iff_toNat_le,
    UInt8.lt_iff_toNat_lt, UInt8.reduceToNat]
  split_ifs <;> omega

variable {b b1 b2 b3 : UInt8}

/-- The character of two bytes is encoded as these. -/
theorem encode_two (first : 0xc2 ≤ b.toNat ∧ b.toNat ≤ 0xdf)
    (next : isContinuation b1 = true)
    : String.utf8EncodeChar (Char.ofNat (b.toNat % 32 * 64 + b1.toNat % 64)) = [b, b1] := by
  rw [isContinuation_iff] at next
  have valid : (b.toNat % 32 * 64 + b1.toNat % 64).isValidChar := by omega
  have value := val_ofNat valid
  rw [String.utf8EncodeChar, value, if_neg (by omega), if_pos (by omega)]
  simp only [List.cons.injEq, ← UInt8.toNat_inj, UInt8.toNat_ofNat', and_true]
  omega

theorem encode_three (first : 0xe0 ≤ b.toNat ∧ b.toNat ≤ 0xef)
    (second : secondByte b b1 = true) (next : isContinuation b2 = true)
    : String.utf8EncodeChar
        (Char.ofNat (b.toNat % 16 * 4096 + b1.toNat % 64 * 64 + b2.toNat % 64))
      = [b, b1, b2] := by
  rw [isContinuation_iff] at next
  rw [secondByte_iff] at second
  have valid : (b.toNat % 16 * 4096 + b1.toNat % 64 * 64 + b2.toNat % 64).isValidChar := by omega
  have value := val_ofNat valid
  rw [String.utf8EncodeChar, value, if_neg (by omega), if_neg (by omega), if_pos (by omega)]
  simp only [List.cons.injEq, ← UInt8.toNat_inj, UInt8.toNat_ofNat', and_true]
  omega

theorem encode_four (first : 0xf0 ≤ b.toNat ∧ b.toNat ≤ 0xf4)
    (second : secondByte b b1 = true) (third : isContinuation b2 = true)
    (fourth : isContinuation b3 = true)
    : String.utf8EncodeChar
        (Char.ofNat
          (b.toNat % 8 * 262144 + b1.toNat % 64 * 4096 + b2.toNat % 64 * 64 + b3.toNat % 64))
      = [b, b1, b2, b3] := by
  rw [isContinuation_iff] at third fourth
  rw [secondByte_iff] at second
  have valid : (b.toNat % 8 * 262144 + b1.toNat % 64 * 4096 + b2.toNat % 64 * 64
      + b3.toNat % 64).isValidChar := by
    omega
  have value := val_ofNat valid
  rw [String.utf8EncodeChar, value, if_neg (by omega), if_neg (by omega), if_neg (by omega)]
  simp only [List.cons.injEq, ← UInt8.toNat_inj, UInt8.toNat_ofNat', and_true]
  omega

-----------------------------------------------------------------------------------------
-- One sequence
-----------------------------------------------------------------------------------------

/-- What becomes of the first byte of a text and of those `used` with it. -/
structure Begins (b : UInt8) (rest : Bytes) (c : Char) (used left : Bytes) : Prop where
  split : rest = used ++ left
  decoded : lossyChars (b :: rest) = c :: lossyChars left
  valid : c = replacement ∨ String.utf8EncodeChar c = b :: used
  before : ∀ y more, isContinuation y = false
    → lossyChars (b :: rest ++ y :: more) = c :: lossyChars (left ++ y :: more)

theorem begins_two (width : utf8Width b = 2) (first : 0xc2 ≤ b.toNat ∧ b.toNat ≤ 0xdf)
    (rest : Bytes)
    : ∃ c used left, Begins b rest c used left := by
  rcases rest with _ | ⟨b1, rest⟩
  · refine ⟨_, [], [], rfl, ?_, Or.inl rfl, fun y more apart => ?_⟩
    · simp [lossyChars, width]
    · simp [lossyChars, width, apart]
  · cases next : isContinuation b1 with
    | true =>
        refine ⟨_, [b1], rest, rfl, ?_, Or.inr (encode_two first next), fun y more apart => ?_⟩
        · simp [lossyChars, width, next]
        · simp [lossyChars, width, next]
    | false =>
        refine ⟨_, [], b1 :: rest, rfl, ?_, Or.inl rfl, fun y more apart => ?_⟩
        · simp [lossyChars, width, next]
        · simp [lossyChars, width, next]

theorem begins_three (width : utf8Width b = 3) (first : 0xe0 ≤ b.toNat ∧ b.toNat ≤ 0xef)
    (rest : Bytes)
    : ∃ c used left, Begins b rest c used left := by
  rcases rest with _ | ⟨b1, rest⟩
  · refine ⟨_, [], [], rfl, ?_, Or.inl rfl, fun y more apart => ?_⟩
    · simp [lossyChars, width]
    · cases more <;> simp [lossyChars, width, secondByte_eq_false apart]
  · cases second : secondByte b b1 with
    | false =>
        refine ⟨_, [], b1 :: rest, rfl, ?_, Or.inl rfl, fun y more apart => ?_⟩
        · cases rest <;> simp [lossyChars, width, second]
        · cases rest <;> simp [lossyChars, width, second]
    | true =>
        rcases rest with _ | ⟨b2, rest⟩
        · refine ⟨_, [b1], [], rfl, ?_, Or.inl rfl, fun y more apart => ?_⟩
          · simp [lossyChars, width, second]
          · simp [lossyChars, width, second, apart]
        · cases third : isContinuation b2 with
          | false =>
              refine ⟨_, [b1], b2 :: rest, rfl, ?_, Or.inl rfl, fun y more apart => ?_⟩
              · simp [lossyChars, width, second, third]
              · simp [lossyChars, width, second, third]
          | true =>
              refine ⟨_, [b1, b2], rest, rfl, ?_, Or.inr (encode_three first second third),
                fun y more apart => ?_⟩
              · simp [lossyChars, width, second, third]
              · simp [lossyChars, width, second, third]

theorem begins_four (width : utf8Width b = 4) (first : 0xf0 ≤ b.toNat ∧ b.toNat ≤ 0xf4)
    (rest : Bytes)
    : ∃ c used left, Begins b rest c used left := by
  rcases rest with _ | ⟨b1, rest⟩
  · refine ⟨_, [], [], rfl, ?_, Or.inl rfl, fun y more apart => ?_⟩
    · simp [lossyChars, width]
    · rcases more with _ | ⟨m, _ | ⟨m', more⟩⟩ <;>
        simp [lossyChars, width, secondByte_eq_false apart]
  · cases second : secondByte b b1 with
    | false =>
        refine ⟨_, [], b1 :: rest, rfl, ?_, Or.inl rfl, fun y more apart => ?_⟩
        · rcases rest with _ | ⟨b2, _ | ⟨b3, rest⟩⟩ <;> simp [lossyChars, width, second]
        · rcases rest with _ | ⟨b2, _ | ⟨b3, rest⟩⟩
          · cases more <;> simp [lossyChars, width, second]
          · simp [lossyChars, width, second]
          · simp [lossyChars, width, second]
    | true =>
        rcases rest with _ | ⟨b2, rest⟩
        · refine ⟨_, [b1], [], rfl, ?_, Or.inl rfl, fun y more apart => ?_⟩
          · simp [lossyChars, width, second]
          · cases more <;> simp [lossyChars, width, second, apart]
        · cases third : isContinuation b2 with
          | false =>
              refine ⟨_, [b1], b2 :: rest, rfl, ?_, Or.inl rfl, fun y more apart => ?_⟩
              · cases rest <;> simp [lossyChars, width, second, third]
              · cases rest <;> simp [lossyChars, width, second, third]
          | true =>
              rcases rest with _ | ⟨b3, rest⟩
              · refine ⟨_, [b1, b2], [], rfl, ?_, Or.inl rfl, fun y more apart => ?_⟩
                · simp [lossyChars, width, second, third]
                · simp [lossyChars, width, second, third, apart]
              · cases fourth : isContinuation b3 with
                | false =>
                    refine ⟨_, [b1, b2], b3 :: rest, rfl, ?_, Or.inl rfl, fun y more apart => ?_⟩
                    · simp [lossyChars, width, second, third, fourth]
                    · simp [lossyChars, width, second, third, fourth]
                | true =>
                    refine ⟨_, [b1, b2, b3], rest, rfl, ?_,
                      Or.inr (encode_four first second third fourth), fun y more apart => ?_⟩
                    · simp [lossyChars, width, second, third, fourth]
                    · simp [lossyChars, width, second, third, fourth]

theorem exists_begins (b : UInt8) (rest : Bytes) : ∃ c used left, Begins b rest c used left := by
  rcases utf8Width_cases b with ⟨width, first⟩ | ⟨width, first⟩ | ⟨width, first⟩ | ⟨width, first⟩
    | ⟨width, other⟩
  · have encoded : String.utf8EncodeChar (Char.ofNat b.toNat) = [b] := by
      rw [String.utf8EncodeChar, val_ofNat (by omega), if_pos (by omega), UInt8.ofNat_toNat]
    refine ⟨_, [], rest, rfl, ?_, Or.inr encoded, fun y more apart => ?_⟩
    · simp [lossyChars, width]
    · simp [lossyChars, width]
  · exact begins_two width first rest
  · exact begins_three width first rest
  · exact begins_four width first rest
  · refine ⟨_, [], rest, rfl, ?_, Or.inl rfl, fun y more apart => ?_⟩
    · simp [lossyChars, width]
    · simp [lossyChars, width]

-----------------------------------------------------------------------------------------
-- Texts
-----------------------------------------------------------------------------------------

/-- Induction along a decoding, from one sequence to the next. -/
theorem lossy_induction {motive : Bytes → Prop} (nil : motive [])
    (cons : ∀ b rest c used left, Begins b rest c used left → motive left → motive (b :: rest))
    (bytes : Bytes)
    : motive bytes := by
  induction size : bytes.length using Nat.strongRecOn generalizing bytes with
  | ind n ih =>
      cases bytes with
      | nil => exact nil
      | cons b rest =>
          obtain ⟨c, used, left, begins⟩ := exists_begins b rest
          have shorter : left.length < n := by
            rw [← size, begins.split, List.length_cons, List.length_append]
            omega
          exact cons b rest c used left begins (ih _ shorter left rfl)

/-- No sequence goes on past a byte that continues none. -/
theorem lossyChars_append {y : UInt8} (apart : isContinuation y = false) (bytes more : Bytes)
    : lossyChars (bytes ++ y :: more) = lossyChars bytes ++ lossyChars (y :: more) := by
  induction bytes using lossy_induction with
  | nil => simp [lossyChars]
  | cons b rest c used left begins ih =>
      rw [begins.before y more apart, begins.decoded, ih, List.cons_append]

theorem newline_not_mem {bytes : Bytes} (clean : 0x0a ∉ bytes) : '\n' ∉ lossyChars bytes := by
  induction bytes using lossy_induction with
  | nil => simp [lossyChars]
  | cons b rest c used left begins ih =>
      rw [begins.decoded, List.mem_cons, not_or]
      rw [begins.split, List.mem_cons, List.mem_append, not_or, not_or] at clean
      refine ⟨?_, ih clean.2.2⟩
      rintro rfl
      rcases begins.valid with other | encoded
      · exact absurd other (by decide)
      · exact clean.1 (List.cons.inj encoded).1

/-- What is decoded without a replacement was valid. -/
theorem encode_lossyChars {bytes : Bytes} (valid : replacement ∉ lossyChars bytes)
    : (lossyChars bytes).flatMap String.utf8EncodeChar = bytes := by
  induction bytes using lossy_induction with
  | nil => simp [lossyChars]
  | cons b rest c used left begins ih =>
      rw [begins.decoded, List.mem_cons, not_or] at valid
      rw [begins.decoded, List.flatMap_cons, ih valid.2]
      rcases begins.valid with other | encoded
      · exact absurd other.symm valid.1
      · rw [encoded, begins.split, List.cons_append]

/-- What a character is encoded as is decoded as that character, by how many bytes it takes. -/
theorem lossyChars_encodeChar (c : Char) (rest : Bytes)
    : lossyChars (String.utf8EncodeChar c ++ rest) = c :: lossyChars rest := by
  have valid : c.val.toNat.isValidChar := c.valid
  have same : Char.ofNat c.val.toNat = c := Char.ofNat_toNat c
  unfold String.utf8EncodeChar
  generalize c.val.toNat = v at valid same
  have continues {n : Nat} : isContinuation (UInt8.ofNat (n % 64 + 0x80)) = true := by
    rw [isContinuation_iff, toNat_ofNat_of_lt (by omega)]
    omega
  have six {n : Nat} : (UInt8.ofNat (n % 64 + 0x80)).toNat % 64 = n % 64 := by
    rw [toNat_ofNat_of_lt (by omega)]
    omega
  dsimp only
  split_ifs with one two three
  · have value := toNat_ofNat_of_lt (n := v) (by omega)
    have width : utf8Width (UInt8.ofNat v) = 1 := by
      have := utf8Width_cases (UInt8.ofNat v)
      omega
    rw [List.cons_append, List.nil_append, lossyChars.eq_2 _ _ width, value, same]
  · have value := toNat_ofNat_of_lt (n := v / 64 % 32 + 0xc0) (by omega)
    have width : utf8Width (UInt8.ofNat (v / 64 % 32 + 0xc0)) = 2 := by
      have := utf8Width_cases (UInt8.ofNat (v / 64 % 32 + 0xc0))
      omega
    have whole : (v / 64 % 32 + 0xc0) % 32 * 64 + v % 64 = v := by omega
    rw [List.cons_append, List.cons_append, List.nil_append, lossyChars.eq_3 _ _ _ width,
      if_pos continues, six, value, whole, same]
  · have value := toNat_ofNat_of_lt (n := v / 4096 % 16 + 0xe0) (by omega)
    have width : utf8Width (UInt8.ofNat (v / 4096 % 16 + 0xe0)) = 3 := by
      have := utf8Width_cases (UInt8.ofNat (v / 4096 % 16 + 0xe0))
      omega
    have second : secondByte (UInt8.ofNat (v / 4096 % 16 + 0xe0))
        (UInt8.ofNat (v / 64 % 64 + 0x80)) = true := by
      rw [secondByte_iff, value, toNat_ofNat_of_lt (n := v / 64 % 64 + 0x80) (by omega)]
      omega
    have whole : (v / 4096 % 16 + 0xe0) % 16 * 4096 + v / 64 % 64 * 64 + v % 64 = v := by omega
    rw [List.cons_append, List.cons_append, List.cons_append, List.nil_append,
      lossyChars.eq_4 _ _ _ _ width, if_pos second, if_pos continues, six, six, value, whole, same]
  · have value := toNat_ofNat_of_lt (n := v / 262144 % 8 + 0xf0) (by omega)
    have width : utf8Width (UInt8.ofNat (v / 262144 % 8 + 0xf0)) = 4 := by
      have := utf8Width_cases (UInt8.ofNat (v / 262144 % 8 + 0xf0))
      omega
    have second : secondByte (UInt8.ofNat (v / 262144 % 8 + 0xf0))
        (UInt8.ofNat (v / 4096 % 64 + 0x80)) = true := by
      rw [secondByte_iff, value, toNat_ofNat_of_lt (n := v / 4096 % 64 + 0x80) (by omega)]
      omega
    have whole : (v / 262144 % 8 + 0xf0) % 8 * 262144 + v / 4096 % 64 * 4096 + v / 64 % 64 * 64
        + v % 64 = v := by
      omega
    rw [List.cons_append, List.cons_append, List.cons_append, List.cons_append, List.nil_append,
      lossyChars.eq_6 _ _ _ _ _ width, if_pos second, if_pos continues, if_pos continues, six, six,
      six, value, whole, same]

theorem lossyChars_encode (chars : List Char)
    : lossyChars (chars.flatMap String.utf8EncodeChar) = chars := by
  induction chars with
  | nil => simp [lossyChars]
  | cons c rest ih => rw [List.flatMap_cons, lossyChars_encodeChar, ih]

end Tpm2Autoenroll.Text
