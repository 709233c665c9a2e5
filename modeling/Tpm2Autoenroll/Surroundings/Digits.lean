import Tpm2Autoenroll.Model.Token

/-! What the fields of a token hold: bytes in hexadecimal and lists of registers. Each is read from
exactly what systemd writes for it.
-/

namespace Tpm2Autoenroll.Token

open Json (Value)
open Text (Bytes)

-----------------------------------------------------------------------------------------
-- Hexadecimal digits
-----------------------------------------------------------------------------------------

/-- A digit is read in either case. -/
theorem hexDigit_ascii {c : Char} {n : Nat} (ascii : c.toNat < 128) (small : n < 16)
    : hexDigit (UInt8.ofNat c.toNat) = some (UInt8.ofNat n) ↔ c.toLower = n.digitChar := by
  have all : ∀ k < 128, ∀ n < 16,
      hexDigit (UInt8.ofNat k) = some (UInt8.ofNat n)
        ↔ (Char.ofNat k).toLower = n.digitChar := by
    decide +kernel
  have here := all c.toNat ascii n small
  rwa [Char.ofNat_toNat] at here

/-- Only ASCII bytes are digits, and they stand for less than sixteen. -/
theorem hexDigit_some {b d : UInt8} (digit : hexDigit b = some d)
    : b.toNat < 128 ∧ d.toNat < 16 := by
  have all : ∀ n < 256,
      (hexDigit (UInt8.ofNat n)).all (fun d => n < 128 ∧ d.toNat < 16) = true := by
    decide +kernel
  have here := all b.toNat b.toNat_lt
  rw [UInt8.ofNat_toNat, digit, Option.all_some] at here
  exact of_decide_eq_true here

theorem utf8EncodeChar_ascii {c : Char} (ascii : c.toNat < 128)
    : String.utf8EncodeChar c = [UInt8.ofNat c.toNat] := by
  have small : c.val.toNat ≤ 127 := Nat.le_of_lt_succ ascii
  rw [String.utf8EncodeChar, if_pos small]
  rfl

/-- No character beyond ASCII begins with an ASCII byte. -/
theorem ascii_of_utf8EncodeChar {c : Char} {b : UInt8} {rest : Bytes}
    (encoded : String.utf8EncodeChar c = b :: rest) (small : b.toNat < 128)
    : c.toNat < 128 := by
  by_contra large
  have wide : ¬ c.val.toNat ≤ 127 := fun low => large (Nat.lt_succ_of_le low)
  rw [String.utf8EncodeChar, if_neg wide] at encoded
  split_ifs at encoded <;>
    · obtain ⟨rfl, -⟩ := List.cons.inj encoded
      rw [UInt8.toNat_ofNat'] at small
      omega

/-- An ASCII byte in an encoding is a character of its own. -/
theorem exists_ascii_of_flatMap {chars : List Char} {b : UInt8} {rest : Bytes}
    (encoded : chars.flatMap String.utf8EncodeChar = b :: rest) (small : b.toNat < 128)
    : ∃ c more, chars = c :: more ∧ c.toNat < 128 ∧ b = UInt8.ofNat c.toNat
      ∧ more.flatMap String.utf8EncodeChar = rest := by
  cases chars with
  | nil => cases encoded
  | cons c more =>
      rw [List.flatMap_cons] at encoded
      obtain ⟨first, others, split⟩ := List.exists_cons_of_ne_nil String.utf8EncodeChar_ne_nil
      rw [split] at encoded
      obtain ⟨rfl, later⟩ := List.cons.inj encoded
      have ascii := ascii_of_utf8EncodeChar split small
      rw [utf8EncodeChar_ascii ascii] at split
      obtain ⟨rfl, rfl⟩ := List.cons.inj split
      exact ⟨c, more, rfl, ascii, rfl, later⟩

/-- A character that is a digit in lower case is an ASCII character. -/
theorem ascii_of_toLower {c : Char} {n : Nat} (small : n < 16) (same : c.toLower = n.digitChar)
    : c.toNat < 128 := by
  have digits : ∀ n < 16, n.digitChar.toNat < 128 := by decide
  by_contra large
  have unchanged : c.toLower = c := by
    refine dif_neg fun upper => large ?_
    have below := UInt32.le_iff_toNat_le.mp upper.2
    exact Nat.lt_of_le_of_lt below (by decide)
  rw [unchanged] at same
  exact large (same ▸ digits n small)

theorem unhexPairs_nil {bytes : Bytes} : unhexPairs bytes = some [] ↔ bytes = [] := by
  constructor
  · intro read
    match bytes with
    | [] => rfl
    | hi :: lo :: rest =>
        simp only [unhexPairs, bind, Option.bind_eq_some_iff] at read
        obtain ⟨_, _, _, _, _, _, impossible⟩ := read
        cases impossible
  · rintro rfl
    rfl

/-- Pairs are read one after the other. -/
theorem unhexPairs_cons {bytes : Bytes} {b : UInt8} {rest : Bytes}
    : unhexPairs bytes = some (b :: rest)
      ↔ ∃ hi lo more high low, bytes = hi :: lo :: more
        ∧ hexDigit hi = some high ∧ hexDigit lo = some low ∧ high * 16 + low = b
        ∧ unhexPairs more = some rest := by
  constructor
  · intro read
    match bytes with
    | hi :: lo :: more =>
        simp only [unhexPairs, bind, Option.bind_eq_some_iff] at read
        obtain ⟨high, first, low, second, others, later, same⟩ := read
        cases same
        exact ⟨hi, lo, more, high, low, rfl, first, second, rfl, later⟩
  · rintro ⟨hi, lo, more, high, low, rfl, first, second, rfl, later⟩
    simp [unhexPairs, first, second, later]

/-- The characters of a text are read in pairs of digits, whatever their case; by induction on
what is read.
-/
theorem unhexPairs_chars {chars : List Char} {bytes : Bytes}
    : unhexPairs (chars.flatMap String.utf8EncodeChar) = some bytes
      ↔ chars.map Char.toLower = bytes.flatMap Text.hexByte := by
  induction bytes generalizing chars with
  | nil =>
      rw [unhexPairs_nil, List.flatMap_nil, List.map_eq_nil_iff]
      cases chars with
      | nil => simp
      | cons c more => simp [String.utf8EncodeChar_ne_nil]
  | cons b rest ih =>
      have digits : ∀ {high low : UInt8}, high.toNat < 16 → low.toNat < 16
          → (high * 16 + low = b ↔ high.toNat = b.toNat / 16 ∧ low.toNat = b.toNat % 16) := by
        intro high low _ _
        have := b.toNat_lt
        rw [← UInt8.toNat_inj, UInt8.toNat_add, UInt8.toNat_mul]
        simp only [UInt8.reduceToNat]
        omega
      rw [unhexPairs_cons, List.flatMap_cons, Text.hexByte]
      have half : b.toNat / 16 < 16 := by
        have := b.toNat_lt
        omega
      have other : b.toNat % 16 < 16 := Nat.mod_lt _ (by decide)
      constructor
      · rintro ⟨hi, lo, more, high, low, encoded, first, second, sum, later⟩
        obtain ⟨hiSmall, highSmall⟩ := hexDigit_some first
        obtain ⟨loSmall, lowSmall⟩ := hexDigit_some second
        obtain ⟨highSame, lowSame⟩ := (digits highSmall lowSmall).mp sum
        obtain ⟨c, others, rfl, ascii, rfl, left⟩ := exists_ascii_of_flatMap encoded hiSmall
        obtain ⟨d, chars, rfl, asciiLow, rfl, rfl⟩ := exists_ascii_of_flatMap left loSmall
        rw [← UInt8.ofNat_toNat (x := high), hexDigit_ascii ascii highSmall] at first
        rw [← UInt8.ofNat_toNat (x := low), hexDigit_ascii asciiLow lowSmall] at second
        rw [List.map_cons, List.map_cons, first, second, ih.mp later, highSame, lowSame]
        rfl
      · intro same
        obtain ⟨c, chars, rfl, first, same⟩ := List.map_eq_cons_iff.mp same
        obtain ⟨d, chars, rfl, second, same⟩ := List.map_eq_cons_iff.mp same
        have ascii := ascii_of_toLower half first
        have asciiLow := ascii_of_toLower other second
        have highSmall : (UInt8.ofNat (b.toNat / 16)).toNat = b.toNat / 16 := by
          rw [UInt8.toNat_ofNat']
          omega
        have lowSmall : (UInt8.ofNat (b.toNat % 16)).toNat = b.toNat % 16 := by
          rw [UInt8.toNat_ofNat']
          omega
        refine ⟨_, _, chars.flatMap String.utf8EncodeChar, _, _, ?_,
          (hexDigit_ascii ascii half).mpr first, (hexDigit_ascii asciiLow other).mpr second, ?_,
          ih.mpr same⟩
        · rw [List.flatMap_cons, List.flatMap_cons, utf8EncodeChar_ascii ascii,
            utf8EncodeChar_ascii asciiLow]
          rfl
        · exact (digits (by omega) (by omega)).mpr ⟨highSmall, lowSmall⟩

/-- Every two bytes are read as one, by induction on what is read. -/
theorem unhexPairs_length {bytes read : Bytes} (pairs : unhexPairs bytes = some read)
    : bytes.length = 2 * read.length := by
  induction read generalizing bytes with
  | nil =>
      rw [unhexPairs_nil.mp pairs]
      rfl
  | cons b rest ih =>
      obtain ⟨_, _, more, _, _, rfl, _, _, _, later⟩ := unhexPairs_cons.mp pairs
      simp [ih later]
      omega

/-- A text is read as the bytes that it writes in hexadecimal, whatever the case of its letters. -/
theorem unhex_iff {text : String} {bytes : Bytes}
    : unhex text = some bytes ↔ text.toList.map Char.toLower = bytes.flatMap Text.hexByte := by
  have encoded := Text.asBytes_ofList text.toList
  rw [String.ofList_toList] at encoded
  rw [unhex, ← unhexPairs_chars, ← encoded]
  constructor
  · intro read
    split_ifs at read
    exact read
  · intro pairs
    have length := unhexPairs_length pairs
    rw [if_neg (by omega), pairs]

-----------------------------------------------------------------------------------------
-- Registers and digests
-----------------------------------------------------------------------------------------

/-- Register numbers as systemd lists them. -/
def Registers (value : Value) (pcrs : List UInt8) : Prop :=
  value = .array (pcrs.map fun pcr => .number (.posInt pcr.toUInt64)) ∧ ∀ pcr ∈ pcrs, pcr ≤ 23

/-- Bytes as systemd writes them: in hexadecimal, alone or as the only shard. -/
def Shard (value : Value) (bytes : Bytes) : Prop :=
  ∃ text : String, text.toList.map Char.toLower = bytes.flatMap Text.hexByte
    ∧ (value = .string text ∨ value = .array [.string text])

/-- Exactly register numbers are collected, by induction on the array. -/
theorem collectPcrs_ok {items : List Value} {pcrs : List UInt8}
    : collectPcrs items = .ok pcrs
      ↔ items = pcrs.map (fun pcr => .number (.posInt pcr.toUInt64)) ∧ ∀ pcr ∈ pcrs, pcr ≤ 23 := by
  induction items generalizing pcrs with
  | nil =>
      cases pcrs <;> simp [collectPcrs]
  | cons item rest ih =>
      cases number : item.asU64 with
      | none =>
          simp only [collectPcrs, number]
          constructor
          · intro impossible
            cases impossible
          · rintro ⟨listed, _⟩
            obtain ⟨pcr, more, rfl, rfl, _⟩ := List.map_eq_cons_iff.mp listed.symm
            cases number
      | some n =>
          have itemIs : item = .number (.posInt n) := by
            cases item <;> try cases number
            next given =>
              cases given <;> cases number
              rfl
          subst itemIs
          have same {pcr : UInt8} : n = pcr.toUInt64 ∧ pcr ≤ 23 ↔ ¬ n > 23 ∧ n.toUInt8 = pcr := by
            have small := pcr.toNat_lt
            rw [← UInt64.toNat_inj, ← UInt8.toNat_inj, UInt8.le_iff_toNat_le, gt_iff_lt,
              UInt64.lt_iff_toNat_lt, UInt64.toNat_toUInt8, UInt8.toNat_toUInt64]
            simp only [UInt64.reduceToNat, UInt8.reduceToNat]
            omega
          simp only [collectPcrs, number]
          cases pcrs with
          | nil =>
              split_ifs
              · simp
              · cases collectPcrs rest <;> simp [Except.map]
          | cons pcr more =>
              have listed : Value.number (.posInt n) :: rest
                    = (pcr :: more).map (fun pcr => .number (.posInt pcr.toUInt64))
                  ∧ (∀ p ∈ pcr :: more, p ≤ 23)
                ↔ (n = pcr.toUInt64 ∧ pcr ≤ 23) ∧ collectPcrs rest = .ok more := by
                rw [ih]
                simp only [List.map_cons, List.cons.injEq, Value.number.injEq,
                  Json.Number.posInt.injEq, List.forall_mem_cons]
                tauto
              rw [listed, same]
              split_ifs with large
              · simp [large]
              · cases collectPcrs rest <;> simp [Except.map, large]

/-- Exactly lists of registers are read, and come out in order. -/
theorem pcrList_ok {value : Value} {selected : List UInt8}
    : pcrList value = .ok selected
      ↔ ∃ pcrs, Registers value pcrs ∧ selected = sortDedup pcrs := by
  cases value with
  | array items =>
      simp only [pcrList, Value.asArray, Registers, Value.array.injEq, ← collectPcrs_ok]
      cases collectPcrs items <;> simp [Except.map, eq_comm]
  | _ => simp [pcrList, Value.asArray, Registers]

/-- Exactly a single shard of hexadecimal digits is read. -/
theorem singleShard_ok {value : Value} {field : String} {bytes : Bytes}
    : singleShard value field = .ok bytes ↔ Shard value bytes := by
  simp only [Shard, ← unhex_iff]
  cases value with
  | string text => cases read : unhex text <;> simp [singleShard, Except.bind, read]
  | array items =>
      match items with
      | [] => simp [singleShard, Except.bind]
      | [item] =>
          cases item with
          | string text =>
              cases read : unhex text <;> simp [singleShard, Except.bind, Value.asStr, read]
          | _ => simp [singleShard, Except.bind, Value.asStr]
      | _ :: _ :: _ => simp [singleShard, Except.bind]
  | _ => simp [singleShard, Except.bind]

end Tpm2Autoenroll.Token
