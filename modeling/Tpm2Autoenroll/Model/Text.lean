import Mathlib.Data.List.Basic
import Mathlib.Data.List.Dedup
import Mathlib.Data.List.TakeWhile
import Mathlib.Tactic.SplitIfs

/-! The string operations the daemon takes from the Rust standard library. -/

namespace Tpm2Autoenroll.Text

abbrev Bytes := List UInt8

/-- `str::as_bytes`: the UTF-8 bytes of a string. -/
def asBytes (s : String) : Bytes := s.toUTF8.data.toList

theorem asBytes_ofList (chars : List Char)
    : asBytes (String.ofList chars) = chars.flatMap String.utf8EncodeChar := by
  simp [asBytes, List.utf8Encode]

/-- A string is its bytes. -/
theorem asBytes_injective {s t : String} (same : asBytes s = asBytes t) : s = t := by
  have arrays : s.toUTF8.data = t.toUTF8.data := Array.toList_inj.mp same
  exact String.toByteArray_inj.mp (ByteArray.ext arrays)

/-- `str::starts_with` for one character. -/
def startsWith (s : String) (first : Char) : Bool := s.toList.head? == some first

-----------------------------------------------------------------------------------------
-- Lines and white space
-----------------------------------------------------------------------------------------

/-- The end of a line that a line feed terminated: one carriage return goes with it. -/
def withoutReturn (line : List Char) : List Char :=
  if line.getLast? = some '\r' then line.dropLast else line

/-- `str::lines` over characters: a last piece counts only when it is not empty, and keeps
its carriage return since no line feed follows it.
-/
def charLines (text : List Char) : List (List Char) :=
  let pieces := text.splitOn '\n'
  let terminated := pieces.dropLast.map withoutReturn
  match pieces.getLast? with
  | some (c :: cs) => terminated ++ [c :: cs]
  | _ => terminated

/-- `char::is_whitespace`: the Unicode property White_Space. -/
def isWhitespace (c : Char) : Bool :=
  let n := c.toNat
  (9 ≤ n && n ≤ 13) || n == 0x20 || n == 0x85 || n == 0xa0 || n == 0x1680
    || (0x2000 ≤ n && n ≤ 0x200a) || n == 0x2028 || n == 0x2029 || n == 0x202f
    || n == 0x205f || n == 0x3000

/-- `str::trim` over characters. -/
def trimChars (text : List Char) : List Char :=
  ((text.dropWhile isWhitespace).reverse.dropWhile isWhitespace).reverse

/-- `str::trim`. -/
def trim (s : String) : String := String.ofList (trimChars s.toList)

/-- White space at the end is trimmed. -/
theorem trimChars_append {text after : List Char} (blank : ∀ c ∈ after, isWhitespace c = true)
    : trimChars (text ++ after) = trimChars text := by
  have none : after.dropWhile isWhitespace = [] := List.dropWhile_eq_nil_iff.mpr blank
  have backwards {chars : List Char}
      : (chars ++ after).reverse.dropWhile isWhitespace
        = chars.reverse.dropWhile isWhitespace := by
    rw [List.reverse_append, List.dropWhile_append_of_pos fun c member =>
      blank c (List.mem_reverse.mp member)]
  unfold trimChars
  rw [List.dropWhile_append]
  split_ifs with empty
  · rw [none, List.isEmpty_iff.mp empty]
  · rw [backwards]

/-- What is left of a text between white space. -/
theorem trimChars_eq_iff {text word : List Char} (solid : ∀ c ∈ word, isWhitespace c = false)
    : trimChars text = word
      ↔ ∃ before after, text = before ++ word ++ after
        ∧ (∀ c ∈ before, isWhitespace c = true) ∧ ∀ c ∈ after, isWhitespace c = true := by
  have kept {chars : List Char} (solid : ∀ c ∈ chars, isWhitespace c = false)
      : chars.dropWhile isWhitespace = chars := by
    cases chars with
    | nil => rfl
    | cons c rest => simp [solid c List.mem_cons_self]
  constructor
  · rintro rfl
    let rest := text.dropWhile isWhitespace
    refine ⟨text.takeWhile isWhitespace, (rest.reverse.takeWhile isWhitespace).reverse, ?_,
      fun c => List.mem_takeWhile_imp, fun c member => ?_⟩
    · have split : trimChars text ++ (rest.reverse.takeWhile isWhitespace).reverse = rest := by
        rw [trimChars, ← List.reverse_append, List.takeWhile_append_dropWhile,
          List.reverse_reverse]
      rw [List.append_assoc, split, List.takeWhile_append_dropWhile]
    · exact List.mem_takeWhile_imp (List.mem_reverse.mp member)
  · rintro ⟨before, after, rfl, first, last⟩
    rw [trimChars_append last, trimChars, List.dropWhile_append_of_pos first, kept solid,
      kept fun c member => solid c (List.mem_reverse.mp member), List.reverse_reverse]

/-- `str::to_ascii_lowercase` for one character: only `A` to `Z` change. -/
def toAsciiLowercase (c : Char) : Char :=
  if 'A' ≤ c ∧ c ≤ 'Z' then Char.ofNat (c.toNat + 32) else c

-----------------------------------------------------------------------------------------
-- Numbers
-----------------------------------------------------------------------------------------

/-- A non-empty run of decimal digits. -/
def decimal (digits : List Char) : Option Nat :=
  if digits ≠ [] ∧ digits.all Char.isDigit then some (Nat.ofDigitChars 10 digits 0) else none

/-- A number in decimal denotes that number. -/
theorem decimal_toDigits (n : Nat) : decimal (Nat.toDigits 10 n) = some n := by
  have digits : ∀ c ∈ Nat.toDigits 10 n, c.isDigit := fun c member =>
    Nat.isDigit_of_mem_toDigits (by omega) (by omega) member
  rw [decimal, if_pos ⟨Nat.toDigits_ne_nil, List.all_eq_true.mpr digits⟩,
    Nat.ofDigitChars_ten_toDigits]

/-- `str::parse::<u32>`: an optional plus sign, then decimal digits, within range. -/
def parseU32 (s : String) : Option UInt32 :=
  let digits := match s.toList with
    | '+' :: rest => rest
    | all => all
  (decimal digits).bind fun n => if n < UInt32.size then some (UInt32.ofNat n) else none

/-- A word in decimal parses as that word. -/
theorem parseU32_toString (w : UInt32) : parseU32 (toString w.toNat) = some w := by
  have digits : (toString w.toNat).toList = Nat.toDigits 10 w.toNat := by simp [toString]
  have unsigned : ∀ rest, Nat.toDigits 10 w.toNat ≠ '+' :: rest := by
    intro rest same
    have digit : '+'.isDigit := Nat.isDigit_of_mem_toDigits (by omega) (by omega)
      (same ▸ List.mem_cons_self : '+' ∈ Nat.toDigits 10 w.toNat)
    exact absurd digit (by decide)
  unfold parseU32
  rw [digits]
  split
  next rest same => exact absurd same (unsigned rest)
  next => simp [decimal_toDigits, w.toNat_lt]

/-- `str::parse::<i32>`: an optional sign, then decimal digits, within range. -/
def parseI32 (text : List Char) : Option Int :=
  match text with
  | '-' :: rest => (decimal rest).bind fun n => if n ≤ 2147483648 then some (-(n : Int)) else none
  | '+' :: rest => (decimal rest).bind fun n => if n < 2147483648 then some (n : Int) else none
  | all => (decimal all).bind fun n => if n < 2147483648 then some (n : Int) else none

/-- One byte as `{:02x}` writes it. -/
def hexByte (b : UInt8) : List Char :=
  [(b.toNat / 16).digitChar, (b.toNat % 16).digitChar]

/-- `{:#010x}`: a word as eight hexadecimal digits. -/
def hexWord (w : UInt32) : String :=
  let digits := Nat.toDigits 16 w.toNat
  "0x" ++ String.ofList (List.replicate (8 - digits.length) '0' ++ digits)

-----------------------------------------------------------------------------------------
-- Formatting
-----------------------------------------------------------------------------------------

/-- How `{:?}` writes one character of a string; what is beyond ASCII is kept. -/
def debugChar (c : Char) : List Char :=
  match c with
  | '\x00' => ['\\', '0']
  | '\t' => ['\\', 't']
  | '\r' => ['\\', 'r']
  | '\n' => ['\\', 'n']
  | '"' => ['\\', '"']
  | '\\' => ['\\', '\\']
  | c =>
      if c.toNat < 0x20 ∨ c.toNat = 0x7f then
        "\\u\x7b".toList ++ Nat.toDigits 16 c.toNat ++ ['\x7d']
      else [c]

/-- `format!("{:?}", s)`. -/
def debug (s : String) : String :=
  "\"" ++ String.ofList (s.toList.flatMap debugChar) ++ "\""

-----------------------------------------------------------------------------------------
-- Lossy decoding
-----------------------------------------------------------------------------------------

def replacement : Char := Char.ofNat 0xfffd

def isContinuation (b : UInt8) : Bool := 0x80 ≤ b && b ≤ 0xbf

/-- How many bytes a sequence with this first byte has, 0 when it starts none. -/
def utf8Width (b : UInt8) : Nat :=
  if b < 0x80 then 1
  else if 0xc2 ≤ b && b ≤ 0xdf then 2
  else if 0xe0 ≤ b && b ≤ 0xef then 3
  else if 0xf0 ≤ b && b ≤ 0xf4 then 4
  else 0

/-- The second bytes that neither overlong forms, surrogates nor values past U+10FFFF
begin with.
-/
def secondByte (first second : UInt8) : Bool :=
  if first == 0xe0 then 0xa0 ≤ second && second ≤ 0xbf
  else if first == 0xed then 0x80 ≤ second && second ≤ 0x9f
  else if first == 0xf0 then 0x90 ≤ second && second ≤ 0xbf
  else if first == 0xf4 then 0x80 ≤ second && second ≤ 0x8f
  else isContinuation second

/-- `String::from_utf8_lossy` over characters: every maximal invalid stretch becomes one
replacement character.
-/
def lossyChars : Bytes → List Char
  | [] => []
  | b :: rest =>
      match utf8Width b, rest with
      | 1, rest => Char.ofNat b.toNat :: lossyChars rest
      | 2, b1 :: rest1 =>
          if isContinuation b1 then
            Char.ofNat (b.toNat % 32 * 64 + b1.toNat % 64) :: lossyChars rest1
          else replacement :: lossyChars (b1 :: rest1)
      | 3, b1 :: b2 :: rest2 =>
          if secondByte b b1 then
            if isContinuation b2 then
              Char.ofNat (b.toNat % 16 * 4096 + b1.toNat % 64 * 64 + b2.toNat % 64)
                :: lossyChars rest2
            else replacement :: lossyChars (b2 :: rest2)
          else replacement :: lossyChars (b1 :: b2 :: rest2)
      | 3, [b1] => if secondByte b b1 then [replacement] else replacement :: lossyChars [b1]
      | 4, b1 :: b2 :: b3 :: rest3 =>
          if secondByte b b1 then
            if isContinuation b2 then
              if isContinuation b3 then
                Char.ofNat
                    (b.toNat % 8 * 262144 + b1.toNat % 64 * 4096 + b2.toNat % 64 * 64
                      + b3.toNat % 64)
                  :: lossyChars rest3
              else replacement :: lossyChars (b3 :: rest3)
            else replacement :: lossyChars (b2 :: b3 :: rest3)
          else replacement :: lossyChars (b1 :: b2 :: b3 :: rest3)
      | 4, [b1, b2] =>
          if secondByte b b1 then
            if isContinuation b2 then [replacement] else replacement :: lossyChars [b2]
          else replacement :: lossyChars [b1, b2]
      | 4, [b1] => if secondByte b b1 then [replacement] else replacement :: lossyChars [b1]
      | _, rest => replacement :: lossyChars rest

/-- `String::from_utf8_lossy`. -/
def fromUtf8Lossy (bytes : Bytes) : String := String.ofList (lossyChars bytes)

example : fromUtf8Lossy [0x79, 0xc3, 0xa9, 0xff, 0x0a] = "yé\uFFFD\n" := by decide

end Tpm2Autoenroll.Text
