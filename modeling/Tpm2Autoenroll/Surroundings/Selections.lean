import Mathlib.Data.Nat.Bitwise
import Tpm2Autoenroll.Model.Prompts
import Tpm2Autoenroll.Sorting.Ascending

/-! How others read a PCR selection that the daemon writes: the TPM from the bitmap of a command
and systemd-cryptenroll from its `--tpm2-pcrs=` argument. Both get back what was written.
-/

namespace Tpm2Autoenroll

open Text (Bytes)
open Tpm2 (Bank)

/-- The registers there are, in ascending order. -/
def registers : List UInt8 := (List.range 24).map UInt8.ofNat

theorem mem_registers {pcr : UInt8} : pcr ∈ registers ↔ pcr ≤ 23 := by
  rw [registers, List.mem_map, UInt8.le_iff_toNat_le]
  constructor
  · rintro ⟨n, member, rfl⟩
    have small : n < 24 := List.mem_range.mp member
    rw [UInt8.toNat_ofNat', Nat.mod_eq_of_lt (by omega)]
    exact Nat.le_of_lt_succ small
  · intro small
    have below : pcr.toNat < 24 := Nat.lt_succ_of_le small
    exact ⟨pcr.toNat, List.mem_range.mpr below, by simp⟩

/-- An ascending selection is what a mask of its registers selects. -/
theorem registers_filter {pcrs : List UInt8} {mask : UInt8 → Bool}
    (ascending : pcrs.Pairwise (· < ·)) (inRange : ∀ pcr ∈ pcrs, pcr ≤ 23)
    (masks : ∀ pcr ≤ 23, mask pcr = true ↔ pcr ∈ pcrs)
    : registers.filter mask = pcrs := by
  have sorted : registers.Pairwise (· < ·) := by decide
  have filtered : (registers.filter mask).Pairwise (· < ·) := sorted.filter mask
  have members : ∀ pcr, pcr ∈ registers.filter mask ↔ pcr ∈ pcrs := by
    intro pcr
    rw [List.mem_filter, mem_registers]
    constructor
    · rintro ⟨small, set⟩
      exact (masks pcr small).mp set
    · intro member
      exact ⟨inRange pcr member, (masks pcr (inRange pcr member)).mpr member⟩
  exact Sorting.eq_of_ascending filtered ascending members

-----------------------------------------------------------------------------------------
-- The TPM
-----------------------------------------------------------------------------------------

namespace Tpm2

/-- PCR n is bit n % 8 of byte n / 8. -/
def bitmapHas (bitmap : UInt8 × UInt8 × UInt8) (pcr : UInt8) : Bool :=
  let (first, second, third) := bitmap
  let byte :=
    match pcr.toNat / 8 with
    | 0 => first
    | 1 => second
    | _ => third
  byte.toNat.testBit (pcr.toNat % 8)

/-- The bank and the registers of a TPML_PCR_SELECTION with one bank and a three-byte bitmap. -/
def selected (bytes : Bytes) : Option (UInt16 × List UInt8) :=
  match bytes with
  | [c0, c1, c2, c3, hi, lo, size, first, second, third] =>
      if [c0, c1, c2, c3] = putU32 1 ∧ size = 3 then
        some (UInt16.ofNat (hi.toNat * 256 + lo.toNat),
          registers.filter (bitmapHas (first, second, third)))
      else
        none
  | _ => none

/-- One bit of a byte. -/
theorem testBit_setBit {byte pcr : UInt8} {bit : Nat}
    : (byte ||| (1 : UInt8) <<< (pcr % 8)).toNat.testBit bit
      = (byte.toNat.testBit bit || decide (pcr.toNat % 8 = bit)) := by
  have shifted : ((1 : UInt8) <<< (pcr % 8)).toNat = 2 ^ (pcr.toNat % 8) := by
    rw [UInt8.toNat_shiftLeft, UInt8.toNat_mod, show (8 : UInt8).toNat = 8 from rfl, Nat.mod_mod,
      show (1 : UInt8).toNat = 1 from rfl, Nat.one_shiftLeft]
    refine Nat.mod_eq_of_lt (Nat.pow_lt_pow_right (by omega) (Nat.mod_lt _ (by omega)))
  rw [UInt8.toNat_or, Nat.testBit_or, shifted, Nat.testBit_two_pow]

/-- Setting one register's bit adds that register. -/
theorem bitmapHas_setPcrBit {bitmap : UInt8 × UInt8 × UInt8} {added pcr : UInt8}
    (addedInRange : added ≤ 23) (inRange : pcr ≤ 23)
    : bitmapHas (setPcrBit bitmap added) pcr = (bitmapHas bitmap pcr || decide (added = pcr)) := by
  obtain ⟨first, second, third⟩ := bitmap
  have addedSmall : added.toNat ≤ 23 := UInt8.le_iff_toNat_le.mp addedInRange
  have small : pcr.toNat ≤ 23 := UInt8.le_iff_toNat_le.mp inRange
  have same : added = pcr ↔ added.toNat / 8 = pcr.toNat / 8 ∧ added.toNat % 8 = pcr.toNat % 8 := by
    rw [← UInt8.toNat_inj]
    omega
  have addedByte : added.toNat / 8 = 0 ∨ added.toNat / 8 = 1 ∨ added.toNat / 8 = 2 := by omega
  have byte : pcr.toNat / 8 = 0 ∨ pcr.toNat / 8 = 1 ∨ pcr.toNat / 8 = 2 := by omega
  rcases addedByte with h | h | h <;> rcases byte with g | g | g <;>
    simp only [setPcrBit, bitmapHas, h, g, same, testBit_setBit] <;> simp

/-- A bitmap has exactly the registers it was made from, by induction on them. -/
theorem bitmapHas_foldl {pcrs : List UInt8} {bitmap : UInt8 × UInt8 × UInt8} {pcr : UInt8}
    (inRange : ∀ pcr ∈ pcrs, pcr ≤ 23) (small : pcr ≤ 23)
    : bitmapHas (pcrs.foldl setPcrBit bitmap) pcr = true
      ↔ bitmapHas bitmap pcr = true ∨ pcr ∈ pcrs := by
  induction pcrs generalizing bitmap with
  | nil => simp
  | cons first rest ih =>
      obtain ⟨here, others⟩ := List.forall_mem_cons.mp inRange
      rw [List.foldl_cons, ih others, bitmapHas_setPcrBit here small, Bool.or_eq_true,
        decide_eq_true_eq, List.mem_cons, or_assoc, eq_comm (a := first)]

/-- The TPM selects the bank and the registers that a selection was written for. -/
theorem selected_putPcrSelection {bank : Bank} {pcrs : List UInt8}
    (ascending : pcrs.Pairwise (· < ·)) (inRange : ∀ pcr ∈ pcrs, pcr ≤ 23)
    : selected (putPcrSelection bank pcrs) = some (bank.id, pcrs) := by
  have id : UInt16.ofNat ((UInt8.ofNat (bank.id.toNat / 256)).toNat * 256
      + (UInt8.ofNat (bank.id.toNat % 256)).toNat) = bank.id := by
    rcases bank.known with known | known | known | known <;> rw [known] <;> rfl
  have mask : registers.filter (bitmapHas (pcrs.foldl setPcrBit (0, 0, 0))) = pcrs := by
    refine registers_filter ascending inRange fun pcr small => ?_
    rw [bitmapHas_foldl inRange small]
    have unset : bitmapHas (0, 0, 0) pcr = false := by
      unfold bitmapHas
      dsimp only
      split <;> exact Nat.zero_testBit _
    simp [unset]
  obtain ⟨⟨first, second, third⟩, made⟩ : ∃ bitmap, pcrs.foldl setPcrBit (0, 0, 0) = bitmap :=
    ⟨_, rfl⟩
  rw [made] at mask
  simp only [putPcrSelection, made, putU16, putU32, List.cons_append, List.nil_append, selected]
  rw [id, mask]
  simp

end Tpm2

-----------------------------------------------------------------------------------------
-- systemd-cryptenroll
-----------------------------------------------------------------------------------------

namespace Cryptenroll

/-- One `PCR:BANK` of the argument. -/
def item (text : List Char) : Option (UInt8 × Bank) :=
  match text.splitOn ':' with
  | [pcr, bank] => do
      let pcr ← Text.decimal pcr
      let bank ← Bank.fromName (String.ofList bank)
      if pcr ≤ 23 then some (UInt8.ofNat pcr, bank) else none
  | _ => none

/-- The mask and the bank of a whole argument, when it names one bank only. -/
def mask (argument : String) : Option (List UInt8 × Bank) := do
  match ← (argument.toList.splitOn '+').mapM item with
  | [] => none
  | (pcr, bank) :: rest =>
      if rest.all (fun item => item.2 = bank) then
        some (registers.filter (· ∈ pcr :: rest.map Prod.fst), bank)
      else
        none

/-- The text of the option that selects registers. -/
def option : List Char := ['-', '-', 't', 'p', 'm', '2', '-', 'p', 'c', 'r', 's', '=']

/-- What a command line tells systemd-cryptenroll to seal against. -/
def selection (args : List String) : Option (List UInt8 × Bank) :=
  (args.find? fun arg => option.isPrefixOf arg.toList).bind fun arg =>
    mask (String.ofList (arg.toList.drop option.length))

/-- Whatever is selected is ascending and within range. -/
theorem selection_valid {args : List String} {pcrs : List UInt8} {bank : Bank}
    (told : selection args = some (pcrs, bank))
    : pcrs.Pairwise (· < ·) ∧ ∀ pcr ∈ pcrs, pcr ≤ 23 := by
  have sorted : registers.Pairwise (· < ·) := by decide
  obtain ⟨arg, _, masked⟩ := Option.bind_eq_some_iff.mp told
  obtain ⟨items, _, made⟩ := Option.bind_eq_some_iff.mp masked
  split at made
  · cases made
  · split_ifs at made
    cases made
    refine ⟨sorted.filter _, fun pcr member => ?_⟩
    exact mem_registers.mp (List.mem_of_mem_filter member)

/-- The name of a bank stands for it. -/
theorem fromName_name (bank : Bank) : Bank.fromName bank.name = some bank := by
  obtain ⟨id, known⟩ := bank
  rcases known with rfl | rfl | rfl | rfl <;> rfl

/-- No bank is named with the characters that separate banks and items. -/
theorem name_plain (bank : Bank) : ':' ∉ bank.name.toList ∧ '+' ∉ bank.name.toList := by
  obtain ⟨id, known⟩ := bank
  rcases known with rfl | rfl | rfl | rfl <;> decide

theorem digits_plain {c : Char} {n : Nat} (digit : c.isDigit = false)
    : c ∉ Nat.toDigits 10 n := by
  intro member
  have isDigit : c.isDigit := Nat.isDigit_of_mem_toDigits (by omega) (by omega) member
  rw [digit] at isDigit
  cases isDigit

theorem item_toList {pcr : UInt8} {bank : Bank} (inRange : pcr ≤ 23)
    : item (s!"{pcr}:{bank.name}").toList = some (pcr, bank) := by
  have text : (s!"{pcr}:{bank.name}").toList
      = [':'].intercalate [Nat.toDigits 10 pcr.toNat, bank.name.toList] := by
    simp [toString, List.intercalate]
  have pieces : (s!"{pcr}:{bank.name}").toList.splitOn ':'
      = [Nat.toDigits 10 pcr.toNat, bank.name.toList] := by
    rw [text]
    refine List.splitOn_intercalate ':' ?_ (by simp)
    simp [digits_plain, (name_plain bank).1]
  have small : pcr.toNat ≤ 23 := UInt8.le_iff_toNat_le.mp inRange
  rw [item, pieces]
  simp [Text.decimal_toDigits, fromName_name, small]

/-- By induction on the registers. -/
theorem mapM_item {pcrs : List UInt8} {bank : Bank} (inRange : ∀ pcr ∈ pcrs, pcr ≤ 23)
    : (pcrs.map fun pcr => (s!"{pcr}:{bank.name}").toList).mapM item
      = some (pcrs.map fun pcr => (pcr, bank)) := by
  induction pcrs with
  | nil => rfl
  | cons first rest ih =>
      obtain ⟨here, others⟩ := List.forall_mem_cons.mp inRange
      rw [List.map_cons, List.mapM_cons, item_toList here, ih others]
      rfl

/-- The argument that is passed selects what it was made from. -/
theorem mask_pcrSpec {pcrs : List UInt8} {bank : Bank} (ascending : pcrs.Pairwise (· < ·))
    (inRange : ∀ pcr ∈ pcrs, pcr ≤ 23) (nonempty : pcrs ≠ [])
    : mask (Enroll.pcrSpec pcrs bank.name) = some (pcrs, bank) := by
  have text : (Enroll.pcrSpec pcrs bank.name).toList
      = ['+'].intercalate (pcrs.map fun pcr => (s!"{pcr}:{bank.name}").toList) := by
    rw [Enroll.pcrSpec, String.toList_intercalate, List.map_map]
    rfl
  have pieces : (Enroll.pcrSpec pcrs bank.name).toList.splitOn '+'
      = pcrs.map fun pcr => (s!"{pcr}:{bank.name}").toList := by
    rw [text]
    refine List.splitOn_intercalate '+' ?_ (by simpa using nonempty)
    intro piece member
    obtain ⟨pcr, _, rfl⟩ := List.mem_map.mp member
    simp [toString, digits_plain, (name_plain bank).2]
  have items : (pcrs.map fun pcr => (s!"{pcr}:{bank.name}").toList).mapM item
      = some (pcrs.map fun pcr => (pcr, bank)) :=
    mapM_item inRange
  obtain ⟨first, rest, rfl⟩ := List.exists_cons_of_ne_nil nonempty
  have masked : registers.filter (· ∈ first :: (rest.map fun pcr => (pcr, bank)).map Prod.fst)
      = first :: rest := by
    refine registers_filter ascending inRange fun pcr _ => ?_
    simp [Function.comp_def]
  have one : (rest.map fun pcr => (pcr, bank)).all (fun item => item.2 = bank) = true := by simp
  rw [mask, pieces, items]
  simp only [List.map_cons, Option.bind_eq_bind, Option.bind_some, one, if_true, masked]

/-- systemd-cryptenroll is told the selection that the daemon asks it for. -/
theorem selection_args {device : Device} {tpm2Device : String} {pcrs : List UInt8}
    {bank : Bank} {key : SecretFile} (ascending : pcrs.Pairwise (· < ·))
    (inRange : ∀ pcr ∈ pcrs, pcr ≤ 23) (nonempty : pcrs ≠ [])
    : selection (Child.args (.cryptenroll device tpm2Device pcrs bank key))
      = some (pcrs, bank) := by
  have passed (name value : String) : (name ++ value).toList = name.toList ++ value.toList :=
    String.toList_append
  have unlock : option.isPrefixOf (s!"--unlock-key-file={fdPath key.fd}").toList = false := by
    refine (congrArg option.isPrefixOf (passed "--unlock-key-file=" _)).trans ?_
    rw [show "--unlock-key-file=".toList = ['-', '-', 'u', 'n', 'l', 'o', 'c', 'k', '-', 'k',
      'e', 'y', '-', 'f', 'i', 'l', 'e', '='] by decide]
    rfl
  have wipe : option.isPrefixOf "--wipe-slot=tpm2".toList = false := by decide
  have named : option.isPrefixOf (s!"--tpm2-device={tpm2Device}").toList = false := by
    refine (congrArg option.isPrefixOf (passed "--tpm2-device=" _)).trans ?_
    rw [show "--tpm2-device=".toList = ['-', '-', 't', 'p', 'm', '2', '-', 'd', 'e', 'v', 'i',
      'c', 'e', '='] by decide]
    rfl
  have told : (s!"--tpm2-pcrs={Enroll.pcrSpec pcrs bank.name}").toList
      = option ++ (Enroll.pcrSpec pcrs bank.name).toList := by
    refine (passed "--tpm2-pcrs=" (Enroll.pcrSpec pcrs bank.name)).trans ?_
    rw [show "--tpm2-pcrs=".toList = option by decide]
  have found : option.isPrefixOf (s!"--tpm2-pcrs={Enroll.pcrSpec pcrs bank.name}").toList
      = true := by
    rw [told]
    exact List.isPrefixOf_iff_prefix.mpr (List.prefix_append _ _)
  have spec : String.ofList
      ((s!"--tpm2-pcrs={Enroll.pcrSpec pcrs bank.name}").toList.drop option.length)
      = Enroll.pcrSpec pcrs bank.name := by
    rw [told, List.drop_left, String.ofList_toList]
  have located
      : (Child.args (.cryptenroll device tpm2Device pcrs bank key)).find?
          (fun arg => option.isPrefixOf arg.toList)
        = some s!"--tpm2-pcrs={Enroll.pcrSpec pcrs bank.name}" := by
    rw [Child.args, List.find?_cons_of_neg (by rw [unlock]; exact Bool.false_ne_true),
      List.find?_cons_of_neg (by rw [wipe]; exact Bool.false_ne_true),
      List.find?_cons_of_neg (by rw [named]; exact Bool.false_ne_true)]
    exact List.find?_cons_of_pos found
  rw [selection, located, Option.bind_some, spec]
  exact mask_pcrSpec ascending inRange nonempty

end Cryptenroll

end Tpm2Autoenroll
