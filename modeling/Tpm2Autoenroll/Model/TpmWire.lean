import Mathlib.Data.Vector.Basic
import Tpm2Autoenroll.Model.Text

/-! The TPM wire format of `tpm2.rs`: commands, response headers and the response bodies
the daemon reads. Talking to the device is in `TpmDevice`.
-/

namespace Tpm2Autoenroll.Tpm2

open Text (Bytes)

def stNoSessions : UInt16 := 0x8001
def ccFlushContext : UInt32 := 0x00000165
def ccStartAuthSession : UInt32 := 0x00000176
def ccGetCapability : UInt32 := 0x0000017a
def ccPcrRead : UInt32 := 0x0000017e
def ccPolicyPcr : UInt32 := 0x0000017f
def ccPolicyGetDigest : UInt32 := 0x00000189
def rhNull : UInt32 := 0x40000007
def seTrial : UInt8 := 0x03
def algNull : UInt16 := 0x0010
def capTpmProperties : UInt32 := 0x00000006
def ptPermanent : UInt32 := 0x00000200
def ptLockoutCounter : UInt32 := 0x0000020e
def ptMaxAuthFail : UInt32 := 0x0000020f

/-- TPMA_PERMANENT.inLockout, bit 9. -/
def permanentInLockout : UInt32 := (1 : UInt32) <<< (9 : UInt32)

-----------------------------------------------------------------------------------------
-- Banks
-----------------------------------------------------------------------------------------

/-- A PCR bank by its algorithm id. The field is private to the source module, so only the
ids that `fromName` and `sha256` produce exist.
-/
structure Bank where
  id : UInt16
  known : id = 0x0004 ∨ id = 0x000b ∨ id = 0x000c ∨ id = 0x000d
  deriving DecidableEq

namespace Bank

def sha256 : Bank := ⟨0x000b, by decide⟩

def fromName (name : String) : Option Bank :=
  if name = "sha1" then some ⟨0x0004, by decide⟩
  else if name = "sha256" then some ⟨0x000b, by decide⟩
  else if name = "sha384" then some ⟨0x000c, by decide⟩
  else if name = "sha512" then some ⟨0x000d, by decide⟩
  else none

def name (bank : Bank) : String :=
  if bank.id = 0x0004 then "sha1"
  else if bank.id = 0x000b then "sha256"
  else if bank.id = 0x000c then "sha384"
  else if bank.id = 0x000d then "sha512"
  else "unknown"

end Bank

-----------------------------------------------------------------------------------------
-- Writing
-----------------------------------------------------------------------------------------

/-- `u16::to_be_bytes`, as `put_u16` appends it. -/
def putU16 (v : UInt16) : Bytes := [UInt8.ofNat (v.toNat / 256), UInt8.ofNat (v.toNat % 256)]

/-- `u32::to_be_bytes`, as `put_u32` appends it. -/
def putU32 (v : UInt32) : Bytes :=
  [UInt8.ofNat (v.toNat / 16777216), UInt8.ofNat (v.toNat / 65536 % 256),
    UInt8.ofNat (v.toNat / 256 % 256), UInt8.ofNat (v.toNat % 256)]

/-- The size is narrowed to 16 bits as the source narrows it. -/
def putTpm2b (bytes : Bytes) : Bytes := putU16 (UInt16.ofNat bytes.length) ++ bytes

/-- The bitmap after one more index: PCR n is byte n/8, bit n%8. -/
def setPcrBit (bitmap : UInt8 × UInt8 × UInt8) (pcr : UInt8) : UInt8 × UInt8 × UInt8 :=
  let (first, second, third) := bitmap
  let bit := (1 : UInt8) <<< (pcr % 8)
  match pcr.toNat / 8 with
  | 0 => (first ||| bit, second, third)
  | 1 => (first, second ||| bit, third)
  | 2 => (first, second, third ||| bit)
  | _ => (first, second, third)

/-- TPML_PCR_SELECTION with a single bank and a three-byte bitmap. -/
def putPcrSelection (bank : Bank) (indices : List UInt8) : Bytes :=
  let (first, second, third) := indices.foldl setPcrBit (0, 0, 0)
  putU32 1 ++ putU16 bank.id ++ [3] ++ [first, second, third]

/-- A command: header, then the caller's handle and parameter areas. -/
def command (cc : UInt32) (body : Bytes) : Bytes :=
  putU16 stNoSessions ++ putU32 (UInt32.ofNat (10 + body.length)) ++ putU32 cc ++ body

/-- The code field of a command. -/
def commandCode (cmd : Bytes) : Bytes := (cmd.drop 6).take 4

@[simp]
theorem commandCode_command (cc : UInt32) (body : Bytes)
    : commandCode (command cc body) = putU32 cc :=
  rfl

-----------------------------------------------------------------------------------------
-- Reading
-----------------------------------------------------------------------------------------

/-- A position in a response. It never passes the end, which `remaining` relies on. -/
structure Reader where
  buf : Bytes
  pos : Nat
  inside : pos ≤ buf.length

namespace Reader

def new (buf : Bytes) : Reader := ⟨buf, 0, Nat.zero_le _⟩

def remaining (r : Reader) : Nat := r.buf.length - r.pos

end Reader

abbrev Read := StateT Reader (Except String)

/-- `Reader::bytes`: exactly `n` bytes, or an error when fewer are left. -/
def readBytes (n : Nat) : Read (List.Vector UInt8 n) := fun r =>
  if 2 ^ 64 ≤ r.pos + n then
    .error "response length overflowed"
  else if h : r.buf.length < r.pos + n then
    .error
      s!"response ended after {r.buf.length} bytes, expected at least {r.pos + n}"
  else
    .ok (
      ⟨(r.buf.drop r.pos).take n, by simp; omega⟩,
      { r with pos := r.pos + n, inside := by omega }
    )

def readU8 : Read UInt8 := do
  let b ← readBytes 1
  return b.get 0

def readU16 : Read UInt16 := do
  let b ← readBytes 2
  return UInt16.ofNat ((b.get 0).toNat * 256 + (b.get 1).toNat)

def readU32 : Read UInt32 := do
  let b ← readBytes 4
  return UInt32.ofNat
    ((b.get 0).toNat * 16777216 + (b.get 1).toNat * 65536 + (b.get 2).toNat * 256
      + (b.get 3).toNat)

def readTpm2b : Read Bytes := do
  let size ← readU16
  let b ← readBytes size.toNat
  return b.toList

-----------------------------------------------------------------------------------------
-- Responses
-----------------------------------------------------------------------------------------

def describeRc (rc : UInt32) : String :=
  let known :=
    if rc = 0x100 then some "TPM_RC_INITIALIZE (the TPM has not been started)"
    else if rc = 0x101 then some "TPM_RC_FAILURE (the TPM is in failure mode)"
    else if rc = 0x120 then
      some "TPM_RC_LOCKOUT (the TPM is in dictionary-attack lockout)"
    else if rc = 0x921 then some "TPM_RC_SESSION_HANDLES (no session slot is free)"
    else if rc = 0x922 then some "TPM_RC_OBJECT_HANDLES (no object slot is free)"
    else none
  match known with
  | some name => s!"{Text.hexWord rc}, {name}"
  | none => Text.hexWord rc

/-- Check a response header and return everything after it. -/
def responsePayload (buf : Bytes) : Except String Bytes :=
  match buf with
  | _ :: _ :: s0 :: s1 :: s2 :: s3 :: c0 :: c1 :: c2 :: c3 :: payload =>
      let size :=
        s0.toNat * 16777216 + s1.toNat * 65536 + s2.toNat * 256 + s3.toNat
      if size ≠ buf.length then
        .error s!"response declares {size} bytes but {buf.length} were read"
      else
        let rc := UInt32.ofNat
          (c0.toNat * 16777216 + c1.toNat * 65536 + c2.toNat * 256 + c3.toNat)
        if rc ≠ 0 then .error s!"the TPM returned {describeRc rc}" else .ok payload
  | _ => .error s!"response is {buf.length} bytes, expected at least 10"

/-- What the TPM says about its dictionary-attack state. -/
structure Lockout where
  inLockout : Bool
  counter : UInt32
  maxAuthFail : UInt32
  deriving DecidableEq

/-- The properties the loop of `parse_properties` picks out. -/
structure Properties where
  permanent : Option UInt32
  counter : Option UInt32
  maxAuthFail : Option UInt32
  deriving DecidableEq

/-- What one reported pair changes. -/
def Properties.record (seen : Properties) (property value : UInt32) : Properties :=
  if property = ptPermanent then { seen with permanent := some value }
  else if property = ptLockoutCounter then { seen with counter := some value }
  else if property = ptMaxAuthFail then { seen with maxAuthFail := some value }
  else seen

/-- The loop of `parse_properties` over the declared number of pairs. -/
def readProperties : Nat → Properties → Read Properties
  | 0, seen => return seen
  | count + 1, seen => do
      let property ← readU32
      let value ← readU32
      readProperties count (seen.record property value)

def readLockout : Read Lockout := do
  let _moreData ← readU8
  let capability ← readU32
  if capability ≠ capTpmProperties then
    throw
      s!"the TPM answered with capability {Text.hexWord capability}, expected {Text.hexWord capTpmProperties}"
  let count ← readU32
  let seen ← readProperties count.toNat ⟨none, none, none⟩
  match seen.permanent with
  | none => throw "the TPM did not report TPM_PT_PERMANENT"
  | some permanent =>
      return {
        inLockout := permanent &&& permanentInLockout != 0
        counter := seen.counter.getD 0
        maxAuthFail := seen.maxAuthFail.getD 0
      }

def parseProperties (payload : Bytes) : Except String Lockout :=
  (readLockout.run (.new payload)).map Prod.fst

/-- The PCRs a PCR_Read response answered for and their digests. -/
abbrev PcrRead := List UInt8 × List Bytes

/-- The positions of the set bits of one bitmap byte, lowest first. -/
def setBits (bits : UInt8) : List Nat :=
  (List.range 8).filter fun bit => bits &&& ((1 : UInt8) <<< UInt8.ofNat bit) != 0

/-- The registers a selection bitmap names, in ascending order; `byte` counts its bytes. -/
def bitmapPcrs : Nat → Bytes → Except String (List UInt8)
  | _, [] => .ok []
  | byte, bits :: rest => do
      let here ← (setBits bits).mapM fun bit =>
        let pcr := byte * 8 + bit
        if pcr > 23 then .error s!"PCR {pcr} is out of range" else .ok (UInt8.ofNat pcr)
      return here ++ (← bitmapPcrs (byte + 1) rest)

/-- The digest loop of `parse_pcr_read`. -/
def readDigests : Nat → Read (List Bytes)
  | 0 => return []
  | count + 1 => do
      let digest ← readTpm2b
      return digest :: (← readDigests count)

def readPcrRead : Read PcrRead := do
  let _updateCounter ← readU32
  let selections ← readU32
  if selections ≠ 1 then
    throw s!"the TPM answered with {selections} PCR selection(s), expected 1"
  let _hash ← readU16
  let size ← readU8
  let bitmap ← readBytes size.toNat
  let returned ← (bitmapPcrs 0 bitmap.toList : Except String (List UInt8))
  let count ← readU32
  let digests ← readDigests count.toNat
  return (returned, digests)

def parsePcrRead (payload : Bytes) : Except String PcrRead :=
  (readPcrRead.run (.new payload)).map Prod.fst

/-- The registers as `{:?}` writes a vector of them. -/
def debugPcrs (pcrs : List UInt8) : String :=
  "[" ++ ", ".intercalate (pcrs.map toString) ++ "]"

/-- `slice::windows(2)` holding two equal registers. -/
def repeats : List UInt8 → Bool
  | a :: b :: rest => a == b || repeats (b :: rest)
  | _ => false

/-- Fold one PCR_Read round into `out`: the outstanding registers and the answers after
it. A round answers for at least one outstanding register and for nothing else.
-/
def absorb (remaining : List UInt8) (out : List (UInt8 × Bytes)) (round : PcrRead)
    : Except String (List UInt8 × List (UInt8 × Bytes)) :=
  let (returned, digests) := round
  if returned = [] ∨ digests.length ≠ returned.length then
    .error s!"the TPM returned {digests.length} digest(s) for {returned.length} PCR(s)"
  else if repeats returned then
    .error s!"the TPM returned PCRs {debugPcrs returned}, which repeats one"
  else
    match returned.find? fun pcr => !remaining.contains pcr with
    | some pcr =>
        .error
          s!"the TPM returned PCR {pcr}, which is not among the outstanding {debugPcrs remaining}"
    | none =>
        .ok (remaining.filter (fun pcr => !returned.contains pcr), out ++ returned.zip digests)

/-- Every round that is accepted leaves fewer registers outstanding. -/
theorem absorb_length {remaining left : List UInt8} {out gathered : List (UInt8 × Bytes)}
    {round : PcrRead} (taken : absorb remaining out round = .ok (left, gathered))
    : left.length < remaining.length := by
  obtain ⟨returned, digests⟩ := round
  simp only [absorb] at taken
  split_ifs at taken with uneven repeated
  have nonempty : returned ≠ [] := fun empty => uneven (Or.inl empty)
  obtain ⟨pcr, rest, rfl⟩ := List.exists_cons_of_ne_nil nonempty
  split at taken
  · cases taken
  next outstanding =>
    cases taken
    have asked : pcr ∈ remaining := by
      have all := List.find?_eq_none.mp outstanding pcr List.mem_cons_self
      simpa using all
    exact List.length_filter_lt_length_iff_exists.mpr ⟨pcr, asked, by simp⟩

/-- What is left outstanding was outstanding before. -/
theorem absorb_sublist {remaining left : List UInt8} {out gathered : List (UInt8 × Bytes)}
    {round : PcrRead} (taken : absorb remaining out round = .ok (left, gathered))
    : left.Sublist remaining := by
  obtain ⟨returned, digests⟩ := round
  simp only [absorb] at taken
  split_ifs at taken
  split at taken
  · cases taken
  · cases taken
    exact List.filter_sublist

/-- The digest of a PolicyGetDigest response. -/
def parseDigest (payload : Bytes) : Except String Bytes :=
  (readTpm2b.run (.new payload)).map Prod.fst

/-- The handle of a StartAuthSession response. -/
def parseHandle (payload : Bytes) : Except String UInt32 :=
  (readU32.run (.new payload)).map Prod.fst

end Tpm2Autoenroll.Tpm2
