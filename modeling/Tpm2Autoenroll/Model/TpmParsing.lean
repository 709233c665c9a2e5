import Tpm2Autoenroll.Guarding.Faults
import Tpm2Autoenroll.Model.TpmWire

/-! The response parsers of `tpm2.rs` step by step, with what Rust checks of every index, slice,
sum and difference. A cast that changes its value, a loop of more turns than the payload has bytes
and one, and a reservation of more than half of what is left are faults too.
-/

namespace Tpm2Autoenroll.Tpm2.Checked

open Guarding
open Text (Bytes)

/-- `Reader`. That the position is inside is left to its methods. -/
structure Cursor where
  buf : Bytes
  pos : Nat

abbrev Step := Guarded Cursor String

-----------------------------------------------------------------------------------------
-- Reader
-----------------------------------------------------------------------------------------

def remaining : Step Nat := do
  let r ← get
  sub r.buf.length r.pos

def bytes (n : Nat) : Step Bytes := do
  let r ← get
  -- The position after it is a `checked_add`.
  if 2 ^ 64 ≤ r.pos + n then
    throw "response length overflowed"
  else if r.buf.length < r.pos + n then
    throw
      s!"response ended after {r.buf.length} bytes, expected at least {r.pos + n}"
  else
    let out ← slice r.buf r.pos (r.pos + n)
    set { r with pos := r.pos + n }
    return out

def u8 : Step UInt8 := do
  let b ← bytes 1
  index b 0

def u16 : Step UInt16 := do
  let b ← bytes 2
  return UInt16.ofNat ((← index b 0).toNat * 256 + (← index b 1).toNat)

/-- `u32::from_be_bytes` of four bytes from `at`. -/
def fromBeBytes {σ : Type} (b : Bytes) (start : Nat) : Guarded σ String Nat := do
  return (← index b start).toNat * 16777216 + (← index b (start + 1)).toNat * 65536
    + (← index b (start + 2)).toNat * 256 + (← index b (start + 3)).toNat

def u32 : Step UInt32 := do
  let b ← bytes 4
  return UInt32.ofNat (← fromBeBytes b 0)

def tpm2b : Step Bytes := do
  let size ← u16
  bytes size.toNat

/-- As many turns as the payload has bytes, and one. -/
def turns : Step Nat := do
  let r ← get
  return r.buf.length + 1

-----------------------------------------------------------------------------------------
-- Parsers
-----------------------------------------------------------------------------------------

def readPayload (buf : Bytes) : Guarded Unit String Bytes := do
  if buf.length < 10 then
    throw s!"response is {buf.length} bytes, expected at least 10"
  else
    let size ← fromBeBytes buf 2
    if size ≠ buf.length then
      throw s!"response declares {size} bytes but {buf.length} were read"
    else
      let rc := UInt32.ofNat (← fromBeBytes buf 6)
      if rc ≠ 0 then
        throw s!"the TPM returned {describeRc rc}"
      else
        slice buf 10 buf.length

/-- One turn of the loop of `parse_properties`. -/
def readProperty (seen : Properties) : Step Properties := do
  let property ← u32
  let value ← u32
  return seen.record property value

def readLockout : Step Lockout := do
  let _moreData ← u8
  let capability ← u32
  if capability ≠ capTpmProperties then
    throw
      s!"the TPM answered with capability {Text.hexWord capability}, expected {Text.hexWord capTpmProperties}"
  let count ← u32
  let seen ← repeatWithin readProperty (← turns) count.toNat ⟨none, none, none⟩
  match seen.permanent with
  | none => throw "the TPM did not report TPM_PT_PERMANENT"
  | some permanent =>
      return {
        inLockout := permanent &&& permanentInLockout != 0
        counter := seen.counter.getD 0
        maxAuthFail := seen.maxAuthFail.getD 0
      }

/-- One turn of the inner loop over a bitmap: `bit` of the byte at `byte`. -/
def readBit {σ : Type} (bits : UInt8) (byte : Nat) (returned : List UInt8) (bit : Nat)
    : Guarded σ String (List UInt8) := do
  if bits &&& UInt8.ofNat (← oneShifted 8 bit) ≠ 0 then
    let pcr ← add 64 (← mul 64 byte 8) bit
    if pcr > 23 then
      throw s!"PCR {pcr} is out of range"
    else
      return returned ++ [UInt8.ofNat (← narrow 8 pcr)]
  else
    return returned

/-- The two loops over a bitmap. -/
def readBitmap {σ : Type} (turns : Nat) (bitmap : Bytes) : Guarded σ String (List UInt8) :=
  eachWithin
    (fun returned entry => eachWithin (readBit entry.1 entry.2) turns (List.range 8) returned)
    turns bitmap.zipIdx []

/-- One turn of the digest loop. -/
def readDigest (digests : List Bytes) : Step (List Bytes) := do
  let digest ← tpm2b
  return digests ++ [digest]

def readPcrRead : Step PcrRead := do
  let _updateCounter ← u32
  let selections ← u32
  if selections ≠ 1 then
    throw s!"the TPM answered with {selections} PCR selection(s), expected 1"
  let _hash ← u16
  let size ← u8
  let bitmap ← bytes size.toNat
  let returned ← readBitmap (← turns) bitmap
  let count ← u32
  let capacity := min count.toNat ((← remaining) / 2)
  let r ← get
  reserve capacity ((r.buf.drop r.pos).length / 2)
  let digests ← repeatWithin readDigest (← turns) count.toNat []
  return (returned, digests)

def responsePayload (buf : Bytes) : Except Fault (Except String Bytes) :=
  (readPayload buf).outcome ()

def parseProperties (payload : Bytes) : Except Fault (Except String Lockout) :=
  readLockout.outcome ⟨payload, 0⟩

def parsePcrRead (payload : Bytes) : Except Fault (Except String PcrRead) :=
  readPcrRead.outcome ⟨payload, 0⟩

/-- The digest of `build_policy`. -/
def parseDigest (payload : Bytes) : Except Fault (Except String Bytes) :=
  tpm2b.outcome ⟨payload, 0⟩

end Tpm2Autoenroll.Tpm2.Checked
