import Tpm2Autoenroll.Exchanges.PcrReads
import Tpm2Autoenroll.Model.TpmDevice

/-! The other side of the wire: what a TPM reads in a command, and that it reads in every command
of the daemon what the daemon meant.
-/

namespace Tpm2Autoenroll.Tpm2

open Text (Bytes)

/-- A command as a TPM understands it: the six that the daemon uses. -/
inductive Request
  | getCapability (capability property count : UInt32)
  | pcrRead (bank : UInt16) (pcrs : List UInt8)
  | startTrialSession (authHash : UInt16)
  | policyPcr (session : UInt32) (bank : UInt16) (pcrs : List UInt8)
  | policyGetDigest (session : UInt32)
  | flushContext (handle : UInt32)
  deriving DecidableEq

-----------------------------------------------------------------------------------------
-- Unmarshalling
-----------------------------------------------------------------------------------------

/-- TPML_PCR_SELECTION with one bank. -/
def readSelection : Read (UInt16 × List UInt8) := do
  let count ← readU32
  if count ≠ 1 then
    throw "more than one bank"
  let bank ← readU16
  let size ← readU8
  let bitmap ← readBytes size.toNat
  let pcrs ← (bitmapPcrs 0 bitmap.toList : Except String (List UInt8))
  return (bank, pcrs)

/-- The parameters of StartAuthSession, of which only an unsalted, unbound trial session without
parameter encryption is of use here.
-/
def readTrialSession : Read Request := do
  let tpmKey ← readU32
  let bound ← readU32
  let _nonceCaller ← readTpm2b
  let salt ← readTpm2b
  let kind ← readU8
  let symmetric ← readU16
  let authHash ← readU16
  if tpmKey = rhNull ∧ bound = rhNull ∧ salt = [] ∧ kind = seTrial ∧ symmetric = algNull then
    return .startTrialSession authHash
  else
    throw "not a plain trial session"

def readPolicyPcr : Read Request := do
  let session ← readU32
  let pcrDigest ← readTpm2b
  if pcrDigest ≠ [] then
    throw "not the current values"
  let (bank, pcrs) ← readSelection
  return .policyPcr session bank pcrs

/-- The parameters that come after a command code. -/
def readParameters (code : UInt32) : Read Request := do
  if code = ccGetCapability then
    let capability ← readU32
    let property ← readU32
    let count ← readU32
    return .getCapability capability property count
  else if code = ccPcrRead then
    let (bank, pcrs) ← readSelection
    return .pcrRead bank pcrs
  else if code = ccStartAuthSession then
    readTrialSession
  else if code = ccPolicyPcr then
    readPolicyPcr
  else if code = ccPolicyGetDigest then
    let session ← readU32
    return .policyGetDigest session
  else if code = ccFlushContext then
    let handle ← readU32
    return .flushContext handle
  else
    throw "not a command of the daemon"

def readRequest : Read (UInt32 × Request) := do
  let tag ← readU16
  if tag ≠ stNoSessions then
    throw "authorized"
  let size ← readU32
  let code ← readU32
  let request ← readParameters code
  return (size, request)

/-- The command that these bytes are, if they are one from the first to the last. -/
def understand (cmd : Bytes) : Option Request :=
  match readRequest.run (.new cmd) with
  | .ok ((size, request), r) =>
      if size.toNat = cmd.length ∧ r.remaining = 0 then some request else none
  | .error _ => none

-----------------------------------------------------------------------------------------
-- What is written is understood
-----------------------------------------------------------------------------------------

theorem Reads.bind {α β : Type} {read : Read α} {next : α → Read β} {first second : Bytes}
    {value : α} {result : β} (head : Reads read first value)
    (tail : Reads (next value) second result)
    : Reads (read >>= next) (first ++ second) result := by
  intro r more small left
  rw [List.append_assoc] at left
  obtain ⟨middle, run, remaining, same⟩ := head r _ small left
  obtain ⟨after, later, ended, kept⟩ := tail middle more (same ▸ small) remaining
  exact ⟨after, run_bind_ok.mpr ⟨value, middle, run, later⟩, ended, kept.trans same⟩

/-- The last reading of a sequence. -/
theorem Reads.bind_pure {α β : Type} {read : Read α} {next : α → Read β} {bytes : Bytes}
    {value : α} {result : β} (head : Reads read bytes value)
    (tail : Reads (next value) [] result)
    : Reads (read >>= next) bytes result := by
  have sequence := head.bind tail
  rwa [List.append_nil] at sequence

theorem Reads.lift {α : Type} {result : Except String α} {value : α} (ok : result = .ok value)
    : Reads (liftM result : Read α) [] value :=
  fun r _ _ left => ⟨r, run_liftM_ok.mpr ⟨ok, rfl⟩, left, rfl⟩

theorem readSelection_reads {bank : Bank} {indices : List UInt8}
    (inRange : ∀ pcr ∈ indices, pcr ≤ 23)
    : Reads readSelection (putPcrSelection bank indices)
        (bank.id, Sorting.sortDedup indices) := by
  obtain ⟨⟨first, second, third⟩, made⟩ : ∃ bitmap, indices.foldl setPcrBit (0, 0, 0) = bitmap :=
    ⟨_, rfl⟩
  obtain ⟨within, sorted⟩ := setPositions_foldl inRange made
  have bitmap : bitmapPcrs 0 [first, second, third] = .ok (Sorting.sortDedup indices) :=
    bitmapPcrs_ok.mpr ⟨within, sorted.symm⟩
  have written : putPcrSelection bank indices
      = putU32 1 ++ (putU16 bank.id ++ ([3] ++ [first, second, third])) := by
    simp only [putPcrSelection, made, List.append_assoc]
  rw [written]
  refine (readU32_reads 1).bind ((readU16_reads bank.id).bind ((readU8_reads 3).bind ?_))
  exact (readBytes_reads rfl).bind_pure ((Reads.lift bitmap).bind_pure (.pure _))

/-- A command is understood as its parameters are. -/
theorem understand_command {cc : UInt32} {body : Bytes} {request : Request}
    (room : 10 + body.length < 2 ^ 32) (parameters : Reads (readParameters cc) body request)
    : understand (command cc body) = some request := by
  have size : (UInt32.ofNat (10 + body.length)).toNat = (command cc body).length := by
    rw [UInt32.toNat_ofNat']
    simp only [command, putU16, putU32, List.cons_append, List.nil_append, List.length_cons]
    omega
  have whole : Reads readRequest (command cc body) (UInt32.ofNat (10 + body.length), request) := by
    rw [command, List.append_assoc, List.append_assoc]
    refine (readU16_reads stNoSessions).bind ((readU32_reads _).bind ((readU32_reads cc).bind ?_))
    exact parameters.bind_pure (.pure _)
  have small : (command cc body).length < 2 ^ 64 := by
    rw [← size]
    exact (UInt32.toNat_lt _).trans (by decide)
  obtain ⟨after, run, ended, same⟩ :=
    whole (.new (command cc body)) [] small (List.append_nil _).symm
  have emptied : after.remaining = 0 := by
    have length := congrArg List.length ended
    simpa [Reader.rest, Reader.remaining] using length
  rw [understand, run]
  exact if_pos ⟨size, emptied⟩

theorem length_putPcrSelection (bank : Bank) (indices : List UInt8)
    : (putPcrSelection bank indices).length = 10 :=
  rfl

theorem understand_lockout
    : understand (command ccGetCapability Tpm.lockoutBody)
      = some (.getCapability capTpmProperties ptPermanent (ptMaxAuthFail - ptPermanent + 1)) := by
  refine understand_command (by decide) ?_
  rw [Tpm.lockoutBody, List.append_assoc]
  refine (readU32_reads _).bind ((readU32_reads _).bind ?_)
  exact (readU32_reads _).bind_pure (.pure _)

theorem understand_pcrRead {bank : Bank} {indices : List UInt8}
    (inRange : ∀ pcr ∈ indices, pcr ≤ 23)
    : understand (command ccPcrRead (putPcrSelection bank indices))
      = some (.pcrRead bank.id (Sorting.sortDedup indices)) := by
  have room : 10 + (putPcrSelection bank indices).length < 2 ^ 32 := by
    rw [length_putPcrSelection]
    decide
  refine understand_command room ?_
  exact (readSelection_reads inRange).bind_pure (.pure _)

theorem understand_startTrialSession
    : understand (command ccStartAuthSession Tpm.trialSessionBody)
      = some (.startTrialSession Bank.sha256.id) := by
  decide +kernel

theorem understand_policyPcr {session : UInt32} {bank : Bank} {indices : List UInt8}
    (inRange : ∀ pcr ∈ indices, pcr ≤ 23)
    : understand (command ccPolicyPcr (Tpm.policyPcrBody session bank indices))
      = some (.policyPcr session bank.id (Sorting.sortDedup indices)) := by
  have length : (Tpm.policyPcrBody session bank indices).length = 16 := rfl
  refine understand_command (by rw [length]; decide) ?_
  rw [Tpm.policyPcrBody, List.append_assoc]
  have empty : Reads readTpm2b (putU16 0) [] := @readTpm2b_reads [] (by decide)
  refine (readU32_reads session).bind (empty.bind ?_)
  exact (readSelection_reads inRange).bind_pure (.pure _)

theorem understand_policyGetDigest {session : UInt32}
    : understand (command ccPolicyGetDigest (putU32 session)) = some (.policyGetDigest session) := by
  have length : (putU32 session).length = 4 := rfl
  exact understand_command (by rw [length]; decide) ((readU32_reads session).bind_pure (.pure _))

theorem understand_flush {handle : UInt32}
    : understand (command ccFlushContext (putU32 handle)) = some (.flushContext handle) := by
  have length : (putU32 handle).length = 4 := rfl
  exact understand_command (by rw [length]; decide) ((readU32_reads handle).bind_pure (.pure _))

end Tpm2Autoenroll.Tpm2
