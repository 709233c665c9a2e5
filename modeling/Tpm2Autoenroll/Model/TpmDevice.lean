import Mathlib.Data.List.Sort
import Mathlib.Data.List.Destutter
import Tpm2Autoenroll.Interaction.Fallible
import Tpm2Autoenroll.Model.System

/-! Talking to the TPM over its resource manager device: the commands of `tpm2.rs` as the
requests they make.
-/

namespace Tpm2Autoenroll.Tpm2

open Text (Bytes)

/-- An open TPM device. -/
structure Tpm where
  fd : Fd
  deriving DecidableEq

def defaultDevice : String := "/dev/tpmrm0"

/-- A result that needed no request. -/
def ofResult {α : Type} (result : Except String α) : SysE α := ExceptT.mk (pure result)

/-- One request as a fallible step. -/
def request (op : Op) : SysE (Res op) := ExceptT.lift (ask op)

/-- `Tpm::open`. -/
def Tpm.open (device : String) : SysE Tpm := do
  let path := if device = "auto" then defaultDevice else device
  match ← request (.openFile path true) with
  | .error e => throw s!"{path}: {e}"
  | .ok fd =>
      -- Everything after this writes commands to the file, so it must not be a disk.
      match ← request (.fstat fd) with
      | .error e => throw s!"{path}: {e}"
      | .ok fileType =>
          if fileType ≠ .characterDevice then
            throw s!"{path} is not a character device, so not a TPM"
          else
            return ⟨fd⟩

namespace Tpm

/-- Write one command, wait for the response and check its header. -/
def transact (tpm : Tpm) (cc : UInt32) (body : Bytes) : SysE Bytes := do
  match ← request (.tpm tpm.fd (command cc body)) with
  | .writeFailed e => throw s!"writing command {Text.hexWord cc} to the TPM: {e}"
  | .timeout => throw s!"no response to command {Text.hexWord cc} within 30 seconds"
  | .pollFailed e => throw s!"waiting for the response to command {Text.hexWord cc}: {e}"
  | .readFailed e => throw s!"reading the response to command {Text.hexWord cc}: {e}"
  | .response buf =>
      ofResult ((responsePayload buf).mapError fun e => s!"command {Text.hexWord cc}: {e}")

/-- The body of the lockout query: PT_PERMANENT through PT_MAX_AUTH_FAIL. -/
def lockoutBody : Bytes :=
  putU32 capTpmProperties ++ putU32 ptPermanent ++ putU32 (ptMaxAuthFail - ptPermanent + 1)

/-- Read the dictionary-attack state. -/
def lockout (tpm : Tpm) : SysE Lockout := do
  let payload ← tpm.transact ccGetCapability lockoutBody
  ofResult (parseProperties payload)

/-- The loop of `read_pcrs`. Every round answers for an outstanding register, so as many
rounds as there are outstanding registers are enough.
-/
def readPcrRounds (tpm : Tpm) (bank : Bank)
    : Nat → List UInt8 → List (UInt8 × Bytes) → SysE (List (UInt8 × Bytes))
  | _, [], out => return out
  | 0, _ :: _, _ => ExceptT.mk .pending
  | rounds + 1, pcr :: more, out => do
      let payload ← tpm.transact ccPcrRead (putPcrSelection bank (pcr :: more))
      let (remaining, out) ←
        ofResult ((parsePcrRead payload).bind fun round => absorb (pcr :: more) out round)
      tpm.readPcrRounds bank rounds remaining out

def readPcrs (tpm : Tpm) (bank : Bank) (indices : List UInt8)
    : SysE (List (UInt8 × Bytes)) := do
  let remaining := (indices.insertionSort (· ≤ ·)).destutter (· ≠ ·)
  let out ← tpm.readPcrRounds bank remaining.length remaining []
  return out.insertionSort fun a b => a.1 ≤ b.1

/-- The body that opens an unsalted, unbound trial session. -/
def trialSessionBody : Bytes :=
  putU32 rhNull ++ putU32 rhNull ++ putTpm2b (List.replicate 32 0) ++ putTpm2b [] ++ [seTrial]
    ++ putU16 algNull ++ putU16 Bank.sha256.id

def startTrialSession (tpm : Tpm) : SysE UInt32 := do
  let payload ← tpm.transact ccStartAuthSession trialSessionBody
  ofResult (parseHandle payload)

def flush (tpm : Tpm) (handle : UInt32) : SysE Unit := do
  let _ ← tpm.transact ccFlushContext (putU32 handle)

/-- The body of PolicyPCR: an empty pcrDigest asks for the registers' current values. -/
def policyPcrBody (session : UInt32) (bank : Bank) (indices : List UInt8) : Bytes :=
  putU32 session ++ putU16 0 ++ putPcrSelection bank indices

def buildPolicy (tpm : Tpm) (session : UInt32) (bank : Bank) (indices : List UInt8)
    : SysE Bytes := do
  let _ ← tpm.transact ccPolicyPcr (policyPcrBody session bank indices)
  let payload ← tpm.transact ccPolicyGetDigest (putU32 session)
  ofResult (parseDigest payload)

/-- The policy digest that the current PCR values would produce. -/
def pcrPolicyDigest (tpm : Tpm) (bank : Bank) (indices : List UInt8) : SysE Bytes := do
  let session ← tpm.startTrialSession
  let result ← ExceptT.lift (tpm.buildPolicy session bank indices).run
  -- The session is released whether or not the policy worked out.
  match ← ExceptT.lift (tpm.flush session).run with
  | .error e => ExceptT.lift (log (.couldNotFlush session e))
  | .ok () => pure ()
  ofResult result

end Tpm

end Tpm2Autoenroll.Tpm2
