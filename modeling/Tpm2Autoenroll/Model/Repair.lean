import Tpm2Autoenroll.Model.Prompts
import Tpm2Autoenroll.Model.Token
import Tpm2Autoenroll.Model.TpmDevice

/-! Checking a passphrase, reading the header, deciding whether a re-enrollment is right and
running it: `device.rs`, `luks.rs`, `token::read`, `drift.rs`, `preflight.rs` and `enroll.rs`.
-/

namespace Tpm2Autoenroll

open Text (Bytes)
open Token (Tpm2Token)
open Tpm2 (Bank Tpm)

-----------------------------------------------------------------------------------------
-- The device and its passphrases
-----------------------------------------------------------------------------------------

/-- `Device::open`. -/
def Device.open (path : String) : Sys (Except String Device) := do
  match ← ask (.openFile path false) with
  | .error e => return .error s!"{path}: {e}"
  | .ok fd =>
      match ← ask (.fstat fd) with
      | .error e => return .error s!"{path}: {e}"
      | .ok fileType =>
          if fileType ≠ .blockDevice then
            return .error s!"{path} is not a block device"
          else
            return .ok ⟨fd, path⟩

/-- `SecretFile::new`. -/
def SecretFile.new (secret : Secret) : Sys (Except String SecretFile) := do
  match ← ask (.secretFile secret) with
  | .error e => return .error e
  | .ok fd => return .ok ⟨fd, secret⟩

namespace Luks

inductive Verdict
  | correct
  | wrong
  | unusable (why : String)
  deriving DecidableEq

/-- Only exit code 2 means that the passphrase is not one of this volume's. -/
def verdictFromCode (code : Option Int) : Verdict :=
  match code with
  | some 0 => .correct
  | some 2 => .wrong
  | some 1 => .unusable "cryptsetup: wrong parameters"
  | some 3 => .unusable "cryptsetup: out of memory"
  | some 4 => .unusable "cryptsetup: wrong device"
  | some 5 => .unusable "cryptsetup: device already exists or is busy"
  | some n => .unusable s!"cryptsetup exited with {n}"
  | none => .unusable "cryptsetup was killed by a signal"

/-- What a finished trial amounts to, with cryptsetup's own words when it was unusable. -/
def verdict (out : Output) : Verdict :=
  match verdictFromCode out.status.code with
  | .unusable reason =>
      let stderr := Text.trim (Text.fromUtf8Lossy out.stderr)
      if stderr = "" then .unusable reason else .unusable s!"{reason}: {stderr}"
  | other => other

def testPassphrase (device : Device) (secret : Secret) : Sys Verdict := do
  match ← SecretFile.new secret with
  | .error e => return .unusable e
  | .ok key =>
      match ← ask (.child (.testPassphrase device key)) with
      | .error e => return .unusable e
      | .ok out => return verdict out

end Luks

/-- The words of a child that exited with an error. -/
def exited (program : String) (out : Output) : String :=
  s!"{program} exited with {out.status.display} ({Text.trim (Text.fromUtf8Lossy out.stderr)})"

-----------------------------------------------------------------------------------------
-- The header
-----------------------------------------------------------------------------------------

/-- `token::read`: every `systemd-tpm2` token in the device's header. -/
def Token.read (fromStr : Json.Reader) (device : Device)
    : Sys (Except String (List Tpm2Token)) := do
  match ← ask (.child (.luksDump device)) with
  | .error e => return .error e
  | .ok out =>
      if !out.status.success then
        return .error (exited s!"cryptsetup luksDump {device.name}" out)
      else
        return Token.parse fromStr (Text.fromUtf8Lossy out.stdout)

-----------------------------------------------------------------------------------------
-- Drift
-----------------------------------------------------------------------------------------

inductive Drift
  | drifted (enrolled current : Bytes)
  | unchanged
  | unknown (why : String)
  deriving DecidableEq

namespace Drift

/-- Enough of a digest to tell two apart in a log line. -/
def short (digest : Bytes) : String :=
  String.ofList ((digest.take 8).flatMap Text.hexByte) ++ if digest.length > 8 then "..." else ""

def describe : Drift → String
  | .drifted enrolled current =>
      s!"the boot measurements have changed (policy {short enrolled} -> {short current})"
  | .unchanged => "the current PCRs still satisfy the enrolled policy"
  | .unknown why => s!"cannot tell whether the PCRs drifted: {why}"

/-- `drift::check`: the token's sealed policy against what the registers produce now. -/
def check (tpm : Tpm) (token : Tpm2Token) (pcrs : List UInt8) (bank : Bank) : Sys Drift := do
  if let some kind := token.advanced then
    return .unknown s!"the enrollment uses {kind}"
  else if token.pin then
    return .unknown "the enrollment requires a TPM2 PIN"
  else if pcrs = [] then
    -- Sealed against nothing, so nothing can drift.
    return .unchanged
  else
    match ← (tpm.pcrPolicyDigest bank pcrs).run with
    | .error e => return .unknown e
    | .ok current =>
        if current = token.policyHash then
          return .unchanged
        else
          return .drifted token.policyHash current

end Drift

-----------------------------------------------------------------------------------------
-- Preflight
-----------------------------------------------------------------------------------------

namespace Preflight

/-- Everything the enrollment step needs beyond the volume's own config. -/
structure Plan where
  oldToken : Option UInt32
  /-- What the volume is sealed against now. -/
  enrolled : Bytes
  /-- The policy digest the current PCRs produce; also the consent memory's key. -/
  state : Bytes
  deriving DecidableEq

inductive Decision
  | reenroll (plan : Plan)
  | leave (why : String)
  deriving DecidableEq

/-- `systemd-cryptenroll`'s search path for the signed-policy public key. -/
def publicKeyPaths : List String :=
  ["/etc/systemd/tpm2-pcr-public-key.pem", "/run/systemd/tpm2-pcr-public-key.pem",
    "/usr/local/lib/systemd/tpm2-pcr-public-key.pem",
    "/usr/lib/systemd/tpm2-pcr-public-key.pem"]

/-- `tpm2_pcrlock_search_file()`'s search path. -/
def pcrlockPaths : List String :=
  ["/run/systemd/pcrlock.json", "/var/lib/systemd/pcrlock.json"]

/-- A policy element a literal-PCR repair would drop. -/
def tokenRefusal (token : Tpm2Token) : Option String :=
  if token.pin then
    some "the enrollment requires a TPM2 PIN, which a repair would silently drop"
  else
    token.advanced.map fun kind =>
      s!"the enrollment uses {kind}, which this tool cannot recreate"

/-- Does the token's selection agree with the config? An absent bank means sha256. -/
def sameSelection (token : Tpm2Token) (config : Volume) : Except String Unit :=
  let headerBank := token.bank.getD "sha256"
  if token.pcrs = config.pcrs.list ∧ headerBank = config.bank.name then
    .ok ()
  else
    let headerPcrs := if token.pcrs = [] then "(none)" else Config.pcrList token.pcrs
    .error
      (s!"the header's PCR selection {headerPcrs} ({headerBank}) differs from the configured "
        ++ s!"{Config.pcrList config.pcrs.list} ({config.bank.name})")

/-- The selections agree exactly when neither the registers nor the bank differ. -/
theorem sameSelection_ok {token : Tpm2Token} {config : Volume}
    : sameSelection token config = .ok ()
      ↔ token.pcrs = config.pcrs.list ∧ token.bank.getD "sha256" = config.bank.name := by
  unfold sameSelection
  split_ifs with same <;> simp [same]

/-- `host_policy`: the first of the paths that exists. -/
def hostPolicy : List String → Sys (Option String)
  | [] => return none
  | path :: rest => do
      let found : Bool ← ask (.symlinkMetadata path)
      if found then
        return some
          s!"{path} exists, so this machine expects a policy this tool does not produce"
      else
        hostPolicy rest

/-- The ordinary case: one token, and the question is whether it has gone stale. -/
def drifted (token : Tpm2Token) (config : Volume) (tpm : Tpm) : Sys Decision := do
  if let some why := tokenRefusal token then
    return .leave why
  else
    match sameSelection token config with
    | .error why =>
        return .leave s!"{why}; refusing: this is a manual re-enrollment or tampering"
    | .ok () =>
        match ← hostPolicy (publicKeyPaths ++ pcrlockPaths) with
        | some why => return .leave why
        | none =>
            match ← Drift.check tpm token config.pcrs.list config.bank with
            | .drifted _ current =>
                return .reenroll ⟨some token.index, token.policyHash, current⟩
            | .unchanged =>
                return .leave
                  ("the current PCRs still satisfy the enrolled policy, so the unlock failed "
                    ++ "for some other reason and re-sealing would change nothing")
            | .unknown why =>
                return .leave s!"cannot tell whether the PCRs drifted: {why}"

/-- What is decided from the header's tokens once the TPM has answered. -/
def fromTokens (tokens : List Tpm2Token) (config : Volume) (tpm : Tpm) : Sys Decision :=
  match tokens with
  | [] =>
      return .leave
        "it carries no systemd-tpm2 token, so there is no TPM2 binding to repair"
  | [token] => drifted token config tpm
  | more =>
      return .leave
        (s!"the header carries {more.length} systemd-tpm2 tokens, and --wipe-slot=tpm2 "
          ++ "would remove all of them")

def check (fromStr : Json.Reader) (volume : String) (config : Volume) (device : Device)
    (tpm : Tpm) : Sys Decision := do
  match ← Token.read fromStr device with
  | .error e => return .leave s!"could not read the LUKS2 tokens: {e}"
  | .ok tokens =>
      match ← (tpm.lockout).run with
      | .error e => return .leave s!"could not read the TPM's lockout state: {e}"
      | .ok l =>
          if l.inLockout then
            return .leave
              (s!"the TPM is in dictionary-attack lockout ({l.counter} of "
                ++ s!"{l.maxAuthFail} failures)")
          else
            log (.tpmResponsive volume l.counter l.maxAuthFail)
            fromTokens tokens config tpm

/-- One line for each register. -/
def logValues (volume : String) : List (UInt8 × Bytes) → Sys Unit
  | [] => return
  | (pcr, digest) :: rest => do
      log (.pcrIsNow volume pcr (String.ofList (digest.flatMap Text.hexByte)))
      logValues volume rest

/-- What was measured at the moment the daemon was consulted. -/
def logState (volume : String) (tpm : Tpm) (config : Volume) : Sys Unit := do
  match ← (tpm.readPcrs config.bank config.pcrs.list).run with
  | .ok values => logValues volume values
  | .error e => log (.couldNotReadPcrs volume e)

end Preflight

-----------------------------------------------------------------------------------------
-- Enrollment
-----------------------------------------------------------------------------------------

namespace Enroll

/-- `enroll::run`: re-bind the device to the PCR state it is in right now. -/
def run (device : Device) (tpm2Device : String) (pcrs : List UInt8) (bank : Bank)
    (secret : Secret) : Sys (Except String Unit) := do
  if pcrs = [] then
    return .error "refusing to enroll against an empty PCR selection"
  else
    match ← SecretFile.new secret with
    | .error e => return .error e
    | .ok key =>
        match ← ask (.child (.cryptenroll device tpm2Device pcrs bank key)) with
        | .error e => return .error e
        | .ok out =>
            if out.status.success then
              return .ok ()
            else
              return .error (exited "systemd-cryptenroll" out)

/-- `enroll::test_unseal`: does the freshly written token unlock the volume? -/
def testUnseal (device : Device) (tokenIndex : UInt32) : Sys (Except String Unit) := do
  match ← ask (.child (.testUnseal device tokenIndex)) with
  | .error e => return .error e
  | .ok out =>
      if out.status.success then
        return .ok ()
      else
        return .error (exited "cryptsetup" out)

/-- The sole token that is not the old one. -/
def findNewToken (tokens : List Tpm2Token) (oldIndex : Option UInt32) : Option Tpm2Token :=
  match tokens.filter fun t => some t.index ≠ oldIndex with
  | [first] => some first
  | _ => none

end Enroll

end Tpm2Autoenroll
