import Mathlib.Data.Finset.Insert
import Tpm2Autoenroll.Model.Config
import Tpm2Autoenroll.Model.System

/-! The two questions put to a human: the passphrase prompt of `askpw.rs` and the consent
prompt of `consent.rs`, with the decisions remembered between connections.
-/

namespace Tpm2Autoenroll

open Text (Bytes)
open Interaction (Prog)

-----------------------------------------------------------------------------------------
-- Passphrases
-----------------------------------------------------------------------------------------

namespace Askpw

def maxCandidates : Nat := 4

/-- `parse_candidates`: the first few non-empty lines of the agent's output. -/
def parseCandidates (stdout : Bytes) : List Secret :=
  (((stdout.splitOn 0x0a).map Secret.mk).filter fun s => !s.bytes.isEmpty).take maxCandidates

/-- One byte as `cescape` writes it. -/
def cescapeByte (b : UInt8) : List Char :=
  if b = 0x07 then "\\a".toList
  else if b = 0x08 then "\\b".toList
  else if b = 0x0c then "\\f".toList
  else if b = 0x0a then "\\n".toList
  else if b = 0x0d then "\\r".toList
  else if b = 0x09 then "\\t".toList
  else if b = 0x0b then "\\v".toList
  else if b = 0x5c then "\\\\".toList
  else if b = 0x22 then "\\\"".toList
  else if b = 0x27 then "\\'".toList
  else if 0x20 ≤ b ∧ b ≤ 0x7e then [Char.ofNat b.toNat]
  else "\\x".toList ++ Text.hexByte b

def cescape (s : String) : String := String.ofList ((Text.asBytes s).flatMap cescapeByte)

/-- Cosmetic: the text a human reads. -/
def friendlyName (volume device : String) : String := s!"{device} ({volume})"

/-- Every candidate the agent offered, in the order offered. -/
def ask (volume device : String) (attempt : Attempt) : Sys (Except String (List Secret)) := do
  match ← Tpm2Autoenroll.ask (.child (.askPassword volume device attempt)) with
  | .error e => return .error e
  | .ok out =>
      if !out.status.success then
        return .error s!"systemd-ask-password exited with {out.status.display}"
      else
        let candidates := parseCandidates out.stdout
        if candidates = [] then
          return .error "systemd-ask-password returned no passphrase"
        else
          return .ok candidates

end Askpw

-----------------------------------------------------------------------------------------
-- Consent
-----------------------------------------------------------------------------------------

namespace Consent

/-- Answers already given, keyed by the policy digest of the boot state. -/
structure Decisions where
  declines : Finset Bytes
  accepts : Finset Bytes

namespace Decisions

def new : Decisions := ⟨∅, ∅⟩

def declined (decided : Decisions) (state : Bytes) : Bool := state ∈ decided.declines

def decline (decided : Decisions) (state : Bytes) : Decisions :=
  { decided with declines := insert state decided.declines }

def accepted (decided : Decisions) (state : Bytes) : Bool := state ∈ decided.accepts

def accept (decided : Decisions) (state : Bytes) : Decisions :=
  { decided with accepts := insert state decided.accepts }

@[simp]
theorem declined_iff {decided : Decisions} {state : Bytes}
    : decided.declined state = true ↔ state ∈ decided.declines := by
  simp [declined]

@[simp]
theorem accepted_iff {decided : Decisions} {state : Bytes}
    : decided.accepted state = true ↔ state ∈ decided.accepts := by
  simp [accepted]

end Decisions

inductive Answer
  | no
  | yes
  | always
  deriving DecidableEq

/-- Only the first line counts, and anything unrecognised is a refusal. -/
def classifyResponse (answer : Bytes) : Answer :=
  let lines := Text.charLines (Text.lossyChars answer)
  let first := Text.trimChars (lines.head?.getD [])
  let word := first.map Text.toAsciiLowercase
  if word = "y".toList ∨ word = "yes".toList then .yes
  else if word = "a".toList ∨ word = "always".toList then .always
  else .no

/-- Anything that is not an explicit yes is a no. -/
def ask (volume device : String) (pcrs : List UInt8) (bank : Tpm2.Bank) : Sys Answer := do
  match ← Tpm2Autoenroll.ask (.child (.askConsent volume device pcrs bank)) with
  | .ok out =>
      if out.status.success then
        return classifyResponse out.stdout
      else
        log (.consentExited volume out.status)
        return .no
  | .error e =>
      log (.consentFailed volume e)
      return .no

example : classifyResponse "  YES \nno".toUTF8.data.toList = .yes := by decide

end Consent

-----------------------------------------------------------------------------------------
-- Command lines
-----------------------------------------------------------------------------------------

namespace Enroll

/-- The `--tpm2-pcrs=` argument: `PCR:BANK[+PCR:BANK...]`, the bank always pinned. -/
def pcrSpec (pcrs : List UInt8) (bank : String) : String :=
  "+".intercalate (pcrs.map fun pcr => s!"{pcr}:{bank}")

end Enroll

namespace Child

def program : Child → String
  | .luksDump _ | .testPassphrase _ _ | .testUnseal _ _ => "cryptsetup"
  | .askPassword _ _ _ | .askConsent _ _ _ _ => "systemd-ask-password"
  | .cryptenroll _ _ _ _ _ => "systemd-cryptenroll"

/-- The arguments each place passes. A secret travels as the path of its memfd only. -/
def args : Child → List String
  | .luksDump device => ["luksDump", "--dump-json-metadata", fdPath device.fd]
  | .testPassphrase device key =>
      ["open", "--test-passphrase", "--batch-mode", "--disable-external-tokens",
        "--disable-keyring", s!"--key-file={fdPath key.fd}", fdPath device.fd]
  | .askPassword volume device attempt =>
      let friendly := Askpw.friendlyName volume device
      ["--icon=drive-harddisk", s!"--id=cryptsetup:{Askpw.cescape device}",
          "--keyname=cryptsetup", "--credential=cryptsetup.passphrase", "--multiple",
          "--timeout=90", "-n"]
        ++ match attempt with
          | .first => ["--accept-cached", s!"Please enter passphrase for disk {friendly}:"]
          | .retry => [s!"Passphrase did not unlock {friendly}, please try again:"]
  | .askConsent volume device pcrs bank =>
      ["--icon=drive-harddisk", "--emoji=yes",
        s!"--id=tpm2-autoenroll:{Askpw.cescape device}", "--echo=yes", "--timeout=90", "-n",
        s!"Boot measurements for {volume} have changed since TPM2 enrollment. "
          ++ s!"Re-enroll TPM2 for {volume} against PCRs {Config.pcrList pcrs} "
          ++ s!"({bank.name}) in their current state? [y(es)/n(o)/a(lways)]"]
  | .cryptenroll device tpm2Device pcrs bank key =>
      [s!"--unlock-key-file={fdPath key.fd}", "--wipe-slot=tpm2",
        s!"--tpm2-device={tpm2Device}", s!"--tpm2-pcrs={Enroll.pcrSpec pcrs bank.name}",
        "--tpm2-public-key=", "--tpm2-pcrlock=", "--tpm2-with-pin=no", fdPath device.fd]
  | .testUnseal device tokenIndex =>
      ["open", "--test-passphrase", "--batch-mode", "--token-only",
        s!"--token-id={tokenIndex}", "--disable-keyring", fdPath device.fd]

end Child

end Tpm2Autoenroll
