import Tpm2Autoenroll.Exchanges.Commands
import Tpm2Autoenroll.Interaction.Monitors
import Tpm2Autoenroll.Surroundings.Headers

/-! The TPM and the headers as the daemon shares them with everyone else: what they answer, what
others may do to them at any time, and what of it concerns a repair.
-/

namespace Tpm2Autoenroll

open Interaction
open Text (Bytes)
open Token (Tpm2Token)
open Tpm2 (Bank)

/-- What is fixed about a machine: the disk a path leads to, the digest of a session that was
just started, and what PolicyPCR makes of a digest, given a bank, the selected registers and the
values of all registers.
-/
structure Platform (ρ δ : Type) where
  disk : String → δ
  fresh : Bytes
  extend : Bytes → UInt16 → List UInt8 → ρ → Bytes

/-- The digest of a policy over nothing but these registers. -/
def Platform.policy {ρ δ : Type} (platform : Platform ρ δ) (values : ρ) (bank : Bank)
    (pcrs : List UInt8) : Bytes :=
  platform.extend platform.fresh bank.id pcrs values

/-- The register values, the digests of the sessions by their handles, and the headers. -/
structure World (ρ δ : Type) where
  values : ρ
  sessions : Bytes → Bytes
  headers : δ → Json.Value

-----------------------------------------------------------------------------------------
-- What is answered
-----------------------------------------------------------------------------------------

/-- The handle that a command starts with. -/
def Tpm2.commandHandle (cmd : Bytes) : Bytes := (cmd.drop 10).take 4

namespace World

variable {ρ δ : Type}

/-- What a command that succeeded did: a new session has a fresh digest, PolicyPCR extends a
session by the registers of its selection, and PolicyGetDigest reports a session's digest.
-/
def Executes (platform : Platform ρ δ) (w : World ρ δ) (cmd payload : Bytes)
    (after : World ρ δ) : Prop :=
  (Tpm2.commandCode cmd = Tpm2.putU32 Tpm2.ccStartAuthSession
    → ∀ handle, Tpm2.parseHandle payload = .ok handle
      → after.sessions (Tpm2.putU32 handle) = platform.fresh)
  ∧ (Tpm2.commandCode cmd = Tpm2.putU32 Tpm2.ccPolicyPcr
    → ∀ bank pcrs, Tpm2.selected (cmd.drop 16) = some (bank, pcrs)
      → after.sessions (Tpm2.commandHandle cmd)
        = platform.extend (w.sessions (Tpm2.commandHandle cmd)) bank pcrs w.values)
  ∧ (Tpm2.commandCode cmd = Tpm2.putU32 Tpm2.ccPolicyGetDigest
    → ∀ digest, Tpm2.parseDigest payload = .ok digest
      → digest = w.sessions (Tpm2.commandHandle cmd))

/-- A dump that succeeded shows the header, and a command that succeeded was carried out. What
else changes, and what others do meanwhile, is left open.
-/
def Step (platform : Platform ρ δ) (fromStr : Json.Reader) (w : World ρ δ) (event : Event)
    (after : World ρ δ) : Prop :=
  match event with
  | ⟨.child (.luksDump device), .ok out⟩ =>
      out.status.success = true
        → fromStr (Text.fromUtf8Lossy out.stdout)
          = .ok (w.headers (platform.disk device.name))
  | ⟨.tpm _ cmd, answer⟩ =>
      ∀ payload, answer.payload = some payload → Executes platform w cmd payload after
  | _ => True

end World

-----------------------------------------------------------------------------------------
-- What others do
-----------------------------------------------------------------------------------------

/-- The device and the command line of an enrollment that succeeded. -/
def enrolled : Event → Option (Device × List String)
  | ⟨.child (.cryptenroll device tpm2Device pcrs bank key), .ok out⟩ =>
      if out.status.success then
        some (device, Child.args (.cryptenroll device tpm2Device pcrs bank key))
      else
        none
  | _ => none

/-- Nobody but systemd-cryptenroll changed the header of a disk, and that as it does when it
succeeds: sealing to the register values it finds.
-/
def Undisturbed {ρ δ : Type} (platform : Platform ρ δ) (w : World ρ δ) (event : Event)
    (after : World ρ δ) (disk : δ) : Prop :=
  match enrolled event with
  | some (device, args) =>
      (platform.disk device.name = disk
        → Cryptenroll.Enrolls args (platform.policy w.values) (w.headers disk)
          (after.headers disk))
      ∧ (platform.disk device.name ≠ disk → after.headers disk = w.headers disk)
  | none => after.headers disk = w.headers disk

-----------------------------------------------------------------------------------------
-- What concerns a repair
-----------------------------------------------------------------------------------------

/-- What a connection got from the TPM: the register values when PolicyPCR last ran, and whether
every answer so far was of use.
-/
structure TpmView (ρ : Type) where
  measured : Option ρ
  responsive : Bool

/-- Whether the payload of an answer is of use to the command. -/
def TpmView.useful (cmd payload : Bytes) : Bool :=
  if Tpm2.commandCode cmd = Tpm2.putU32 Tpm2.ccStartAuthSession then
    (Tpm2.parseHandle payload).isOk
  else if Tpm2.commandCode cmd = Tpm2.putU32 Tpm2.ccPolicyGetDigest then
    (Tpm2.parseDigest payload).isOk
  else
    true

def TpmView.observe {ρ : Type} (view : TpmView ρ) (values : ρ) (cmd : Bytes)
    (answer : TpmAnswer) : TpmView ρ :=
  match answer.payload with
  | none => { view with responsive := false }
  | some payload => {
      measured :=
        if Tpm2.commandCode cmd = Tpm2.putU32 Tpm2.ccPolicyPcr then some values
        else view.measured
      responsive := view.responsive && useful cmd payload
    }

/-- What a connection got from reading the header: the tokens it read last, and whether every
reading so far was of use.
-/
structure HeaderView where
  tokens : Option (List Tpm2Token)
  readable : Bool

/-- The tokens that are read from a dump. -/
def Token.ofDump (fromStr : Json.Reader) : Except String Output → Option (List Tpm2Token)
  | .ok out =>
      if out.status.success then
        (Token.parse fromStr (Text.fromUtf8Lossy out.stdout)).toOption
      else
        none
  | .error _ => none

def HeaderView.observe (view : HeaderView) (fromStr : Json.Reader)
    (answer : Except String Output) : HeaderView where
  tokens := Token.ofDump fromStr answer
  readable := view.readable && (Token.ofDump fromStr answer).isSome

/-- An enrollment that succeeded: where and over which registers, the register values that the
policy digest had been computed from, and those that it sealed to.
-/
structure Sealing (ρ δ : Type) where
  disk : δ
  pcrs : List UInt8
  bank : Bank
  measured : Option ρ
  values : ρ

/-- What a connection has come to know, from its start or since it enrolled. -/
structure Repair (ρ δ : Type) where
  tpm : TpmView ρ
  header : HeaderView
  sealing : Option (Sealing ρ δ)
  /-- The new token unlocked the volume. -/
  unsealed : Bool
  /-- The policy of the new token was found to match. -/
  confirmed : Bool

/-- The line that says so. -/
def LogLine.confirms : LogLine → Bool
  | .verifiedByPolicy _ _ => true
  | _ => false

namespace Repair

variable {ρ δ : Type}

def start : Repair ρ δ := ⟨⟨none, true⟩, ⟨none, true⟩, none, false, false⟩

def observe (platform : Platform ρ δ) (fromStr : Json.Reader) (values : ρ)
    (repair : Repair ρ δ) : Event → Repair ρ δ
  | ⟨.accept _, .ok _⟩ => start
  | ⟨.tpm _ cmd, answer⟩ => { repair with tpm := repair.tpm.observe values cmd answer }
  | ⟨.child (.luksDump _), answer⟩ =>
      { repair with header := repair.header.observe fromStr answer }
  | ⟨.child (.cryptenroll device _ pcrs bank _), .ok out⟩ =>
      if out.status.success then
        let disk := platform.disk device.name
        ⟨⟨none, true⟩, ⟨none, true⟩, some ⟨disk, pcrs, bank, repair.tpm.measured, values⟩,
          false, false⟩
      else
        repair
  | ⟨.child (.testUnseal _ _), .ok out⟩ =>
      { repair with unsealed := repair.unsealed || out.status.success }
  | ⟨.log line, _⟩ => { repair with confirmed := repair.confirmed || line.confirms }
  | _ => repair

end Repair

-----------------------------------------------------------------------------------------
-- The watch
-----------------------------------------------------------------------------------------

/-- A run in its surroundings. -/
structure Watched (ρ δ : Type) where
  world : World ρ δ
  /-- The events of the connection so far. -/
  here : Trace
  repair : Repair ρ δ
  /-- Since the connection was accepted, nobody but systemd-cryptenroll changed a header. -/
  intact : Prop
  /-- The disk was sealed to these registers, and since then nobody changed a register or the
  disk's header.
  -/
  settled : δ → List UInt8 → Bank → Prop

namespace Watched

variable {ρ δ : Type}

/-- A run that begins in this world. -/
def of (world : World ρ δ) : Watched ρ δ := ⟨world, [], .start, True, fun _ _ _ => False⟩

/-- The event opens a connection. -/
def opens : Event → Bool
  | ⟨.accept _, .ok _⟩ => true
  | _ => false

/-- What is seen of an event after which the world is another. -/
def next (platform : Platform ρ δ) (fromStr : Json.Reader) (s : Watched ρ δ) (event : Event)
    (after : World ρ δ) : Watched ρ δ where
  world := after
  here := if opens event then [] else s.here ++ [event]
  repair := s.repair.observe platform fromStr s.world.values event
  intact := (opens event ∨ s.intact) ∧ ∀ disk, Undisturbed platform s.world event after disk
  settled disk pcrs bank :=
    after.values = s.world.values
    ∧ Undisturbed platform s.world event after disk
    ∧ match enrolled event with
      | some (device, args) =>
          (platform.disk device.name = disk → Cryptenroll.selection args = some (pcrs, bank))
          ∧ (platform.disk device.name ≠ disk → s.settled disk pcrs bank)
      | none => s.settled disk pcrs bank

@[simp]
theorem next_world {platform : Platform ρ δ} {fromStr : Json.Reader} {s : Watched ρ δ}
    {event : Event} {after : World ρ δ}
    : (s.next platform fromStr event after).world = after :=
  rfl

/-- An enrollment whose sealing nobody has touched, on a machine that has answered since. -/
structure Calm (s : Watched ρ δ) : Prop where
  intact : s.intact
  settled : ∀ sealing, s.repair.sealing = some sealing
    → s.settled sealing.disk sealing.pcrs sealing.bank
  readable : s.repair.header.readable = true
  responsive : s.repair.tpm.responsive = true

/-- What was sealed, by a plan that the connection's preflight made, and the token that was
found to hold it.
-/
structure Recorded (platform : Platform ρ δ) (fromStr : Json.Reader) (s : Watched ρ δ)
    (volume : Volume) (device : Device) (tpm : Tpm2.Tpm) (plan : Preflight.Plan)
    (measured values : ρ) (token : Tpm2Token) : Prop where
  planned : (Preflight.check fromStr volume.name volume device tpm).Ran (.reenroll plan) s.here
  state : plan.state = platform.policy measured volume.bank volume.pcrs.list
  sealing : s.repair.sealing = some ⟨platform.disk device.name, volume.pcrs.list, volume.bank,
    some measured, values⟩
  found : ∃ tokens, s.repair.header.tokens = some tokens
    ∧ Enroll.findNewToken tokens plan.oldToken = some token
  hash : token.policyHash = platform.policy values volume.bank volume.pcrs.list

/-- A token with this index was found to hold what was sealed for this volume. -/
def Verified (platform : Platform ρ δ) (fromStr : Json.Reader) (s : Watched ρ δ)
    (volume : String) (index : UInt32) : Prop :=
  ∃ config device tpm plan measured values token,
    Recorded platform fromStr s config device tpm plan measured values token
    ∧ config.name = volume
    ∧ token.index = index

/-- No question and no header write about a disk that is settled, a good report only about a
token that holds what was sealed, and no connection closed on a calm enrollment that was not
found good one way or the other.
-/
def allows (platform : Platform ρ δ) (fromStr : Json.Reader) (s : Watched ρ δ) : Op → Prop
  | .child (.askConsent _ device pcrs bank) => ¬ s.settled (platform.disk device) pcrs bank
  | .child (.cryptenroll device _ pcrs bank _) =>
      ¬ s.settled (platform.disk device.name) pcrs bank
  | .log (.verifiedByUnsealing volume index) =>
      s.intact → s.Verified platform fromStr volume index
  | .log (.verifiedByPolicy volume index) => s.intact → s.Verified platform fromStr volume index
  | .close _ =>
      s.repair.sealing ≠ none → s.Calm → s.repair.unsealed = false → s.repair.confirmed = true
  | _ => True

/-- The watch over a run: every step is one of the world's. -/
def watch (platform : Platform ρ δ) (fromStr : Json.Reader)
    : Interaction.Monitor Res (Watched ρ δ) where
  allows := allows platform fromStr
  step s event after :=
    ∃ world, s.world.Step platform fromStr event world
      ∧ after = s.next platform fromStr event world

/-- The watch over a machine on which nobody else touches a register or a header. -/
def watchAlone (platform : Platform ρ δ) (fromStr : Json.Reader)
    : Interaction.Monitor Res (Watched ρ δ) where
  allows := allows platform fromStr
  step s event after :=
    ∃ world, s.world.Step platform fromStr event world
      ∧ world.values = s.world.values
      ∧ (∀ disk, Undisturbed platform s.world event world disk)
      ∧ after = s.next platform fromStr event world

end Watched

end Tpm2Autoenroll
