import Tpm2Autoenroll.Interaction.Driving
import Tpm2Autoenroll.Model.Daemon

/-! A machine the daemon can run on: plain-phase connections of genuine peers, a human who
types one passphrase and gives one answer, a TPM and a header for each device. The runs on it
are what the general theorems are tried on.
-/

namespace Tpm2Autoenroll

open Interaction Prog
open Text (Bytes)

/-- What a machine is like and what it has gone through so far. -/
structure Scene where
  /-- The readable files: the configuration and the cgroups of the peers. -/
  files : List (String × String)
  /-- The volume that the peer of a connection names. -/
  peers : List (Fd × String)
  /-- What the human types at a passphrase prompt and at a consent prompt. -/
  passphrase : String
  consent : String
  /-- The policy digest the TPM computes from the value of the one register in use. -/
  digest : Bytes → Bytes
  /-- The value of that register, and the one it has once a consent prompt is answered. -/
  register : Bytes
  extended : Bytes
  /-- The header of each device, and the one systemd-cryptenroll leaves. -/
  headers : List (String × String)
  enrolled : List (String × String)
  /-- The digest in the TPM's session. -/
  session : Bytes
  /-- Listening sockets with a connection waiting, and the last descriptor given out. -/
  waiting : List Fd
  lastFd : Fd

namespace Scene

def lookup {α : Type} [DecidableEq α] (table : List (α × String)) (key : α) : String :=
  ((table.find? fun entry => entry.1 = key).map Prod.snd).getD ""

/-- The path of systemd-cryptsetup. -/
def cryptsetup : String := "/usr/lib/systemd/systemd-cryptsetup"

/-- A response of the TPM that reports success. -/
def success (payload : Bytes) : TpmAnswer :=
  .response (Tpm2.putU16 Tpm2.stNoSessions ++ Tpm2.putU32 (UInt32.ofNat (10 + payload.length))
    ++ Tpm2.putU32 0 ++ payload)

/-- The answer to one command, which for PolicyPCR puts the register's digest in the session. -/
def exchange (scene : Scene) (cmd : Bytes) : TpmAnswer × Scene :=
  let code := Tpm2.commandCode cmd
  if code = Tpm2.putU32 Tpm2.ccGetCapability then
    (success (1 :: Tpm2.putU32 Tpm2.capTpmProperties ++ Tpm2.putU32 2
      ++ Tpm2.putU32 Tpm2.ptPermanent ++ Tpm2.putU32 0
      ++ Tpm2.putU32 Tpm2.ptMaxAuthFail ++ Tpm2.putU32 32), scene)
  else if code = Tpm2.putU32 Tpm2.ccStartAuthSession then
    (success (Tpm2.putU32 0x03000000 ++ Tpm2.putTpm2b []), scene)
  else if code = Tpm2.putU32 Tpm2.ccPolicyPcr then
    (success [], { scene with session := scene.digest scene.register })
  else if code = Tpm2.putU32 Tpm2.ccPolicyGetDigest then
    (success (Tpm2.putTpm2b scene.session), scene)
  else if code = Tpm2.putU32 Tpm2.ccPcrRead then
    (success (Tpm2.putU32 0 ++ cmd.drop 10 ++ Tpm2.putU32 1 ++ Tpm2.putTpm2b scene.register),
      scene)
  else
    (success [], scene)

def exited (code : Int) (stdout : String) : Except String Output :=
  .ok ⟨⟨some code, s!"exit status: {code}"⟩, Text.asBytes stdout, []⟩

/-- What one child process says and does. No token plugin is installed. -/
def spawn (scene : Scene) : Child → Except String Output × Scene
  | .luksDump device => (exited 0 (lookup scene.headers device.name), scene)
  | .testPassphrase _ key =>
      (exited (if key.secret.bytes = Text.asBytes scene.passphrase then 0 else 2) "", scene)
  | .askPassword _ _ _ => (exited 0 scene.passphrase, scene)
  | .askConsent _ _ _ _ => (exited 0 scene.consent, { scene with register := scene.extended })
  | .cryptenroll device _ _ _ _ =>
      (exited 0 "", {
        scene with
        headers := (device.name, lookup scene.enrolled device.name) :: scene.headers
      })
  | .testUnseal _ _ => (exited 1 "", scene)

/-- The machine. -/
def machine : Machine Res Scene := fun scene op =>
  match op with
  | .terminating => (false, scene)
  | .now => ((0 : Nat), scene)
  | .log _ | .lockMemory | .setUndumpable | .catchSigterm | .notifyReady | .close _ =>
      ((), scene)
  | .readFile path => (.ok (lookup scene.files path), scene)
  | .readLink _ => (.ok cryptsetup, scene)
  | .readDir _ => (.ok [], scene)
  | .symlinkMetadata _ => (false, scene)
  | .openFile _ write => (.ok (if write then 4 else 5), scene)
  | .fstat fd => (.ok (if fd = 4 then .characterDevice else .blockDevice), scene)
  | .mkdir _ _ | .chmod _ _ | .unlink _ | .socketAddr _ | .bind _ _ | .listen _ _
  | .pidfdSignal _ => (.ok (), scene)
  | .lstat _ => (.error .noent, scene)
  | .socket => (.ok (scene.lastFd + 1), { scene with lastFd := scene.lastFd + 1 })
  | .accept fd =>
      if fd ∈ scene.waiting then
        (.ok (fd + 100), { scene with waiting := scene.waiting.erase fd })
      else
        (.error .again, scene)
  | .peerPidfd _ => (.error .noprotoopt, scene)
  | .poll fds => (.ok fun i => fds.get i ∈ scene.waiting, scene)
  | .getpeername fd =>
      (.ok (some (.abstractName
        (Text.asBytes "3f2a/cryptsetup/" ++ Text.asBytes (lookup scene.peers fd)))), scene)
  | .peercred fd => (.ok ⟨0, fd⟩, scene)
  | .write _ buf => (.ok (Fin.last buf.length), scene)
  | .secretFile _ => (.ok 6, scene)
  | .child process => scene.spawn process
  | .tpm _ cmd => scene.exchange cmd

/-- A reader for the texts of a scene, each with the value it denotes. -/
def reader (texts : List (String × Json.Value)) : Json.Reader := fun text =>
  match texts.find? fun entry => entry.1 = text with
  | some entry => .ok entry.2
  | none => .error "expected value at line 1 column 1"

-----------------------------------------------------------------------------------------
-- Two volumes
-----------------------------------------------------------------------------------------

/-- A header with one binding to PCR 7. -/
def header (index hash : String) : String :=
  "\x7b\"tokens\":\x7b\"" ++ index ++ "\":\x7b\"type\":\"systemd-tpm2\",\"keyslots\":[\"1\"],"
    ++ "\"tpm2-pcrs\":[7],\"tpm2-pcr-bank\":\"sha256\",\"tpm2-policy-hash\":\"" ++ hash
    ++ "\"\x7d\x7d\x7d"

def headerValue (index hash : String) : Json.Value :=
  .object [("tokens", .object [(index, .object [
    ("keyslots", .array [.string "1"]), ("tpm2-pcr-bank", .string "sha256"),
    ("tpm2-pcrs", .array [.number (.posInt 7)]), ("tpm2-policy-hash", .string hash),
    ("type", .string "systemd-tpm2")])])]

/-- A configuration of two volumes bound to PCR 7. -/
def config : String :=
  "\x7b\"volumes\":\x7b\"root\":\x7b\"device\":\"/dev/vda2\",\"pcrs\":[7]\x7d,"
    ++ "\"home\":\x7b\"device\":\"/dev/vda3\",\"pcrs\":[7]\x7d\x7d\x7d"

def configValue : Json.Value :=
  .object [("volumes", .object [
    ("home", .object [("device", .string "/dev/vda3"), ("pcrs", .array [.number (.posInt 7)])]),
    ("root", .object [("device", .string "/dev/vda2"), ("pcrs", .array [.number (.posInt 7)])])])]

/-- Both volumes are waiting to be unlocked, each with a header that is bound to another state
than the one the digest is computed from.
-/
def twoVolumes (consent : String) (digest : Bytes → Bytes) : Scene where
  files := [
    (Config.defaultPath, config),
    ("/proc/110/cgroup", "0::/system.slice/systemd-cryptsetup@home.service\n"),
    ("/proc/111/cgroup", "0::/system.slice/systemd-cryptsetup@root.service\n")]
  peers := [(110, "home"), (111, "root")]
  passphrase := "correct horse"
  consent
  digest
  register := List.replicate 32 0
  extended := List.replicate 32 0
  headers := [("/dev/vda2", header "0" "00"), ("/dev/vda3", header "0" "00")]
  enrolled := [("/dev/vda2", header "1" "aa"), ("/dev/vda3", header "1" "aa")]
  session := []
  waiting := [10, 11]
  lastFd := 9

/-- The header write that such a machine sees. -/
def headerWrite (device : String) : Op :=
  .child (.cryptenroll ⟨5, device⟩ "auto" [7] .sha256 ⟨6, ⟨Text.asBytes "correct horse"⟩⟩)

/-- What the daemon is built with. -/
def setup : Setup where
  fromStr := reader [
    (config, configValue), (header "0" "00", headerValue "0" "00"),
    (header "1" "aa", headerValue "1" "aa")]
  systemdBinary := cryptsetup
  interruptions := 0

/-- The daemon on a machine for two rounds of its accept loop. -/
def play (scene : Scene) : Driven Res ExitCode Scene :=
  (daemon setup 2 Config.defaultPath Sockets.defaultDir).drive machine scene

end Scene

end Tpm2Autoenroll
