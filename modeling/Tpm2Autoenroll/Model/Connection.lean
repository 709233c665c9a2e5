import Tpm2Autoenroll.Model.Peer
import Tpm2Autoenroll.Model.Repair

/-! Answering one connection, as `main.rs` does from `handle` down: finding a passphrase,
repairing the binding, verifying the repair and replying.
-/

namespace Tpm2Autoenroll

open Text (Bytes)
open Token (Tpm2Token)
open Tpm2 (Tpm)
open Consent (Decisions)
open Preflight (Plan)

/-- `cache::Cache`: the passphrases seen so far, in insertion order and without repeats. -/
structure Cache where
  entries : List Secret
  distinct : entries.Nodup

namespace Cache

def new : Cache := ⟨[], List.nodup_nil⟩

def insert (cache : Cache) (secret : Secret) : Cache :=
  if fresh : secret ∈ cache.entries then cache
  else {
    entries := cache.entries ++ [secret]
    distinct := by
      refine List.nodup_append.mpr ⟨cache.distinct, List.nodup_singleton secret, ?_⟩
      intro earlier member last same
      rw [List.mem_singleton.mp same]
      exact fun equal => fresh (equal ▸ member)
  }

end Cache

/-- What one connection leaves for the next: the `cache` and `decided` of `serve`. -/
structure Memory where
  cache : Cache
  decided : Decisions

def Memory.new : Memory := ⟨.new, .new⟩

/-- What the daemon is built with and linked against, and how many interrupted writes of
one reply are observed before the run is left.
-/
structure Setup where
  fromStr : Json.Reader
  /-- `peer::EXPECTED_SYSTEMD_BINARY`. -/
  systemdBinary : String
  interruptions : Nat

-----------------------------------------------------------------------------------------
-- Finding a passphrase
-----------------------------------------------------------------------------------------

/-- How a stretch of trials ends: with a passphrase that opens the volume, with every
candidate wrong, or with `acquire` giving up.
-/
inductive Trials
  | found (secret : Secret)
  | exhausted
  | abandoned
  deriving DecidableEq

namespace Acquire

/-- `TRIES`. -/
def tries : Nat := 3

/-- `acquire`'s way through a list of passphrases: a stop check and a trial for each, with
the line logged where it stops and the one, if any, logged for a passphrase that is correct.
-/
def tryEach (config : Volume) (device : Device) (stopped : LogLine)
    (answered : Option LogLine) : List Secret → Sys Trials
  | [] => return .exhausted
  | secret :: rest => do
      if ← terminating then
        log stopped
        return .abandoned
      else
        match ← Luks.testPassphrase device secret with
        | .correct =>
            match answered with
            | some line =>
                log line
                return .found secret
            | none => return .found secret
        | .wrong => tryEach config device stopped answered rest
        | .unusable why =>
            log (.cannotCheck config.name config.device why)
            return .abandoned

/-- The loop of `acquire` over the cache. -/
def tryCached (config : Volume) (device : Device) : List Secret → Sys Trials :=
  tryEach config device (.stoppedBeforeCached config.name)
    (some (.answeredFromCache config.name))

/-- The loop of `acquire` over one prompt's candidates. -/
def tryCandidates (config : Volume) (device : Device) : List Secret → Sys Trials :=
  tryEach config device (.stoppedBeforeCandidate config.name) none

/-- The loop of `acquire` over its prompts. -/
def tryPrompts (config : Volume) (device : Device) : List Nat → Sys Trials
  | [] => return .exhausted
  | attempt :: more => do
      if ← terminating then
        log (.stoppedBeforePrompt config.name)
        return .abandoned
      else
        let which := if attempt = 0 then Attempt.first else Attempt.retry
        match ← Askpw.ask config.name config.device which with
        | .error e =>
            log (.couldNotAcquire config.name e)
            return .abandoned
        | .ok candidates =>
            match ← tryCandidates config device candidates with
            | .exhausted =>
                log (.didNotUnlock config.name config.device (attempt + 1))
                tryPrompts config device more
            | ended => return ended

/-- The cached passphrases and then the prompts. -/
def search (config : Volume) (device : Device) (cache : Cache)
    : Sys (Option Secret × Cache) := do
  match ← tryCached config device cache.entries with
  | .found secret => return (some secret, cache)
  | .abandoned => return (none, cache)
  | .exhausted =>
      match ← tryPrompts config device (List.range tries) with
      | .found secret => return (some secret, cache.insert secret)
      | _ => return (none, cache)

end Acquire

/-- `acquire`: a passphrase known to open the volume, and the cache after it. -/
def acquire (config : Volume) (device : Device) (cache : Cache)
    : Sys (Option Secret × Cache) := do
  if cache.entries ≠ [] then
    log (.tryingCached config.name cache.entries.length)
  Acquire.search config device cache

-----------------------------------------------------------------------------------------
-- Replying
-----------------------------------------------------------------------------------------

/-- The loop of `write_all`. A round writes something or is interrupted. -/
def writeRounds (fd : Fd) : Nat → Bytes → Sys (Except Errno Unit)
  | _, [] => return .ok ()
  | 0, _ :: _ => .pending
  | rounds + 1, next :: later => do
      match ← ask (.write fd (next :: later)) with
      | .ok n =>
          if n.val = 0 then return .error .pipe
          else writeRounds fd rounds ((next :: later).drop n.val)
      | .error .intr => writeRounds fd rounds (next :: later)
      | .error e => return .error e

/-- `write_all`, observed up to the given number of interruptions. -/
def writeAll (fd : Fd) (interruptions : Nat) (buf : Bytes) : Sys (Except Errno Unit) :=
  writeRounds fd (interruptions + buf.length) buf

def reply (interruptions : Nat) (conn : Fd) (volume : String) (secret : Secret)
    : Sys Unit := do
  match ← writeAll conn interruptions secret.bytes with
  | .ok () => log (.returned volume)
  | .error e => log (.couldNotWrite volume e)

-----------------------------------------------------------------------------------------
-- Repairing
-----------------------------------------------------------------------------------------

/-- `verify`: check the new slot before trusting it. -/
def verify (fromStr : Json.Reader) (config : Volume) (device : Device) (plan : Plan)
    (tpm : Tpm) : Sys Unit := do
  match ← Token.read fromStr device with
  | .error e => log (.headerNotReread config.name e)
  | .ok tokens =>
      match Enroll.findNewToken tokens plan.oldToken with
      | none => log (.newTokenUnidentified config.name)
      | some new =>
          let wrong := (Preflight.tokenRefusal new).orElse fun () =>
            match Preflight.sameSelection new config with
            | .ok () => none
            | .error why => some why
          match wrong with
          | some why => log (.enrolledWrongly config.name new.index why)
          | none =>
              match ← Enroll.testUnseal device new.index with
              | .ok () => log (.verifiedByUnsealing config.name new.index)
              | .error e =>
                  log (.noUnsealAvailable config.name e)
                  match ← Drift.check tpm new config.pcrs.list config.bank with
                  | .unchanged => log (.verifiedByPolicy config.name new.index)
                  | other =>
                      log (.policyNotVerified config.name new.index other.describe)

/-- The consent step of `maybe_reenroll`: whether to go on, and what is remembered. -/
def seekConsent (config : Volume) (plan : Plan) (decided : Decisions)
    : Sys (Bool × Decisions) := do
  if decided.accepted plan.state then
    return (true, decided)
  else if ← terminating then
    log (.leavingHeader config.name "asked to stop before the consent prompt")
    return (false, decided)
  else
    match ← Consent.ask config.name config.device config.pcrs.list config.bank with
    | .no =>
        log (.leavingHeader config.name "re-enrollment was declined")
        return (false, if plan.state = [] then decided else decided.decline plan.state)
    | .always =>
        log (.alwaysReenroll config.name)
        return (true, decided.accept plan.state)
    | .yes => return (true, decided)

/-- The end of `maybe_reenroll`: the last stop check, the enrollment and its check. -/
def enrollAndVerify (fromStr : Json.Reader) (config : Volume) (device : Device)
    (secret : Secret) (tpm : Tpm) (plan : Plan) : Sys Unit := do
  if ← terminating then
    log (.leavingHeader config.name "asked to stop before re-enrolling")
  else
    match ← Enroll.run device config.tpm2Device config.pcrs.list config.bank secret with
    | .error e => log (.enrollmentFailed config.name e)
    | .ok () => verify fromStr config device plan tpm

/-- What `maybe_reenroll` says about the plan before anything is asked. -/
def announce (config : Volume) (tpm : Tpm) (plan : Plan) : Sys Unit := do
  if plan.enrolled = [] then
    log (.noBindingYet config.name)
  else
    log (.bindingStale config.name (Drift.short plan.enrolled) (Drift.short plan.state))
  Preflight.logState config.name tpm config

/-- The part of `maybe_reenroll` that has a plan to carry out. -/
def carryOut (fromStr : Json.Reader) (config : Volume) (device : Device) (secret : Secret)
    (decided : Decisions) (tpm : Tpm) (plan : Plan) : Sys Decisions := do
  announce config tpm plan
  if plan.state ≠ [] ∧ decided.declined plan.state then
    log
      (.leavingHeader config.name "re-enrollment was already declined for this boot state")
    return decided
  else
    let (agreed, decided) ← seekConsent config plan decided
    if agreed then
      enrollAndVerify fromStr config device secret tpm plan
    return decided

/-- `maybe_reenroll`: repair the TPM2 binding, if that is right and a human agrees. -/
def maybeReenroll (fromStr : Json.Reader) (config : Volume) (device : Device)
    (secret : Secret) (decided : Decisions) : Sys Decisions := do
  if ← terminating then
    log (.leavingHeader config.name "asked to stop")
    return decided
  else
    match ← (Tpm.open config.tpm2Device).run with
    | .error e =>
        log (.leavingHeader config.name s!"no usable TPM2 device ({e})")
        return decided
    | .ok tpm =>
        match ← Preflight.check fromStr config.name config device tpm with
        | .leave why =>
            log (.leavingHeader config.name why)
            return decided
        | .reenroll plan => carryOut fromStr config device secret decided tpm plan

-----------------------------------------------------------------------------------------
-- Connections
-----------------------------------------------------------------------------------------

/-- `serve_passphrase`: the plain phase. -/
def servePassphrase (setup : Setup) (conn : Fd) (config : Volume) (memory : Memory)
    : Sys Memory := do
  log (.plainPhase config.name)
  match ← Device.open config.device with
  | .error e =>
      log (.cannotOpenDevice config.name e)
      return memory
  | .ok device =>
      match ← acquire config device memory.cache with
      | (none, cache) =>
          log (.noPassphrase config.name)
          return { memory with cache }
      | (some secret, cache) =>
          let decided ← maybeReenroll setup.fromStr config device secret memory.decided
          reply setup.interruptions conn config.name secret
          return ⟨cache, decided⟩

/-- The phase a peer asks in, if it names itself as systemd-cryptsetup does and asks for
this volume.
-/
def identify (conn : Fd) (managed : Volume) : Sys (Option Bindname.Phase) := do
  match ← ask (.getpeername conn) with
  | .error e =>
      log (.getpeernameFailed managed.name e)
      return none
  | .ok none =>
      log (.unnamedPeer managed.name)
      return none
  | .ok (some .foreign) =>
      log (.notUnixPeer managed.name)
      return none
  | .ok (some .unix) =>
      log (.notAbstractPeer managed.name)
      return none
  | .ok (some (.abstractName name)) =>
      match Bindname.parse name with
      | none =>
          log (.unparseablePeer managed.name name)
          return none
      | some peerName =>
          if peerName.volume ≠ Text.asBytes managed.name then
            log (.otherVolume managed.name peerName.volume)
            return none
          else
            return some peerName.phase

/-- `handle` up to where it drops the connection. -/
def dispatch (setup : Setup) (conn : Fd) (managed : Volume) (memory : Memory)
    : Sys (Bool × Memory) := do
  match ← identify conn managed with
  | none => return (false, memory)
  | some .plain =>
      -- Only the plain phase is answered with anything, so only it asks who is asking.
      match ← Peer.check setup.systemdBinary conn managed.name with
      | .error why =>
          log (.peerRefused managed.name why)
          return (false, memory)
      | .ok () =>
          let memory ← servePassphrase setup conn managed memory
          return (true, memory)
  | some phase =>
      log (.phaseDeclined managed.name phase.asStr)
      return (false, memory)

/-- `handle`: answer one connection. True when this was the volume's plain-phase
connection and it was handled.
-/
def handle (setup : Setup) (conn : Fd) (managed : Volume) (memory : Memory)
    : Sys (Bool × Memory) := do
  let result ← dispatch setup conn managed memory
  -- Every path drops the connection.
  ask (.close conn)
  return result

end Tpm2Autoenroll
