import Tpm2Autoenroll.Serving.Scenes
import Tpm2Autoenroll.Surroundings.World

/-! A machine to run on as those see it who share its TPM and its disks: the register, the
session and the headers. The watch can follow everything that happens there.
-/

namespace Tpm2Autoenroll.Scene

open Interaction Prog
open Text (Bytes)

-----------------------------------------------------------------------------------------
-- What is shared
-----------------------------------------------------------------------------------------

/-- The policy digest of each value of the register. -/
def digestOf (register : Bytes) : Bytes :=
  if register = List.replicate 32 0 then [0xbb] else [0xaa]

def platform : Platform Bytes String where
  disk := id
  fresh := []
  extend _ _ _ register := digestOf register

/-- What a dump of a header is read as. -/
def dumped (scene : Scene) (disk : String) : Except String Json.Value :=
  setup.fromStr (Text.fromUtf8Lossy (Text.asBytes (lookup scene.headers disk)))

def world (scene : Scene) : World Bytes String where
  values := scene.register
  sessions _ := scene.session
  headers disk := (scene.dumped disk).toOption.getD .null

/-- The machine with sessions that start out fresh, dumps of nothing but headers, and an
enrollment that succeeds where the header it leaves is the one for the register.
-/
def shared : Machine Res Scene := fun scene op =>
  match op with
  | .tpm _ cmd =>
      let (answer, after) := scene.exchange cmd
      if Tpm2.commandCode cmd = Tpm2.putU32 Tpm2.ccStartAuthSession then
        (answer, { after with session := [] })
      else
        (answer, after)
  | .child (.luksDump device) =>
      if (scene.dumped device.name).isOk then scene.spawn (.luksDump device)
      else (exited 1 "", scene)
  | .child (.cryptenroll device tpm2Device pcrs bank key) =>
      if pcrs = [7] ∧ bank = .sha256 ∧ digestOf scene.register = [0xaa]
          ∧ lookup scene.headers device.name = header "0" "00"
          ∧ lookup scene.enrolled device.name = header "1" "aa" then
        scene.spawn (.cryptenroll device tpm2Device pcrs bank key)
      else
        (exited 1 "", scene)
  | op => machine scene op

/-- The machine with what the watch comes to know of a repair. -/
def repairing : Machine Res (Scene × Repair Bytes String) := fun state op =>
  let (answer, after) := shared state.1 op
  (answer, after, state.2.observe platform setup.fromStr state.1.register ⟨op, answer⟩)

-----------------------------------------------------------------------------------------
-- The TPM
-----------------------------------------------------------------------------------------

theorem payload_success {payload : Bytes} (room : 10 + payload.length < 2 ^ 32)
    : (success payload).payload = some payload := by
  have same : success payload = .response (Tpm2.response 0 payload) := rfl
  rw [same, TpmAnswer.payload_response, Tpm2.responsePayload_response room]
  rfl

theorem parseDigest_putTpm2b {digest : Bytes} (short : digest.length < 65536)
    : Tpm2.parseDigest (Tpm2.putTpm2b digest) = .ok digest := by
  obtain ⟨after, run, _⟩ := Tpm2.readTpm2b_reads short (.new (Tpm2.putTpm2b digest)) []
    (by simp [Tpm2.Reader.new, Tpm2.putTpm2b, Tpm2.putU16]; omega) (by simp)
  rw [Tpm2.parseDigest, run]
  rfl

/-- The TPM carries out what it says it did. -/
theorem executes_shared {scene : Scene} {fd : Fd} {cmd : Bytes} (digest : scene.digest = digestOf)
    (short : scene.session.length < 65536)
    : World.Step platform setup.fromStr scene.world ⟨.tpm fd cmd, (shared scene (.tpm fd cmd)).1⟩
        (shared scene (.tpm fd cmd)).2.world := by
  intro payload said
  have other {code : UInt32} (differs : Tpm2.putU32 code ≠ Tpm2.putU32 Tpm2.ccStartAuthSession)
      (named : Tpm2.commandCode cmd = Tpm2.putU32 code)
      : shared scene (.tpm fd cmd) = scene.exchange cmd := by
    simp only [shared, named, if_neg differs]
    rfl
  refine ⟨fun named => ?_, fun named => ?_, fun named => ?_⟩
  · intro handle _
    simp [shared, named, world, platform]
  · intro bank pcrs _
    have policy : scene.exchange cmd
        = (success [], { scene with session := scene.digest scene.register }) := by
      simp only [exchange, named]
      rfl
    rw [other (by decide) named, policy]
    simp [world, platform, digest]
  · intro read parsed
    have answered : scene.exchange cmd = (success (Tpm2.putTpm2b scene.session), scene) := by
      simp only [exchange, named]
      rfl
    have room : 10 + (Tpm2.putTpm2b scene.session).length < 2 ^ 32 := by
      simp [Tpm2.putTpm2b, Tpm2.putU16]
      omega
    rw [other (by decide) named, answered] at said
    obtain rfl : payload = Tpm2.putTpm2b scene.session :=
      Option.some.inj (said.symm.trans (payload_success room))
    rw [parseDigest_putTpm2b short] at parsed
    exact (Except.ok.inj parsed).symm

theorem shared_shown {scene : Scene} {device : Device}
    (shown : (scene.dumped device.name).isOk = true)
    : shared scene (.child (.luksDump device)) = scene.spawn (.luksDump device) :=
  if_pos shown

theorem shared_unshown {scene : Scene} {device : Device}
    (unshown : ¬ (scene.dumped device.name).isOk = true)
    : shared scene (.child (.luksDump device)) = (exited 1 "", scene) :=
  if_neg unshown

/-- The header that systemd-cryptenroll finds and the one it leaves are those it should. -/
def Suited (scene : Scene) (device : Device) (pcrs : List UInt8) (bank : Tpm2.Bank) : Prop :=
  pcrs = [7] ∧ bank = .sha256 ∧ digestOf scene.register = [0xaa]
    ∧ lookup scene.headers device.name = header "0" "00"
    ∧ lookup scene.enrolled device.name = header "1" "aa"

theorem shared_suited {scene : Scene} {device : Device} {tpm2Device : String}
    {pcrs : List UInt8} {bank : Tpm2.Bank} {key : SecretFile}
    (suited : scene.Suited device pcrs bank)
    : shared scene (.child (.cryptenroll device tpm2Device pcrs bank key))
      = scene.spawn (.cryptenroll device tpm2Device pcrs bank key) :=
  if_pos suited

theorem shared_unsuited {scene : Scene} {device : Device} {tpm2Device : String}
    {pcrs : List UInt8} {bank : Tpm2.Bank} {key : SecretFile}
    (unsuited : ¬ scene.Suited device pcrs bank)
    : shared scene (.child (.cryptenroll device tpm2Device pcrs bank key))
      = (exited 1 "", scene) :=
  if_neg unsuited

/-- What the machine answers, its surroundings account for. -/
theorem step_shared {scene : Scene} {op : Op} (digest : scene.digest = digestOf)
    (short : scene.session.length < 65536)
    : World.Step platform setup.fromStr scene.world ⟨op, (shared scene op).1⟩
        (shared scene op).2.world := by
  cases op with
  | tpm fd cmd => exact executes_shared digest short
  | child process =>
      cases process with
      | luksDump device =>
          by_cases shown : (scene.dumped device.name).isOk = true
          · rw [shared_shown shown]
            intro _
            show scene.dumped device.name = .ok ((scene.dumped device.name).toOption.getD .null)
            cases read : scene.dumped device.name with
            | error e =>
                rw [read] at shown
                cases shown
            | ok value => rfl
          · rw [shared_unshown shown]
            exact nofun
      | _ => trivial
  | _ => trivial

-----------------------------------------------------------------------------------------
-- The headers
-----------------------------------------------------------------------------------------

/-- The request runs systemd-cryptenroll. -/
def enrolling : Op → Bool
  | .child (.cryptenroll _ _ _ _ _) => true
  | _ => false

theorem enrolled_of_other {event : Event} (other : enrolling event.op = false)
    : Tpm2Autoenroll.enrolled event = none := by
  obtain ⟨op, answer⟩ := event
  cases op with
  | child process => cases process <;> first | rfl | cases other
  | _ => rfl

theorem headers_shared {scene : Scene} {op : Op} (other : enrolling op = false)
    : (shared scene op).2.headers = scene.headers := by
  cases op with
  | child process =>
      cases process with
      | cryptenroll device tpm2Device pcrs bank key => cases other
      | luksDump device =>
          by_cases shown : (scene.dumped device.name).isOk = true
          · rw [shared_shown shown]
            rfl
          · rw [shared_unshown shown]
      | _ => rfl
  | tpm fd cmd =>
      simp only [shared, exchange]
      split_ifs <;> rfl
  | accept fd =>
      simp only [shared, machine]
      split_ifs <;> rfl
  | _ => rfl

theorem read_old
    : setup.fromStr (Text.fromUtf8Lossy (Text.asBytes (header "0" "00")))
      = .ok (headerValue "0" "00") := by
  have text : Text.fromUtf8Lossy (Text.asBytes (header "0" "00")) = header "0" "00" := by
    decide +kernel
  have apart : config ≠ header "0" "00" := by decide +kernel
  rw [text]
  simp [setup, reader, apart]

theorem read_new
    : setup.fromStr (Text.fromUtf8Lossy (Text.asBytes (header "1" "aa")))
      = .ok (headerValue "1" "aa") := by
  have text : Text.fromUtf8Lossy (Text.asBytes (header "1" "aa")) = header "1" "aa" := by
    decide +kernel
  have apart : config ≠ header "1" "aa" := by decide +kernel
  have newer : header "0" "00" ≠ header "1" "aa" := by decide +kernel
  rw [text]
  simp [setup, reader, apart, newer]

/-- The fields of the one token of a header. -/
def fields (hash : String) : Json.Map :=
  [("keyslots", .array [.string "1"]), ("tpm2-pcr-bank", .string "sha256"),
    ("tpm2-pcrs", .array [.number (.posInt 7)]), ("tpm2-policy-hash", .string hash),
    ("type", .string "systemd-tpm2")]

theorem members_headerValue (index hash : String)
    : Token.members (headerValue index hash) = [(index, .object (fields hash))] :=
  rfl

theorem selection_seven {device : Device} {tpm2Device : String} {key : SecretFile}
    : Cryptenroll.selection (Child.args (.cryptenroll device tpm2Device [7] .sha256 key))
      = some ([7], .sha256) := by
  refine Cryptenroll.selection_args (List.pairwise_singleton _ _) ?_ (List.cons_ne_nil _ _)
  intro pcr member
  rw [List.mem_singleton.mp member]
  decide

/-- The header that is left is the one that systemd-cryptenroll leaves. -/
theorem enrolls_header {device : Device} {tpm2Device : String} {key : SecretFile}
    {policy : Tpm2.Bank → List UInt8 → Bytes} (digest : policy .sha256 [7] = [0xaa])
    : Cryptenroll.Enrolls (Child.args (.cryptenroll device tpm2Device [7] .sha256 key)) policy
        (headerValue "0" "00") (headerValue "1" "aa") := by
  have rendered : Cryptenroll.Rendered [7] .sha256 (policy .sha256 [7]) (fields "aa") := by
    rw [digest]
    exact ⟨by decide, rfl, rfl, rfl, Or.inl (by rfl)⟩
  refine ⟨[7], .sha256, 1, fields "aa", selection_seven, rendered, ?_, ?_, ?_, ?_⟩
  · intro member old
    rw [members_headerValue, List.mem_singleton] at old
    rw [old]
    decide
  · simp [members_headerValue, Json.Map.keys]
  · rw [members_headerValue]
    exact List.mem_singleton.mpr (by rfl)
  · intro member new _
    rw [members_headerValue, List.mem_singleton] at new
    exact Or.inl (new.trans (by rfl))

/-- Nobody but systemd-cryptenroll changes a header, and it only as it does. -/
theorem undisturbed_shared {scene : Scene} {op : Op} {disk : String}
    : Undisturbed platform scene.world ⟨op, (shared scene op).1⟩ (shared scene op).2.world
        disk := by
  by_cases other : enrolling op = false
  · unfold Undisturbed
    rw [enrolled_of_other other]
    simp only [world, dumped, headers_shared other]
  · cases op with
    | child process =>
        cases process with
        | cryptenroll device tpm2Device pcrs bank key =>
            by_cases suited : scene.Suited device pcrs bank
            · rw [shared_suited suited]
              obtain ⟨rfl, rfl, digest, before, after⟩ := suited
              have succeeded : Tpm2Autoenroll.enrolled
                  ⟨.child (.cryptenroll device tpm2Device [7] .sha256 key),
                    (scene.spawn (.cryptenroll device tpm2Device [7] .sha256 key)).1⟩
                  = some (device, Child.args (.cryptenroll device tpm2Device [7] .sha256 key)) :=
                rfl
              unfold Undisturbed
              rw [succeeded]
              constructor
              · rintro rfl
                have left : lookup
                    ((device.name, lookup scene.enrolled device.name) :: scene.headers)
                    (platform.disk device.name) = header "1" "aa" := by
                  simp [lookup, platform, ← after]
                have found : lookup scene.headers (platform.disk device.name) = header "0" "00" :=
                  before
                simp only [world, dumped, spawn, left, found, read_old, read_new]
                exact enrolls_header digest
              · intro elsewhere
                have other : lookup
                    ((device.name, lookup scene.enrolled device.name) :: scene.headers) disk
                    = lookup scene.headers disk := by
                  have apart : device.name ≠ disk := elsewhere
                  simp [lookup, apart]
                simp only [world, dumped, spawn, other]
            · rw [shared_unsuited suited]
              rfl
        | _ => exact absurd rfl other
    | _ => exact absurd rfl other

-----------------------------------------------------------------------------------------
-- The watch
-----------------------------------------------------------------------------------------

/-- What no request changes: how digests are computed, that a session holds one, and the two
values that the register can have.
-/
structure Continues (scene after : Scene) : Prop where
  digest : after.digest = scene.digest
  session : after.session = scene.session ∨ after.session = []
    ∨ after.session = scene.digest scene.register
  extended : after.extended = scene.extended
  register : after.register = scene.register ∨ after.register = scene.extended

theorem continues_shared {scene : Scene} {op : Op} : Continues scene (shared scene op).2 := by
  have same : Continues scene scene := ⟨rfl, .inl rfl, rfl, .inl rfl⟩
  cases op with
  | child process =>
      cases process with
      | cryptenroll device tpm2Device pcrs bank key =>
          by_cases suited : scene.Suited device pcrs bank
          · rw [shared_suited suited]
            exact ⟨rfl, .inl rfl, rfl, .inl rfl⟩
          · rw [shared_unsuited suited]
            exact same
      | luksDump device =>
          by_cases shown : (scene.dumped device.name).isOk = true
          · rw [shared_shown shown]
            exact same
          · rw [shared_unshown shown]
            exact same
      | askConsent volume device pcrs bank => exact ⟨rfl, .inl rfl, rfl, .inr rfl⟩
      | _ => exact same
  | tpm fd cmd =>
      simp only [shared, exchange]
      split_ifs
      all_goals first
        | exact same
        | exact ⟨rfl, .inr (.inl rfl), rfl, .inl rfl⟩
        | exact ⟨rfl, .inr (.inr rfl), rfl, .inl rfl⟩
  | accept fd =>
      simp only [shared, machine]
      split_ifs
      · exact ⟨rfl, .inl rfl, rfl, .inl rfl⟩
      · exact same
  | socket => exact ⟨rfl, .inl rfl, rfl, .inl rfl⟩
  | _ => exact same

/-- The machine and the watch over it agree, and where the register is constant, what was enrolled
is settled.
-/
structure Together (constant : Prop) (state : Scene × Repair Bytes String)
    (s : Watched Bytes String) : Prop where
  world : s.world = state.1.world
  repair : s.repair = state.2
  intact : s.intact
  digest : state.1.digest = digestOf
  session : state.1.session.length < 65536
  register : constant → state.1.extended = state.1.register
  settled : constant → ∀ sealing, s.repair.sealing = some sealing
    → s.settled sealing.disk sealing.pcrs sealing.bank

theorem Together.of {constant : Prop} {scene : Scene} (digest : scene.digest = digestOf)
    (session : scene.session = []) (same : constant → scene.extended = scene.register)
    : Together constant (scene, .start) (.of scene.world) where
  world := rfl
  repair := rfl
  intact := trivial
  digest := digest
  session := by simp [session]
  register := same
  settled _ _ := nofun

/-- What was sealed is known from before, or from the enrollment that was just made. -/
theorem sealing_shared {scene : Scene} {op : Op} {repair : Repair Bytes String} {values : Bytes}
    {sealing : Sealing Bytes String}
    (sealed : (repair.observe platform setup.fromStr values ⟨op, (shared scene op).1⟩).sealing
      = some sealing)
    : (Tpm2Autoenroll.enrolled ⟨op, (shared scene op).1⟩ = none ∧ repair.sealing = some sealing)
      ∨ ∃ device args, Tpm2Autoenroll.enrolled ⟨op, (shared scene op).1⟩ = some (device, args)
        ∧ platform.disk device.name = sealing.disk
        ∧ Cryptenroll.selection args = some (sealing.pcrs, sealing.bank) := by
  by_cases other : enrolling op = false
  · refine Or.inl ⟨enrolled_of_other other, ?_⟩
    generalize (shared scene op).1 = answer at sealed
    cases op with
    | child process =>
        cases process with
        | cryptenroll => cases other
        | testUnseal => cases answer <;> exact sealed
        | _ => exact sealed
    | accept fd =>
        cases answer with
        | error e => exact sealed
        | ok conn => cases sealed
    | _ => exact sealed
  · cases op with
    | child process =>
        cases process with
        | cryptenroll device tpm2Device pcrs bank key =>
            by_cases suited : scene.Suited device pcrs bank
            · rw [shared_suited suited] at sealed ⊢
              obtain ⟨rfl, rfl, _⟩ := suited
              cases sealed
              exact Or.inr ⟨device, _, rfl, rfl, selection_seven⟩
            · rw [shared_unsuited suited] at sealed ⊢
              exact Or.inl ⟨rfl, sealed⟩
        | _ => exact absurd rfl other
    | _ => exact absurd rfl other

/-- The watch can follow the machine. -/
theorem Together.follows {constant : Prop} {state : Scene × Repair Bytes String}
    {s : Watched Bytes String} {op : Op} (together : Together constant state s)
    : ∃ after, (Watched.watch platform setup.fromStr).step s ⟨op, (repairing state op).1⟩ after
        ∧ Together constant (repairing state op).2 after := by
  obtain ⟨scene, repair⟩ := state
  have continues : Continues scene (shared scene op).2 := continues_shared
  have undisturbed (disk : String) : Undisturbed platform s.world ⟨op, (shared scene op).1⟩
      (shared scene op).2.world disk := by
    rw [together.world]
    exact undisturbed_shared
  refine ⟨s.next platform setup.fromStr ⟨op, (shared scene op).1⟩ (shared scene op).2.world,
    ⟨_, ?_, rfl⟩, ?_⟩
  · rw [together.world]
    exact step_shared together.digest together.session
  · have still (here : constant) : (shared scene op).2.register = scene.register := by
      have same : scene.extended = scene.register := together.register here
      rcases continues.register with kept | extended
      · exact kept
      · exact extended.trans same
    refine ⟨rfl, ?_, ⟨Or.inr together.intact, undisturbed⟩, ?_, ?_, ?_, ?_⟩
    · simp only [Watched.next, together.repair, together.world]
      rfl
    · exact continues.digest.trans together.digest
    · rcases continues.session with kept | fresh | measured
      · exact kept ▸ together.session
      · simp [repairing, fresh]
      · have digest : scene.digest = digestOf := together.digest
        simp only [repairing, measured, digest, digestOf]
        split_ifs <;> simp
    · intro here
      exact continues.extended.trans ((together.register here).trans (still here).symm)
    · intro here sealing sealed
      refine ⟨?_, undisturbed _, ?_⟩
      · rw [together.world]
        exact still here
      · rcases sealing_shared sealed with ⟨nothing, before⟩ | ⟨device, args, done, at_disk, told⟩
        · rw [nothing]
          exact together.settled here sealing before
        · rw [done]
          exact ⟨fun _ => told, fun other => absurd at_disk other⟩

-----------------------------------------------------------------------------------------
-- One register, extended or not
-----------------------------------------------------------------------------------------

/-- A machine on which both headers are out of date and the human consents. -/
def stale (register extended : Bytes) : Scene :=
  { twoVolumes "yes" digestOf with register, extended }

/-- What is known of the repair when the daemon first makes this request. -/
def repairAt (scene : Scene) (op : Op) : Option (Repair Bytes String) :=
  ((daemon setup 2 Config.defaultPath Sockets.defaultDir).stateAt repairing
    (fun event => event.op = op) (scene, .start)).map Prod.snd

/-- Its run up to there, as it is watched. -/
theorem exists_run {register extended : Bytes} {op : Op} {repair : Repair Bytes String}
    (reached : (stale register extended).repairAt op = some repair)
    : ∃ before answer s,
        (daemon setup 2 Config.defaultPath Sockets.defaultDir).Runs (before ++ [⟨op, answer⟩]) none
        ∧ (Watched.watch platform setup.fromStr).Path (.of (stale register extended).world) before s
        ∧ s.repair = repair
        ∧ s.intact
        ∧ (extended = register → ∀ sealing, s.repair.sealing = some sealing
          → s.settled sealing.disk sealing.pcrs sealing.bank) := by
  obtain ⟨last, found, rfl⟩ := Option.map_eq_some_iff.mp reached
  have begun : Together (extended = register) (stale register extended, .start)
      (.of (stale register extended).world) :=
    .of rfl rfl id
  obtain ⟨before, event, s, run, stops, path, together⟩ :=
    exists_path_to Together.follows begun found
  obtain ⟨given, answer⟩ := event
  obtain rfl : given = op := by simpa using stops
  exact ⟨before, answer, s, run, path, together.repair, together.intact, together.settled⟩

end Tpm2Autoenroll.Scene
