import Tpm2Autoenroll.Serving.Connections
import Tpm2Autoenroll.Serving.Scenes

/-! systemd-cryptenroll is started only in a connection that has justified it: a passphrase
that opens the very device, a header with one literal binding to the configured registers,
a TPM that is not locked out, no host policy and a measured drift.
-/

namespace Tpm2Autoenroll

open Interaction Prog Monitor
open Tpm2 (Tpm)

/-- Everything a header write of a volume rests on, found in one stretch of history. -/
structure HeaderWrite (fromStr : Json.Reader) (volume : Volume) (device : Device)
    (secret : Secret) (here : Trace) : Prop where
  opened : (Device.open volume.device).Ran (.ok device) here
  passphrase : (Luks.testPassphrase device secret).Ran .correct here
  preflight : ∃ tpm token digest,
    (Tpm.open volume.tpm2Device).run.Ran (.ok tpm) here
    ∧ Preflight.Passed fromStr volume device tpm token digest here

namespace HeaderWrite

theorem append {fromStr : Json.Reader} {volume : Volume} {device : Device} {secret : Secret}
    {here : Trace} (write : HeaderWrite fromStr volume device secret here) (more : Trace)
    : HeaderWrite fromStr volume device secret (here ++ more) := by
  obtain ⟨tpm, token, digest, opened, passed⟩ := write.preflight
  refine ⟨write.opened.append_right more, write.passphrase.append_right more, ?_⟩
  exact ⟨tpm, token, digest, opened.append_right more, passed.append more⟩

/-- systemd-cryptenroll may be started only where the history justifies it. -/
def allows (fromStr : Json.Reader) (config dir : String) (past : Trace) : Op → Prop
  | .child (.cryptenroll device tpm2Device pcrs bank key) =>
      ∃ l conn,
        tpm2Device = l.volume.tpm2Device
        ∧ pcrs = l.volume.pcrs.list
        ∧ bank = l.volume.bank
        ∧ Within l.fd conn (Configured fromStr config dir l)
          (HeaderWrite fromStr l.volume device key.secret) past
  | _ => True

variable {setup : Setup} {config dir : String} {l : Listener} {conn : Fd} {past : Trace}
  {earlier : Trace → Prop}

/-- The monitor restricts no request but systemd-cryptenroll. -/
private theorem allows_of {fromStr : Json.Reader} {past : Trace} {allowed : Op → Prop} {op : Op}
    (member : allowed op)
    (free : ∀ device tpm2Device pcrs bank key,
      ¬ allowed (.child (.cryptenroll device tpm2Device pcrs bank key)))
    : allows fromStr config dir past op := by
  unfold allows
  split
  · exact absurd member (free _ _ _ _ _)
  · trivial

/-- A part of the connection that neither enrolls nor accepts adds one of its runs. -/
private theorem part_wp {α : Type} {fromStr : Json.Reader} {allowed : Op → Prop} {left : Prop}
    {program : Sys α} {here : Trace → Prop} {more : α → Trace → Prop} {fd : Fd}
    (within : Within fd conn earlier here past) (only : program.Only allowed left)
    (free : ∀ device tpm2Device pcrs bank key,
      ¬ allowed (.child (.cryptenroll device tpm2Device pcrs bank key)))
    (alone : ∀ other, ¬ allowed (.accept other))
    (gain : ∀ since trace value,
      here since → program.Runs trace (some value) → more value (since ++ trace))
    : wp (history (allows fromStr config dir)) program
        (fun value final => Within fd conn earlier (more value) final) past :=
  within.wp only (fun _ _ member => allows_of member free) alone gain

/-- A part of the connection about which nothing needs to be known afterwards. -/
private theorem rest_wp {α : Type} {fromStr : Json.Reader} {allowed : Op → Prop} {left : Prop}
    {program : Sys α} {here : Trace → Prop} {fd : Fd}
    (within : Within fd conn earlier here past) (only : program.Only allowed left)
    (free : ∀ device tpm2Device pcrs bank key,
      ¬ allowed (.child (.cryptenroll device tpm2Device pcrs bank key)))
    (alone : ∀ other, ¬ allowed (.accept other))
    : wp (history (allows fromStr config dir)) program
        (fun _ final => Within fd conn earlier (fun _ => True) final) past :=
  part_wp within only free alone fun _ _ _ _ _ => trivial

/-- Log lines and other requests that look but do not touch. -/
private theorem look_wp {α : Type} {fromStr : Json.Reader} {program : Sys α}
    {here : Trace → Prop} {fd : Fd} (within : Within fd conn earlier here past)
    (only : program.Only Op.inspecting)
    : wp (history (allows fromStr config dir)) program
        (fun _ final => Within fd conn earlier (fun _ => True) final) past :=
  rest_wp within only (fun _ _ _ _ _ => id) (fun _ => id)

variable {fromStr : Json.Reader} {device : Device} {secret : Secret}

/-- systemd-cryptenroll is justified by what the connection has established. -/
theorem run_wp (configured : ∀ past, earlier past → Configured fromStr config dir l past)
    (within : Within l.fd conn earlier (HeaderWrite fromStr l.volume device secret) past)
    : wp (history (allows fromStr config dir))
        (Enroll.run device l.volume.tpm2Device l.volume.pcrs.list l.volume.bank secret)
        (fun _ final => Within l.fd conn earlier (fun _ => True) final) past := by
  unfold Enroll.run
  rw [if_neg l.volume.pcrs.nonempty]
  have created : wp (history (allows fromStr config dir)) (SecretFile.new secret)
      (fun result final => Within l.fd conn earlier
        (fun since => HeaderWrite fromStr l.volume device secret since
          ∧ ∀ key, result = .ok key → key.secret = secret) final) past := by
    refine part_wp within SecretFile.new_only (fun _ _ _ _ _ => id) (fun _ => id) ?_
    intro since trace result facts run
    exact ⟨facts.append trace, fun key made => SecretFile.new_secret (made ▸ run)⟩
  refine wp_then created fun result past within => ?_
  cases result with
  | error e => exact within.any
  | ok key =>
      have justified := within.mono configured fun since facts => by
        rw [← facts.2 key rfl] at facts
        exact facts.1
      refine within.any.ask (fun _ _ _ => trivial) ?_ (fun _ => nofun) ?_
      · exact ⟨l, conn, rfl, rfl, rfl, justified⟩
      · intro output past within
        cases output with
        | error e => exact within
        | ok out =>
            dsimp only
            split_ifs <;> exact within

/-- Enrolling and verifying is justified by what the connection has established. -/
theorem enrollAndVerify_wp {tpm : Tpm} {plan : Preflight.Plan}
    (configured : ∀ past, earlier past → Configured fromStr config dir l past)
    (within : Within l.fd conn earlier (HeaderWrite fromStr l.volume device secret) past)
    : wp (history (allows fromStr config dir))
        (enrollAndVerify fromStr l.volume device secret tpm plan)
        (fun _ final => Within l.fd conn earlier (fun _ => True) final) past := by
  refine within.ask (fun _ more facts => facts.append more) trivial (fun _ => nofun) ?_
  intro stop past within
  cases stop with
  | true => exact look_wp within ⟨trivial, fun _ => trivial⟩
  | false =>
      refine wp_then (run_wp configured within) fun enrolled past within => ?_
      cases enrolled with
      | error e => exact look_wp within ⟨trivial, fun _ => trivial⟩
      | ok => exact rest_wp within verify_only (fun _ _ _ _ _ => id) (fun _ => id)

/-- A plan is carried out only with everything established. -/
theorem carryOut_wp {decided : Consent.Decisions} {tpm : Tpm} {plan : Preflight.Plan}
    (configured : ∀ past, earlier past → Configured fromStr config dir l past)
    (within : Within l.fd conn earlier (HeaderWrite fromStr l.volume device secret) past)
    : wp (history (allows fromStr config dir))
        (carryOut fromStr l.volume device secret decided tpm plan)
        (fun _ final => Within l.fd conn earlier (fun _ => True) final) past := by
  have announced : wp (history (allows fromStr config dir)) (announce l.volume tpm plan)
      (fun _ final => Within l.fd conn earlier
        (HeaderWrite fromStr l.volume device secret) final) past :=
    part_wp within announce_inspecting (fun _ _ _ _ _ => id) (fun _ => id)
      fun _ trace _ facts _ => facts.append trace
  refine wp_then announced fun _ past within => ?_
  split_ifs
  · exact look_wp within ⟨trivial, fun _ => trivial⟩
  · have sought : wp (history (allows fromStr config dir)) (seekConsent l.volume plan decided)
        (fun _ final => Within l.fd conn earlier
          (HeaderWrite fromStr l.volume device secret) final) past :=
      part_wp within seekConsent_only (fun _ _ _ _ _ => id) (fun _ => id)
        fun _ trace _ facts _ => facts.append trace
    refine wp_then sought fun consent past within => ?_
    dsimp only
    split_ifs
    · exact wp_then (enrollAndVerify_wp configured within) fun _ _ within => within
    · exact within.any

/-- What a connection has established once it has a passphrase. -/
structure Found (volume : Volume) (device : Device) (secret : Secret) (here : Trace)
    : Prop where
  opened : (Device.open volume.device).Ran (.ok device) here
  passphrase : (Luks.testPassphrase device secret).Ran .correct here

theorem Found.append {volume : Volume} {here : Trace}
    (found : Found volume device secret here) (more : Trace)
    : Found volume device secret (here ++ more) :=
  ⟨found.opened.append_right more, found.passphrase.append_right more⟩

/-- The repair adds the preflight to the passphrase before anything is written. -/
theorem maybeReenroll_wp {decided : Consent.Decisions}
    (configured : ∀ past, earlier past → Configured fromStr config dir l past)
    (within : Within l.fd conn earlier (Found l.volume device secret) past)
    : wp (history (allows fromStr config dir))
        (maybeReenroll fromStr l.volume device secret decided)
        (fun _ final => Within l.fd conn earlier (fun _ => True) final) past := by
  refine within.ask (fun _ more facts => facts.append more) trivial (fun _ => nofun) ?_
  intro stop past within
  cases stop with
  | true => exact look_wp within ⟨trivial, fun _ => trivial⟩
  | false =>
      have opened : wp (history (allows fromStr config dir))
          (Tpm.open l.volume.tpm2Device).run
          (fun result final => Within l.fd conn earlier
            (fun since => Found l.volume device secret since
              ∧ ∀ tpm, result = .ok tpm
                → (Tpm.open l.volume.tpm2Device).run.Ran (.ok tpm) since) final) past := by
        refine part_wp within Tpm2.Tpm.open_only (fun _ _ _ _ _ => id) (fun _ => id) ?_
        intro since trace result facts run
        exact ⟨facts.append trace, fun tpm made => (made ▸ run).ran.append_left since⟩
      refine wp_then opened fun result past within => ?_
      cases result with
      | error e => exact look_wp within ⟨trivial, fun _ => trivial⟩
      | ok tpm =>
          have checked : wp (history (allows fromStr config dir))
              (Preflight.check fromStr l.volume.name l.volume device tpm)
              (fun decision final => Within l.fd conn earlier
                (fun since => ∀ plan, decision = .reenroll plan
                  → HeaderWrite fromStr l.volume device secret since) final) past := by
            refine part_wp within Preflight.check_only (fun _ _ _ _ _ => id) (fun _ => id) ?_
            intro since trace decision facts run plan made
            obtain ⟨token, _, passed, _⟩ := Preflight.check_reenroll (made ▸ run)
            exact {
              opened := facts.1.opened.append_right trace
              passphrase := facts.1.passphrase.append_right trace
              preflight := ⟨tpm, token, plan.state, (facts.2 tpm rfl).append_right trace,
                passed.append_left since⟩
            }
          refine wp_then checked fun decision past within => ?_
          cases decision with
          | leave why => exact look_wp within ⟨trivial, fun _ => trivial⟩
          | reenroll plan =>
              exact carryOut_wp configured
                (within.mono (fun _ => id) fun since facts => facts plan rfl)

/-- The plain phase starts systemd-cryptenroll only with everything established. -/
theorem servePassphrase_wp {setup : Setup} {memory : Memory}
    (configured : ∀ past, earlier past → Configured setup.fromStr config dir l past)
    {here : Trace → Prop} (within : Within l.fd conn earlier here past)
    : wp (history (allows setup.fromStr config dir))
        (servePassphrase setup conn l.volume memory)
        (fun _ final => Within l.fd conn earlier (fun _ => True) final) past := by
  refine within.any.ask (fun _ _ _ => trivial) trivial (fun _ => nofun) fun _ past within => ?_
  have opened : wp (history (allows setup.fromStr config dir)) (Device.open l.volume.device)
      (fun result final => Within l.fd conn earlier
        (fun since => ∀ device, result = .ok device
          → (Device.open l.volume.device).Ran (.ok device) since) final) past := by
    refine part_wp within Device.open_only (fun _ _ _ _ _ => id) (fun _ => id) ?_
    intro since trace result _ run device made
    exact (made ▸ run).ran.append_left since
  refine wp_then opened fun result past within => ?_
  cases result with
  | error e => exact look_wp within ⟨trivial, fun _ => trivial⟩
  | ok device =>
      have acquired : wp (history (allows setup.fromStr config dir))
          (acquire l.volume device memory.cache)
          (fun result final => Within l.fd conn earlier
            (fun since => ∀ secret, result.1 = some secret
              → Found l.volume device secret since) final) past := by
        refine part_wp within acquire_only (fun _ _ _ _ _ => id) (fun _ => id) ?_
        intro since trace result facts run secret made
        obtain ⟨found, cache⟩ := result
        cases made
        exact ⟨(facts device rfl).append_right trace, (acquire_found run).append_left since⟩
      refine wp_then acquired fun result past within => ?_
      match result with
      | (none, cache) => exact look_wp within ⟨trivial, fun _ => trivial⟩
      | (some secret, cache) =>
          have found := within.mono (fun _ => id) fun since facts => facts secret rfl
          refine wp_then (maybeReenroll_wp configured found) fun decided past within => ?_
          exact wp_then (rest_wp within reply_only (fun _ _ _ _ _ => id) (fun _ => id))
            fun _ _ within => within

/-- A connection starts systemd-cryptenroll only with everything established. -/
theorem handle_wp {setup : Setup} {memory : Memory}
    (configured : ∀ past, earlier past → Configured setup.fromStr config dir l past)
    {here : Trace → Prop} (within : Within l.fd conn earlier here past)
    : wp (history (allows setup.fromStr config dir)) (handle setup conn l.volume memory)
        (fun _ final => Within l.fd conn earlier (fun _ => True) final) past := by
  refine Tpm2Autoenroll.handle_wp (Within l.fd conn earlier fun _ => True)
    (fun _ => Within l.fd conn earlier fun _ => True)
    (fun _ => Within l.fd conn earlier fun _ => True) ?_ ?_ id ?_ (fun _ => trivial) ?_
    within.any
  · intro past op _ small
    exact allows_of small fun _ _ _ _ _ => id
  · intro past op answer next step small within
    rw [history_step.mp step]
    refine within.append ?_ fun _ _ => trivial
    intro event member other same
    rw [List.mem_singleton.mp member] at same
    cases same
    exact small
  · intro past within
    exact servePassphrase_wp configured within
  · intro _ past answer next step within
    rw [history_step.mp step]
    exact within.append (by simp) fun _ _ => trivial

end HeaderWrite

/-- systemd-cryptenroll is started for a volume only if in that same connection a passphrase
was reported correct on the descriptor and is the one handed over, the header gave exactly
one literal token with the configured selection, the TPM is not locked out, none of the
host policy paths exists, and the trial session's digest differs from the token's; and it
is told the configured selection.
-/
theorem header_write_gate {setup : Setup} {rounds : Nat} {config dir : String}
    {before after : Trace} {device : Device} {tpm2Device : String} {pcrs : List UInt8}
    {bank : Tpm2.Bank} {key : SecretFile}
    {answer : Res (.child (.cryptenroll device tpm2Device pcrs bank key))}
    {outcome : Option ExitCode}
    (run : (daemon setup rounds config dir).Runs
      (before ++ ⟨.child (.cryptenroll device tpm2Device pcrs bank key), answer⟩ :: after)
      outcome)
    : ∃ l conn,
        tpm2Device = l.volume.tpm2Device
        ∧ pcrs = l.volume.pcrs.list
        ∧ bank = l.volume.bank
        ∧ Within l.fd conn (Configured setup.fromStr config dir l)
          (HeaderWrite setup.fromStr l.volume device key.secret) before := by
  have specified : wp (history (HeaderWrite.allows setup.fromStr config dir))
      (daemon setup rounds config dir) (fun _ _ => True) [] := by
    refine daemon_history_wp ?_ fun configured => HeaderWrite.handle_wp configured
    intro past op small
    rcases small with small | small | small <;>
      exact HeaderWrite.allows_of small fun _ _ _ _ _ => id
  exact wp_allows specified run (path_history.mpr rfl)

open Scene in
/-- The header write of a run in which the human consents. -/
theorem header_write_gate_home
    : ∃ before l conn,
        l.volume.tpm2Device = "auto" ∧ l.volume.pcrs.list = [7]
        ∧ Within l.fd conn
          (Configured setup.fromStr Config.defaultPath Sockets.defaultDir l)
          (HeaderWrite setup.fromStr l.volume ⟨5, "/dev/vda3"⟩
            ⟨Text.asBytes "correct horse"⟩) before := by
  have called : (play (twoVolumes "yes" fun _ => [0xaa])).trace.any
      (fun event => event.op = headerWrite "/dev/vda3") = true := by decide +kernel
  obtain ⟨answer, run⟩ := runs_drive_split called
  obtain ⟨l, conn, named, pcrs, _, within⟩ := header_write_gate run
  exact ⟨_, l, conn, named.symm, pcrs.symm, within⟩

end Tpm2Autoenroll
