import Tpm2Autoenroll.Exchanges.Commands
import Tpm2Autoenroll.Exchanges.Unmarshalling
import Tpm2Autoenroll.Interaction.Keeping
import Tpm2Autoenroll.Serving.Rules
import Tpm2Autoenroll.Serving.Scenes

/-! How the daemon uses the TPM over a whole run, whatever this answers: which file its commands go
to, in which order they come and what happens between them.
-/

namespace Tpm2Autoenroll

open Interaction Prog
open Text (Bytes)
open Token (Tpm2Token)
open Tpm2 (Bank Request Tpm)

/-- What a run shows about its use of the TPM: the file last opened for writing, the one of them
that is known to be a character device, and the session that is open, with whether a policy is in
it.
-/
structure TpmUse where
  opened : Option Fd
  device : Option Fd
  session : Option (UInt32 × Bool)
  deriving DecidableEq

namespace TpmUse

/-- The sessions after a request that came to this. -/
def follow (use : TpmUse) (request : Request) (payload : Option Bytes) : Option (UInt32 × Bool) :=
  match request with
  | .startTrialSession _ =>
      (payload.bind fun payload => (Tpm2.parseHandle payload).toOption).map (·, false)
  | .policyPcr session _ _ => if payload.isSome then some (session, true) else use.session
  | .flushContext _ => none
  | _ => use.session

def observe : TpmUse → Event → TpmUse
  | use, ⟨.accept _, .ok _⟩ => { use with opened := none, device := none }
  | use, ⟨.openFile _ true, .ok fd⟩ => { use with opened := some fd, device := none }
  | use, ⟨.fstat fd, .ok .characterDevice⟩ =>
      if use.opened = some fd then { use with device := some fd } else use
  | use, ⟨.tpm _ cmd, answer⟩ =>
      match Tpm2.understand cmd with
      | some request => { use with session := use.follow request answer.payload }
      | none => use
  | use, _ => use

/-- What a run shows from its beginning. -/
def of (trace : Trace) : TpmUse := trace.foldl observe ⟨none, none, none⟩

/-- The requests that are in order. Registers and properties are read outside of sessions. A session
is opened when there is none; one policy over some registers goes into it; its digest is read; and
nothing but that session is flushed.
-/
def Proper (use : TpmUse) : Request → Prop
  | .getCapability _ _ _ | .pcrRead _ _ | .startTrialSession _ => use.session = none
  | .policyPcr session _ pcrs => use.session = some (session, false) ∧ pcrs ≠ []
  | .policyGetDigest session => use.session = some (session, true)
  | .flushContext session => ∃ policy, use.session = some (session, policy)

/-- A command goes to a character device that was opened in this connection and is understood as a
request that is in order; everything else comes when no session is open.
-/
def allows (use : TpmUse) : Op → Prop
  | .tpm fd cmd =>
      use.device = some fd ∧ ∃ request, Tpm2.understand cmd = some request ∧ use.Proper request
  | _ => use.session = none

def watch : Monitor Res TpmUse := .observing allows observe

variable {use : TpmUse} {tpm : Tpm}

/-- No session is open. -/
def Idle (use : TpmUse) : Prop := use.session = none

/-- The TPM can be asked. -/
structure Ready (tpm : Tpm) (use : TpmUse) : Prop where
  idle : use.session = none
  device : use.device = some tpm.fd

-----------------------------------------------------------------------------------------
-- Other requests
-----------------------------------------------------------------------------------------

/-- Everything but commands. -/
def offside : Op → Prop
  | .tpm _ _ => False
  | _ => True

theorem offside_of_acquiring {op : Op} (acquiring : op.acquiring) : offside op := by
  cases op <;> trivial

theorem offside_of_replying {op : Op} (replying : op.replying) : offside op := by
  cases op <;> trivial

theorem offside_of_identifying {op : Op} (identifying : op.identifying) : offside op := by
  cases op <;> trivial

theorem offside_of_starting {op : Op} (starting : op.starting) : offside op := by
  cases op <;> trivial

theorem offside_of_clearing {op : Op} (clearing : op.clearing) : offside op := by
  cases op <;> trivial

theorem offside_of_serving {op : Op} (serving : op.serving) : offside op := by
  cases op <;> trivial

theorem allows_of_offside {op : Op} (off : offside op) (idle : Idle use) : allows use op := by
  cases op with
  | tpm => exact off.elim
  | _ => exact idle

/-- No other request opens a session. -/
theorem session_observe {event : Event} (off : offside event.op)
    : (observe use event).session = use.session := by
  unfold observe
  split
  · rfl
  · rfl
  · split_ifs <;> rfl
  · exact off.elim
  · rfl

theorem idle_step {op : Op} {answer : Res op} {after : TpmUse}
    (step : watch.step use ⟨op, answer⟩ after) (idle : Idle use) (off : offside op)
    : Idle after := by
  rw [Idle, step]
  exact (@session_observe use ⟨op, answer⟩ off).trans idle

theorem offside_keeps {α : Type} {left : Prop} {program : Sys α} (only : program.Only offside left)
    : program.Keeps watch Idle :=
  .of_only only (fun _ _ _ => trivial) (fun _ _ off idle => allows_of_offside off idle)
    fun _ _ _ _ off idle step => idle_step step idle off

theorem ask_idle {op : Op} (off : offside op) : (ask op).Keeps watch Idle :=
  @offside_keeps _ False _ ⟨off, fun _ => trivial⟩

/-- The requests of a repair that leave the TPM's file alone. -/
def aside : Op → Prop
  | .terminating | .log _ | .symlinkMetadata _ | .child _ | .secretFile _ => True
  | _ => False

theorem aside_of_consenting {op : Op} (consenting : op.consenting) : aside op := by
  cases op <;> trivial

theorem observe_aside {event : Event} (apart : aside event.op) : observe use event = use := by
  obtain ⟨op, answer⟩ := event
  cases op with
  | terminating | log | symlinkMetadata | child | secretFile => rfl
  | _ => exact apart.elim

theorem aside_keeps {α : Type} {program : Sys α} (only : program.Only aside)
    : program.Keeps watch (Ready tpm) := by
  refine .of_only only False.elim (fun use op apart ready => ?_) fun _ _ _ _ apart ready step => ?_
  · cases op with
    | terminating | log | symlinkMetadata | child | secretFile => exact ready.idle
    | _ => exact apart.elim
  · rw [step, observe_aside apart]
    exact ready

theorem log_keeps {line : LogLine} : (log line).Keeps watch (Ready tpm) :=
  aside_keeps ⟨trivial, fun _ => trivial⟩

-----------------------------------------------------------------------------------------
-- Commands
-----------------------------------------------------------------------------------------

/-- The rule of a command that is in order. -/
theorem transact_wp {cc : UInt32} {body : Bytes} {request : Request}
    {post : Except String Bytes → TpmUse → Prop} (device : use.device = some tpm.fd)
    (understood : Tpm2.understand (Tpm2.command cc body) = some request)
    (proper : use.Proper request)
    (completed : ∀ result, post result { use with session := use.follow request result.toOption })
    : wp watch (tpm.transact cc body).run post use := by
  refine Tpm.transact_wp ⟨device, request, understood, proper⟩ ?_
  intro answer result after step same
  have next : after = { use with session := use.follow request result.toOption } := by
    rw [show after = observe use _ from step, observe, understood, same]
  rw [next]
  exact completed result

theorem lockout_keeps : tpm.lockout.run.Keeps watch (Ready tpm) := by
  intro use ready
  refine Fallible.wp_bind.mpr
    (transact_wp ready.device Tpm2.understand_lockout ready.idle fun result => ?_)
  cases result with
  | error e => exact ready
  | ok payload => exact ready

/-- Each round of reading registers leaves the TPM as it was. -/
theorem readPcrs_keeps {bank : Bank} {indices : List UInt8} (inRange : ∀ pcr ∈ indices, pcr ≤ 23)
    : (tpm.readPcrs bank indices).run.Keeps watch (Ready tpm) := by
  have reading {asked : List UInt8} (part : ∀ pcr ∈ asked, pcr ∈ indices) :=
    @Tpm2.understand_pcrRead bank asked fun pcr member => inRange pcr (part pcr member)
  have footprint : (tpm.readPcrs bank indices).run.Only fun op =>
      ∃ asked, (∀ pcr ∈ asked, pcr ∈ indices)
        ∧ op = .tpm tpm.fd (Tpm2.command Tpm2.ccPcrRead (Tpm2.putPcrSelection bank asked)) :=
    Tpm.readPcrs_only fun asked part =>
      ⟨asked, fun pcr member => Sorting.mem_sortDedup.mp (part.mem member), rfl⟩
  refine .of_only footprint False.elim ?_ ?_
  · intro use op footprint ready
    obtain ⟨asked, part, rfl⟩ := footprint
    exact ⟨ready.device, _, reading part, ready.idle⟩
  · intro use op answer after footprint ready step
    obtain ⟨asked, part, rfl⟩ := footprint
    have next : after = use := by
      rw [show after = observe use _ from step, observe, reading part]
      rfl
    rw [next]
    exact ready

/-- A session is open for a policy. -/
structure Inside (tpm : Tpm) (session : UInt32) (use : TpmUse) : Prop where
  device : use.device = some tpm.fd
  isOpen : ∃ policy, use.session = some (session, policy)

theorem startTrialSession_wp (ready : Ready tpm use)
    : wp watch tpm.startTrialSession.run
        (fun result after => after.device = some tpm.fd
          ∧ after.session = result.toOption.map (·, false)) use := by
  refine Fallible.wp_bind.mpr
    (transact_wp ready.device Tpm2.understand_startTrialSession ready.idle fun result => ?_)
  cases result with
  | error e => exact ⟨ready.device, rfl⟩
  | ok payload => exact ⟨ready.device, rfl⟩

/-- A policy goes into its session before its digest is read. -/
theorem buildPolicy_wp {bank : Bank} {indices : List UInt8} {session : UInt32}
    (some : indices ≠ []) (inRange : ∀ pcr ∈ indices, pcr ≤ 23) (device : use.device = .some tpm.fd)
    (opened : use.session = .some (session, false))
    : wp watch (tpm.buildPolicy session bank indices).run (fun _ after => Inside tpm session after)
        use := by
  have chosen : Sorting.sortDedup indices ≠ [] := mt Sorting.sortDedup_eq_nil.mp some
  refine Fallible.wp_bind.mpr (transact_wp device (Tpm2.understand_policyPcr inRange)
    ⟨opened, chosen⟩ fun result => ?_)
  cases result with
  | error e => exact ⟨device, false, opened⟩
  | ok payload =>
      refine Fallible.wp_bind.mpr
        (transact_wp device Tpm2.understand_policyGetDigest rfl fun result => ?_)
      cases result with
      | error e => exact ⟨device, true, rfl⟩
      | ok payload => exact ⟨device, true, rfl⟩

theorem flush_wp {session : UInt32} (within : Inside tpm session use)
    : wp watch (tpm.flush session).run (fun _ after => Ready tpm after) use := by
  refine Fallible.wp_bind.mpr
    (transact_wp within.device Tpm2.understand_flush within.isOpen fun result => ?_)
  cases result with
  | error e => exact ⟨rfl, within.device⟩
  | ok payload => exact ⟨rfl, within.device⟩

/-- The policy is built in the session that was opened for it, and this is flushed whatever comes of
it.
-/
theorem pcrPolicyDigest_keeps {bank : Bank} {indices : List UInt8} (some : indices ≠ [])
    (inRange : ∀ pcr ∈ indices, pcr ≤ 23)
    : (tpm.pcrPolicyDigest bank indices).run.Keeps watch (Ready tpm) := by
  intro use ready
  refine Fallible.wp_bind.mpr (wp_mono (startTrialSession_wp ready) fun result after facts => ?_)
  obtain ⟨device, session⟩ := facts
  cases result with
  | error e => exact ⟨session, device⟩
  | ok handle =>
      refine Fallible.wp_bind.mpr (Fallible.wp_lift.mpr
        (wp_mono (buildPolicy_wp some inRange device session) fun digest later within => ?_))
      refine Fallible.wp_bind.mpr (Fallible.wp_lift.mpr
        (wp_mono (flush_wp within) fun flushed last ready => ?_))
      cases flushed with
      | error e => exact Fallible.wp_bind.mpr (Fallible.wp_lift.mpr (log_keeps last ready))
      | ok => exact ready

-----------------------------------------------------------------------------------------
-- A connection
-----------------------------------------------------------------------------------------

variable {fromStr : Json.Reader} {config : Volume} {device : Device}

theorem drift_keeps {token : Tpm2Token}
    : (Drift.check tpm token config.pcrs.list config.bank).Keeps watch (Ready tpm) := by
  rw [Drift.check]
  cases token.advanced with
  | some kind => exact .pure
  | none =>
      dsimp only
      split_ifs
      · exact .pure
      · exact .pure
      · refine (pcrPolicyDigest_keeps config.pcrs.nonempty config.pcrs.inRange).bind ?_
        intro current
        cases current with
        | error e => exact .pure
        | ok current =>
            dsimp only
            split_ifs <;> exact .pure

theorem read_keeps : (Token.read fromStr device).Keeps watch (Ready tpm) :=
  aside_keeps (Token.read_requests trivial)

theorem drifted_keeps {token : Tpm2Token}
    : (Preflight.drifted token config tpm).Keeps watch (Ready tpm) := by
  rw [Preflight.drifted]
  cases Preflight.tokenRefusal token with
  | some why => exact .pure
  | none =>
      cases Preflight.sameSelection token config with
      | error why => exact .pure
      | ok =>
          refine (aside_keeps (Preflight.hostPolicy_only fun _ => trivial)).bind fun refusal => ?_
          cases refusal with
          | some why => exact .pure
          | none =>
              refine drift_keeps.bind fun drift => ?_
              cases drift <;> exact .pure

theorem check_keeps {volume : String}
    : (Preflight.check fromStr volume config device tpm).Keeps watch (Ready tpm) := by
  refine read_keeps.bind fun tokens => ?_
  cases tokens with
  | error e => exact .pure
  | ok tokens =>
      refine lockout_keeps.bind fun lockout => ?_
      cases lockout with
      | error e => exact .pure
      | ok l =>
          dsimp only
          split_ifs
          · exact .pure
          · refine log_keeps.bind fun _ => ?_
            match tokens with
            | [] | _ :: _ :: _ => exact .pure
            | [token] => exact drifted_keeps

theorem logValues_keeps {volume : String} {values : List (UInt8 × Bytes)}
    : (Preflight.logValues volume values).Keeps watch (Ready tpm) := by
  induction values with
  | nil => exact .pure
  | cons value rest ih => exact log_keeps.bind fun _ => ih

theorem announce_keeps {plan : Preflight.Plan}
    : (announce config tpm plan).Keeps watch (Ready tpm) := by
  have registers : (Preflight.logState config.name tpm config).Keeps watch (Ready tpm) := by
    refine (readPcrs_keeps config.pcrs.inRange).bind fun values => ?_
    cases values with
    | error e => exact log_keeps
    | ok values => exact logValues_keeps
  rw [announce]
  split_ifs <;> exact log_keeps.bind fun _ => registers

theorem verify_keeps {plan : Preflight.Plan}
    : (verify fromStr config device plan tpm).Keeps watch (Ready tpm) := by
  refine read_keeps.bind fun tokens => ?_
  cases tokens with
  | error e => exact log_keeps
  | ok tokens =>
      dsimp only
      cases Enroll.findNewToken tokens plan.oldToken with
      | none => exact log_keeps
      | some new =>
          dsimp only
          split
          · exact log_keeps
          · have unsealing : (Enroll.testUnseal device new.index).Only aside := by
              refine only_ask trivial fun output => ?_
              cases output with
              | error e => trivial
              | ok out =>
                  dsimp only
                  split_ifs <;> trivial
            refine (aside_keeps unsealing).bind fun unsealed => ?_
            cases unsealed with
            | ok => exact log_keeps
            | error e =>
                refine log_keeps.bind fun _ => drift_keeps.bind fun drift => ?_
                cases drift <;> exact log_keeps

theorem enrollAndVerify_keeps {secret : Secret} {plan : Preflight.Plan}
    : (enrollAndVerify fromStr config device secret tpm plan).Keeps watch (Ready tpm) := by
  have stopCheck : terminating.Keeps watch (Ready tpm) := aside_keeps ⟨trivial, fun _ => trivial⟩
  refine stopCheck.bind fun stop => ?_
  cases stop with
  | true => exact log_keeps
  | false =>
      have enrolling : (Enroll.run device config.tpm2Device config.pcrs.list config.bank
          secret).Only aside := by
        rw [Enroll.run, if_neg config.pcrs.nonempty]
        refine only_ask trivial fun file => ?_
        cases file with
        | error e => trivial
        | ok fd =>
            refine only_ask trivial fun output => ?_
            cases output with
            | error e => trivial
            | ok out =>
                dsimp only
                split_ifs <;> trivial
      refine (aside_keeps enrolling).bind fun enrolled => ?_
      cases enrolled with
      | error e => exact log_keeps
      | ok => exact verify_keeps

/-- The TPM is asked through a character device that was just opened for it. -/
theorem open_wp {name : String} (idle : Idle use)
    : wp watch (Tpm.open name).run
        (fun result after => Idle after ∧ ∀ tpm, result = .ok tpm → Ready tpm after) use := by
  refine Fallible.wp_bind.mpr ⟨idle, fun opened after step => ?_⟩
  have still := idle_step step idle trivial
  cases opened with
  | error e => exact ⟨still, nofun⟩
  | ok fd =>
      have held : after.opened = some fd := by
        rw [step]
        rfl
      refine Fallible.wp_bind.mpr ⟨still, fun fileType later step => ?_⟩
      have idle := idle_step step still trivial
      cases fileType with
      | error e => exact ⟨idle, nofun⟩
      | ok fileType =>
          cases fileType with
          | characterDevice =>
              have device : later.device = some fd := by
                rw [step]
                exact congrArg TpmUse.device (if_pos held)
              refine ⟨idle, fun tpm same => ?_⟩
              cases same
              exact ⟨idle, device⟩
          | directory | socket | blockDevice | other => exact ⟨idle, nofun⟩

theorem maybeReenroll_keeps {secret : Secret} {decided : Consent.Decisions}
    : (maybeReenroll fromStr config device secret decided).Keeps watch Idle := by
  have logged {line : LogLine} : (Tpm2Autoenroll.log line).Keeps watch Idle := ask_idle trivial
  have stopCheck : terminating.Keeps watch Idle := ask_idle trivial
  refine stopCheck.bind fun stop => ?_
  cases stop with
  | true => exact logged.bind fun _ => .pure
  | false =>
      intro use idle
      refine wp_then (open_wp idle) fun opened after facts => ?_
      obtain ⟨still, ready⟩ := facts
      cases opened with
      | error e => exact (logged.bind fun _ => .pure) after still
      | ok tpm =>
          have settled {α : Type} {program : Sys α} (keeps : program.Keeps watch (Ready tpm))
              : wp watch program (fun _ last => Idle last) after :=
            wp_mono (keeps after (ready tpm rfl)) fun _ _ kept => kept.idle
          refine settled (check_keeps.bind fun decision => ?_)
          cases decision with
          | leave why => exact log_keeps.bind fun _ => .pure
          | reenroll plan =>
              refine announce_keeps.bind fun _ => ?_
              dsimp only
              split_ifs
              · exact log_keeps.bind fun _ => .pure
              · refine (aside_keeps (seekConsent_only.mono fun _ => aside_of_consenting)).bind ?_
                intro consent
                split_ifs
                · exact enrollAndVerify_keeps.bind fun _ => .pure
                · exact .pure

theorem servePassphrase_keeps {setup : Setup} {conn : Fd} {memory : Memory}
    : (servePassphrase setup conn config memory).Keeps watch Idle := by
  have logged {line : LogLine} : (Tpm2Autoenroll.log line).Keeps watch Idle := ask_idle trivial
  refine logged.bind fun _ => ?_
  refine (offside_keeps (Device.open_only.mono fun _ => offside_of_acquiring)).bind fun opened => ?_
  cases opened with
  | error e => exact logged.bind fun _ => .pure
  | ok device =>
      refine (offside_keeps (acquire_only.mono fun _ => offside_of_acquiring)).bind fun found => ?_
      obtain ⟨secret, cache⟩ := found
      cases secret with
      | none => exact logged.bind fun _ => .pure
      | some secret =>
          refine maybeReenroll_keeps.bind fun decided => ?_
          refine (offside_keeps (reply_only.mono fun _ => offside_of_replying)).bind fun _ => ?_
          exact .pure

theorem handle_keeps {setup : Setup} {conn : Fd} {memory : Memory}
    : (handle setup conn config memory).Keeps watch Idle := by
  have logged {line : LogLine} : (Tpm2Autoenroll.log line).Keeps watch Idle := ask_idle trivial
  have dispatched : (dispatch setup conn config memory).Keeps watch Idle := by
    refine (offside_keeps (identify_only.mono fun _ => offside_of_identifying)).bind fun phase => ?_
    match phase with
    | none => exact .pure
    | some .tpm2 | some .fido2Salt | some .pkcs11 | some .unknown =>
        exact logged.bind fun _ => .pure
    | some .plain =>
        refine (offside_keeps (Peer.check_only.mono fun _ => offside_of_identifying)).bind ?_
        intro verdict
        cases verdict with
        | error why => exact logged.bind fun _ => .pure
        | ok => exact servePassphrase_keeps.bind fun _ => .pure
  have closing : (ask (.close conn)).Keeps watch Idle := ask_idle trivial
  exact dispatched.bind fun _ => closing.bind fun _ => .pure

-----------------------------------------------------------------------------------------
-- The daemon
-----------------------------------------------------------------------------------------

theorem serving {setup : Setup} {listeners : List Listener}
    : ServeInvariant watch setup listeners (fun _ => Idle) fun _ => Idle :=
  .of_kept (fun _ => trivial)
    (fun idle small => allows_of_offside (offside_of_serving small) idle)
    (fun step small idle => idle_step step idle (offside_of_serving small))
    (fun _ step idle => handle_keeps _ (idle_step step idle trivial))

theorem daemon_wp {setup : Setup} {rounds : Nat} {config dir : String}
    : wp watch (daemon setup rounds config dir) (fun _ _ => True) ⟨none, none, none⟩ := by
  refine Tpm2Autoenroll.daemon_wp (fun _ => Idle) ?_ ?_
  · have starting : (start setup.fromStr config dir).Keeps watch Idle :=
      offside_keeps (start_only.mono fun _ => offside_of_starting)
    exact wp_mono (starting _ rfl) fun _ _ idle _ _ => idle
  · intro listeners use idle
    refine ⟨_, _, serving, idle, fun _ final settled => ?_⟩
    have stopping : (shutdown listeners).Keeps watch Idle :=
      offside_keeps (shutdown_only.mono fun _ => offside_of_clearing)
    exact wp_mono (stopping final settled) fun _ _ _ => trivial

end TpmUse

end Tpm2Autoenroll
