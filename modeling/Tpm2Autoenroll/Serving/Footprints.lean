import Tpm2Autoenroll.Model.Daemon
import Tpm2Autoenroll.Serving.Requests

/-! Which requests each part of the daemon can make at all. A claim about one kind of request
only has to look at the parts whose footprint holds it.
-/

namespace Tpm2Autoenroll

open Interaction Prog
open Token (Tpm2Token)
open Tpm2 (Tpm Bank)

/-- Log lines that neither open the plain phase nor report what became of an enrollment. -/
def LogLine.routine : LogLine → Prop
  | .plainPhase _ | .returned _ => False
  | .headerNotReread _ _ | .newTokenUnidentified _ | .enrolledWrongly _ _ _
  | .verifiedByUnsealing _ _ | .verifiedByPolicy _ _ | .policyNotVerified _ _ _ => False
  | _ => True

namespace Op

/-- Opening the device and finding a passphrase. -/
@[simp]
def acquiring : Op → Prop
  | .terminating | .openFile _ _ | .fstat _ | .secretFile _ => True
  | .child (.askPassword _ _ _) | .child (.testPassphrase _ _) => True
  | .log line => line.routine
  | _ => False

/-- Looking at the header, the TPM and the host. -/
@[simp]
def inspecting : Op → Prop
  | .openFile _ _ | .fstat _ | .symlinkMetadata _ | .tpm _ _ => True
  | .child (.luksDump _) => True
  | .log line => line.routine
  | _ => False

/-- Reading the new token back and trying it. -/
@[simp]
def verifying : Op → Prop
  | .child (.testUnseal _ _) => True
  | .log (.headerNotReread _ _) | .log (.newTokenUnidentified _)
  | .log (.enrolledWrongly _ _ _) | .log (.verifiedByUnsealing _ _)
  | .log (.verifiedByPolicy _ _) | .log (.policyNotVerified _ _ _) => True
  | op => op.inspecting

/-- Asking for consent. -/
@[simp]
def consenting : Op → Prop
  | .terminating | .child (.askConsent _ _ _ _) => True
  | .log line => line.routine
  | _ => False

/-- Everything `maybe_reenroll` does. -/
@[simp]
def repairing : Op → Prop
  | .terminating | .secretFile _ => True
  | .child (.askConsent _ _ _ _) | .child (.cryptenroll _ _ _ _ _) => True
  | op => op.verifying

/-- Writing the passphrase. -/
@[simp]
def replying : Op → Prop
  | .write _ _ | .log (.returned _) => True
  | .log line => line.routine
  | _ => False

/-- Finding out who is on the other end. -/
@[simp]
def identifying : Op → Prop
  | .getpeername _ | .peercred _ | .peerPidfd _ | .pidfdSignal _ => True
  | .readFile _ | .readLink _ => True
  | .log line => line.routine
  | _ => False

/-- Everything a connection does before it is closed. -/
@[simp]
def attending : Op → Prop
  | .log _ => True
  | op => op.identifying ∨ op.acquiring ∨ op.repairing ∨ op.replying

/-- Everything a connection does. -/
@[simp]
def connecting : Op → Prop
  | .close _ => True
  | op => op.attending

/-- The accept loop between connections, its polls and stop checks apart. -/
@[simp]
def bookkeeping : Op → Prop
  | .now | .readDir _ | .readFile _ => True
  | .log line => line.routine
  | _ => False

/-- Everything before the accept loop. -/
@[simp]
def starting : Op → Prop
  | .lockMemory | .setUndumpable | .catchSigterm | .notifyReady => True
  | .readFile _ | .mkdir _ _ | .chmod _ _ | .lstat _ | .unlink _ => True
  | .socketAddr _ | .socket | .bind _ _ | .listen _ _ | .close _ => True
  | .log line => line.routine
  | _ => False

/-- Taking sockets away. -/
@[simp]
def clearing : Op → Prop
  | .lstat _ | .unlink _ => True
  | .log line => line.routine
  | _ => False

end Op

-----------------------------------------------------------------------------------------
-- Devices and passphrases
-----------------------------------------------------------------------------------------

/-- Opening a device looks at its path and at what it opened. -/
theorem Device.open_requests {allowed : Op → Prop} {path : String}
    (opening : allowed (.openFile path false)) (looking : ∀ fd, allowed (.fstat fd))
    : (Device.open path).Only allowed := by
  refine only_ask opening fun opened => ?_
  cases opened with
  | error e => trivial
  | ok fd =>
      refine only_ask (looking fd) fun fileType => ?_
      cases fileType with
      | error e => trivial
      | ok fileType =>
          dsimp only
          split_ifs <;> trivial

theorem Device.open_only {path : String} : (Device.open path).Only Op.acquiring :=
  open_requests trivial fun _ => trivial

theorem SecretFile.new_only {secret : Secret}
    : (SecretFile.new secret).Only Op.acquiring := by
  refine only_ask trivial fun created => ?_
  cases created <;> trivial

theorem Luks.testPassphrase_only {device : Device} {secret : Secret}
    : (Luks.testPassphrase device secret).Only Op.acquiring := by
  refine SecretFile.new_only.bind fun created => ?_
  cases created with
  | error e => trivial
  | ok key =>
      refine only_ask trivial fun output => ?_
      cases output <;> trivial

theorem Askpw.ask_only {volume device : String} {attempt : Attempt}
    : (Askpw.ask volume device attempt).Only Op.acquiring := by
  refine only_ask trivial fun output => ?_
  cases output with
  | error e => trivial
  | ok out =>
      dsimp only
      split_ifs <;> trivial

namespace Acquire

/-- By induction on the passphrases. -/
theorem tryEach_only {config : Volume} {device : Device} {stopped : LogLine}
    {answered : Option LogLine} {secrets : List Secret} (quiet : stopped.routine)
    (quietAnswer : ∀ line ∈ answered, line.routine)
    : (tryEach config device stopped answered secrets).Only Op.acquiring := by
  induction secrets with
  | nil => trivial
  | cons secret rest ih =>
      refine only_ask trivial fun stop => ?_
      cases stop with
      | true => exact ⟨quiet, fun _ => trivial⟩
      | false =>
          refine Luks.testPassphrase_only.bind fun verdict => ?_
          cases verdict with
          | correct =>
              cases answered with
              | none => trivial
              | some line => exact ⟨quietAnswer line rfl, fun _ => trivial⟩
          | wrong => exact ih
          | unusable why => exact ⟨trivial, fun _ => trivial⟩

theorem tryCached_only {config : Volume} {device : Device} {cached : List Secret}
    : (tryCached config device cached).Only Op.acquiring := by
  refine tryEach_only trivial fun line member => ?_
  cases member
  trivial

theorem tryCandidates_only {config : Volume} {device : Device} {candidates : List Secret}
    : (tryCandidates config device candidates).Only Op.acquiring :=
  tryEach_only trivial (fun _ member => nomatch member)

/-- By induction on the attempts. -/
theorem tryPrompts_only {config : Volume} {device : Device} {attempts : List Nat}
    : (tryPrompts config device attempts).Only Op.acquiring := by
  induction attempts with
  | nil => trivial
  | cons attempt more ih =>
      refine only_ask trivial fun stop => ?_
      cases stop with
      | true => exact ⟨trivial, fun _ => trivial⟩
      | false =>
          refine Askpw.ask_only.bind fun offered => ?_
          cases offered with
          | error e => exact ⟨trivial, fun _ => trivial⟩
          | ok candidates =>
              refine tryCandidates_only.bind fun trials => ?_
              cases trials with
              | exhausted => exact ⟨trivial, fun _ => ih⟩
              | found | abandoned => trivial

theorem search_only {config : Volume} {device : Device} {cache : Cache}
    : (search config device cache).Only Op.acquiring := by
  refine tryCached_only.bind fun trials => ?_
  cases trials with
  | found | abandoned => trivial
  | exhausted =>
      refine tryPrompts_only.bind fun trials => ?_
      cases trials <;> trivial

end Acquire

theorem acquire_only {config : Volume} {device : Device} {cache : Cache}
    : (acquire config device cache).Only Op.acquiring := by
  unfold acquire
  split_ifs
  · exact ⟨trivial, fun _ => Acquire.search_only⟩
  · exact Acquire.search_only

-----------------------------------------------------------------------------------------
-- The header and the TPM
-----------------------------------------------------------------------------------------

/-- Reading the tokens asks for a dump of the header. -/
theorem Token.read_requests {allowed : Op → Prop} {fromStr : Json.Reader} {device : Device}
    (dump : allowed (.child (.luksDump device)))
    : (Token.read fromStr device).Only allowed := by
  refine only_ask dump fun output => ?_
  cases output with
  | error e => trivial
  | ok out =>
      dsimp only
      split_ifs <;> trivial

theorem Token.read_only {fromStr : Json.Reader} {device : Device}
    : (Token.read fromStr device).Only Op.inspecting :=
  read_requests trivial

namespace Tpm2

/-- A result that needed no request has an empty footprint. -/
theorem ofResult_only {α : Type} {allowed : Op → Prop} {result : Except String α}
    : (ofResult result).run.Only allowed :=
  trivial

/-- Opening the TPM looks at paths and at what they opened. -/
theorem Tpm.open_requests {allowed : Op → Prop} {device : String}
    (opening : ∀ path write, allowed (.openFile path write)) (looking : ∀ fd, allowed (.fstat fd))
    : (Tpm.open device).run.Only allowed := by
  refine Fallible.only_bind ⟨opening _ _, fun _ => trivial⟩ fun opened => ?_
  cases opened with
  | error e => trivial
  | ok fd =>
      refine Fallible.only_bind ⟨looking fd, fun _ => trivial⟩ fun stat => ?_
      cases stat with
      | error e => trivial
      | ok fileType =>
          dsimp only
          split_ifs <;> trivial

theorem Tpm.open_only {device : String} : (Tpm.open device).run.Only Op.inspecting :=
  open_requests (fun _ _ => trivial) fun _ => trivial

namespace Tpm

variable {tpm : Tpm} {bank : Bank} {indices : List UInt8}

/-- Every command is one exchange with the device. -/
theorem transact_only {cc : UInt32} {body : Text.Bytes} {allowed : Op → Prop}
    (exchange : allowed (.tpm tpm.fd (command cc body)))
    : (tpm.transact cc body).run.Only allowed := by
  refine Fallible.only_bind ⟨exchange, fun _ => trivial⟩ fun answer => ?_
  cases answer <;> trivial

theorem lockout_only {allowed : Op → Prop} (exchange : ∀ cmd, allowed (.tpm tpm.fd cmd))
    : (tpm.lockout).run.Only allowed :=
  Fallible.only_bind (transact_only (exchange _)) fun _ => ofResult_only

/-- The registers are read with PCR_Read only, each time asking for some that are outstanding,
and there are rounds enough, since each leaves fewer of them; by induction on the rounds.
-/
theorem readPcrRounds_only {allowed : Op → Prop} {rounds : Nat} {outstanding : List UInt8}
    {out : List (UInt8 × Text.Bytes)}
    (exchange : ∀ asked, asked.Sublist outstanding
      → allowed (.tpm tpm.fd (command ccPcrRead (putPcrSelection bank asked))))
    (enough : outstanding.length ≤ rounds)
    : (tpm.readPcrRounds bank rounds outstanding out).run.Only allowed := by
  induction rounds generalizing outstanding out with
  | zero =>
      rw [List.eq_nil_of_length_eq_zero (Nat.le_zero.mp enough)]
      trivial
  | succ rounds ih =>
      cases outstanding with
      | nil => trivial
      | cons pcr more =>
          have asking := exchange (pcr :: more) (List.Sublist.refl _)
          refine Fallible.only_bind (transact_only asking) fun payload => ?_
          cases absorbed : (parsePcrRead payload).bind fun round =>
              absorb (pcr :: more) out round with
          | error e => trivial
          | ok progress =>
              obtain ⟨left, gathered⟩ := progress
              have taken : ∃ round, absorb (pcr :: more) out round = .ok (left, gathered) := by
                cases parsed : parsePcrRead payload with
                | error e => simp [parsed, Except.bind] at absorbed
                | ok round => exact ⟨round, by simpa [parsed, Except.bind] using absorbed⟩
              obtain ⟨round, taken⟩ := taken
              have fewer := absorb_length taken
              have among := absorb_sublist taken
              exact ih (fun asked part => exchange asked (part.trans among)) (by omega)

/-- The registers that `read_pcrs` asks for: the ones it was given, sorted and without repeats. -/
theorem readPcrs_only {allowed : Op → Prop}
    (exchange : ∀ asked,
      asked.Sublist ((indices.insertionSort (· ≤ ·)).destutter (· ≠ ·))
      → allowed (.tpm tpm.fd (command ccPcrRead (putPcrSelection bank asked))))
    : (tpm.readPcrs bank indices).run.Only allowed :=
  Fallible.only_bind (readPcrRounds_only exchange le_rfl) fun _ => trivial

/-- What a policy session sends, whatever handle it was given. -/
theorem buildPolicy_only {allowed : Op → Prop} {session : UInt32}
    (extend : allowed (.tpm tpm.fd (command ccPolicyPcr (policyPcrBody session bank indices))))
    (read : allowed (.tpm tpm.fd (command ccPolicyGetDigest (putU32 session))))
    : (tpm.buildPolicy session bank indices).run.Only allowed := by
  refine Fallible.only_bind (transact_only extend) fun _ => ?_
  exact Fallible.only_bind (transact_only read) fun _ => ofResult_only

theorem flush_only {allowed : Op → Prop} {session : UInt32}
    (release : allowed (.tpm tpm.fd (command ccFlushContext (putU32 session))))
    : (tpm.flush session).run.Only allowed :=
  Fallible.only_bind (transact_only release) fun _ => trivial

theorem startTrialSession_only {allowed : Op → Prop}
    (start : allowed (.tpm tpm.fd (command ccStartAuthSession trialSessionBody)))
    : tpm.startTrialSession.run.Only allowed :=
  Fallible.only_bind (transact_only start) fun _ => ofResult_only

theorem pcrPolicyDigest_only {allowed : Op → Prop}
    (start : allowed (.tpm tpm.fd (command ccStartAuthSession trialSessionBody)))
    (extend : ∀ session,
      allowed (.tpm tpm.fd (command ccPolicyPcr (policyPcrBody session bank indices))))
    (read : ∀ session, allowed (.tpm tpm.fd (command ccPolicyGetDigest (putU32 session))))
    (release : ∀ session, allowed (.tpm tpm.fd (command ccFlushContext (putU32 session))))
    (logged : ∀ session e, allowed (.log (.couldNotFlush session e)))
    : (tpm.pcrPolicyDigest bank indices).run.Only allowed := by
  refine Fallible.only_bind (startTrialSession_only start) fun session => ?_
  have built := buildPolicy_only (extend session) (read session)
  refine Fallible.only_bind (built.bind fun _ => trivial) fun result => ?_
  refine Fallible.only_bind ((flush_only (release session)).bind fun _ => trivial) ?_
  intro flushed
  cases flushed with
  | error e => exact ⟨logged session e, fun _ => trivial⟩
  | ok => trivial

theorem pcrPolicyDigest_inspecting
    : (tpm.pcrPolicyDigest bank indices).run.Only Op.inspecting :=
  pcrPolicyDigest_only trivial (fun _ => trivial) (fun _ => trivial) (fun _ => trivial)
    fun _ _ => trivial

end Tpm

end Tpm2

/-- A drift check asks for nothing beyond what computing the policy does. -/
theorem Drift.check_requests {allowed : Op → Prop} {tpm : Tpm} {token : Tpm2Token}
    {pcrs : List UInt8} {bank : Bank} (policy : (tpm.pcrPolicyDigest bank pcrs).run.Only allowed)
    : (Drift.check tpm token pcrs bank).Only allowed := by
  unfold Drift.check
  split
  · trivial
  · split_ifs
    · trivial
    · trivial
    · refine policy.bind fun current => ?_
      cases current with
      | error e => trivial
      | ok current =>
          dsimp only
          split_ifs <;> trivial

theorem Drift.check_only {tpm : Tpm} {token : Tpm2Token} {pcrs : List UInt8} {bank : Bank}
    : (Drift.check tpm token pcrs bank).Only Op.inspecting :=
  check_requests Tpm2.Tpm.pcrPolicyDigest_inspecting

namespace Preflight

variable {fromStr : Json.Reader} {config : Volume} {tpm : Tpm}

/-- By induction on the paths. -/
theorem hostPolicy_only {allowed : Op → Prop} {paths : List String}
    (looking : ∀ path, allowed (.symlinkMetadata path))
    : (hostPolicy paths).Only allowed := by
  induction paths with
  | nil => trivial
  | cons path rest ih =>
      refine only_ask (looking path) fun found => ?_
      cases found with
      | true => trivial
      | false => exact ih

/-- The decision over the tokens looks for the host's policy files and computes the policy. -/
theorem fromTokens_requests {allowed : Op → Prop} {tokens : List Tpm2Token}
    (looking : ∀ path, allowed (.symlinkMetadata path))
    (policy : (tpm.pcrPolicyDigest config.bank config.pcrs.list).run.Only allowed)
    : (fromTokens tokens config tpm).Only allowed := by
  match tokens with
  | [] => trivial
  | _ :: _ :: _ => trivial
  | [token] =>
      change (drifted token config tpm).Only allowed
      unfold drifted
      split
      · trivial
      · split
        · trivial
        · refine (hostPolicy_only looking).bind fun refusal => ?_
          cases refusal with
          | some why => trivial
          | none =>
              refine (Drift.check_requests policy).bind fun drift => ?_
              cases drift <;> trivial

theorem check_only {volume : String} {device : Device}
    : (check fromStr volume config device tpm).Only Op.inspecting := by
  refine Token.read_only.bind fun tokens => ?_
  cases tokens with
  | error e => trivial
  | ok tokens =>
      refine (Tpm2.Tpm.lockout_only fun _ => trivial).bind fun lockout => ?_
      cases lockout with
      | error e => trivial
      | ok l =>
          dsimp only
          split_ifs
          · trivial
          · refine only_ask trivial fun _ => ?_
            exact fromTokens_requests (fun _ => trivial) Tpm2.Tpm.pcrPolicyDigest_inspecting

/-- By induction on the registers. -/
theorem logValues_only {allowed : Op → Prop} {volume : String}
    {values : List (UInt8 × Text.Bytes)}
    (logged : ∀ line : LogLine, line.routine → allowed (.log line))
    : (logValues volume values).Only allowed := by
  induction values with
  | nil => trivial
  | cons value rest ih => exact ⟨logged _ trivial, fun _ => ih⟩

theorem logState_only {allowed : Op → Prop} {volume : String}
    (exchange : ∀ body, allowed (.tpm tpm.fd (Tpm2.command Tpm2.ccPcrRead body)))
    (logged : ∀ line : LogLine, line.routine → allowed (.log line))
    : (logState volume tpm config).Only allowed := by
  refine (Tpm2.Tpm.readPcrs_only fun _ _ => exchange _).bind fun values => ?_
  cases values with
  | error e => exact ⟨logged _ trivial, fun _ => trivial⟩
  | ok values => exact logValues_only logged

end Preflight

/-- Announcing a plan reads the registers and logs, and nothing else. -/
theorem announce_only {allowed : Op → Prop} {config : Volume} {tpm : Tpm}
    {plan : Preflight.Plan}
    (exchange : ∀ body, allowed (.tpm tpm.fd (Tpm2.command Tpm2.ccPcrRead body)))
    (logged : ∀ line : LogLine, line.routine → allowed (.log line))
    : (announce config tpm plan).Only allowed := by
  unfold announce
  split_ifs <;> exact ⟨logged _ trivial, fun _ => Preflight.logState_only exchange logged⟩

theorem announce_inspecting {config : Volume} {tpm : Tpm} {plan : Preflight.Plan}
    : (announce config tpm plan).Only Op.inspecting :=
  announce_only (fun _ => trivial) fun _ routine => routine

-----------------------------------------------------------------------------------------
-- Repairing and replying
-----------------------------------------------------------------------------------------

theorem Op.verifying_of_inspecting {op : Op} (inspecting : op.inspecting) : op.verifying := by
  unfold Op.verifying
  split <;> trivial

theorem Op.repairing_of_verifying {op : Op} (verifying : op.verifying) : op.repairing := by
  unfold Op.repairing
  split <;> trivial

theorem Op.repairing_of_consenting {op : Op} (consenting : op.consenting) : op.repairing := by
  cases op with
  | child process => cases process <;> trivial
  | log line => cases line <;> trivial
  | _ => trivial

theorem verify_only {fromStr : Json.Reader} {config : Volume} {device : Device}
    {plan : Preflight.Plan} {tpm : Tpm}
    : (verify fromStr config device plan tpm).Only Op.verifying := by
  refine (Token.read_only.mono fun _ => Op.verifying_of_inspecting).bind fun tokens => ?_
  cases tokens with
  | error e => exact ⟨trivial, fun _ => trivial⟩
  | ok tokens =>
      dsimp only
      split
      · exact ⟨trivial, fun _ => trivial⟩
      · split
        · exact ⟨trivial, fun _ => trivial⟩
        · have tested (index : UInt32) : (Enroll.testUnseal device index).Only Op.verifying := by
            refine only_ask trivial fun output => ?_
            cases output with
            | error e => trivial
            | ok out =>
                dsimp only
                split_ifs <;> trivial
          refine (tested _).bind fun unsealed => ?_
          cases unsealed with
          | ok => exact ⟨trivial, fun _ => trivial⟩
          | error e =>
              refine only_ask trivial fun _ => ?_
              refine (Drift.check_only.mono fun _ => Op.verifying_of_inspecting).bind ?_
              intro drift
              cases drift <;> exact ⟨trivial, fun _ => trivial⟩

/-- Asking for consent is one question. -/
theorem Consent.ask_requests {allowed : Op → Prop} {volume device : String} {pcrs : List UInt8}
    {bank : Bank} (asking : allowed (.child (.askConsent volume device pcrs bank)))
    (logged : ∀ line : LogLine, line.routine → allowed (.log line))
    : (Consent.ask volume device pcrs bank).Only allowed := by
  refine only_ask asking fun output => ?_
  cases output with
  | error e => exact ⟨logged _ trivial, fun _ => trivial⟩
  | ok out =>
      dsimp only
      split_ifs
      · trivial
      · exact ⟨logged _ trivial, fun _ => trivial⟩

theorem seekConsent_requests {allowed : Op → Prop} {config : Volume} {plan : Preflight.Plan}
    {decided : Consent.Decisions} (checking : allowed .terminating)
    (asking : allowed
      (.child (.askConsent config.name config.device config.pcrs.list config.bank)))
    (logged : ∀ line : LogLine, line.routine → allowed (.log line))
    : (seekConsent config plan decided).Only allowed := by
  unfold seekConsent
  split
  · trivial
  · refine only_ask checking fun stop => ?_
    cases stop with
    | true => exact ⟨logged _ trivial, fun _ => trivial⟩
    | false =>
        refine (Consent.ask_requests asking logged).bind fun answer => ?_
        cases answer with
        | no | always => exact ⟨logged _ trivial, fun _ => trivial⟩
        | yes => trivial

theorem seekConsent_only {config : Volume} {plan : Preflight.Plan}
    {decided : Consent.Decisions}
    : (seekConsent config plan decided).Only Op.consenting :=
  seekConsent_requests trivial trivial fun _ routine => routine

theorem Enroll.run_only {device : Device} {tpm2Device : String} {pcrs : List UInt8}
    {bank : Bank} {secret : Secret}
    : (Enroll.run device tpm2Device pcrs bank secret).Only Op.repairing := by
  unfold Enroll.run
  split_ifs
  · trivial
  · have created : (SecretFile.new secret).Only Op.repairing := by
      refine only_ask trivial fun created => ?_
      cases created <;> trivial
    refine created.bind fun key => ?_
    cases key with
    | error e => trivial
    | ok key =>
        refine only_ask trivial fun output => ?_
        cases output with
        | error e => trivial
        | ok out =>
            dsimp only
            split_ifs <;> trivial

theorem enrollAndVerify_only {fromStr : Json.Reader} {config : Volume} {device : Device}
    {secret : Secret} {tpm : Tpm} {plan : Preflight.Plan}
    : (enrollAndVerify fromStr config device secret tpm plan).Only Op.repairing := by
  refine only_ask trivial fun stop => ?_
  cases stop with
  | true => exact ⟨trivial, fun _ => trivial⟩
  | false =>
      refine Enroll.run_only.bind fun enrolled => ?_
      cases enrolled with
      | error e => exact ⟨trivial, fun _ => trivial⟩
      | ok => exact verify_only.mono fun _ => Op.repairing_of_verifying

theorem maybeReenroll_only {fromStr : Json.Reader} {config : Volume} {device : Device}
    {secret : Secret} {decided : Consent.Decisions}
    : (maybeReenroll fromStr config device secret decided).Only Op.repairing := by
  have inspected {op : Op} (inspecting : op.inspecting) : op.repairing :=
    Op.repairing_of_verifying (Op.verifying_of_inspecting inspecting)
  refine only_ask trivial fun stop => ?_
  cases stop with
  | true => exact ⟨trivial, fun _ => trivial⟩
  | false =>
      refine (Tpm2.Tpm.open_only.mono fun _ => inspected).bind fun opened => ?_
      cases opened with
      | error e => exact ⟨trivial, fun _ => trivial⟩
      | ok tpm =>
          refine (Preflight.check_only.mono fun _ => inspected).bind fun decision => ?_
          cases decision with
          | leave why => exact ⟨trivial, fun _ => trivial⟩
          | reenroll plan =>
              refine (announce_inspecting.mono fun _ => inspected).bind fun _ => ?_
              split_ifs
              · exact ⟨trivial, fun _ => trivial⟩
              · refine (seekConsent_only.mono fun _ => Op.repairing_of_consenting).bind ?_
                intro consent
                dsimp only
                split_ifs
                · exact enrollAndVerify_only.bind fun _ => trivial
                · trivial

/-- By induction on the rounds. -/
theorem writeRounds_only {conn : Fd} {rounds : Nat} {buf : Text.Bytes}
    : (writeRounds conn rounds buf).Only Op.replying True := by
  induction rounds generalizing buf with
  | zero => cases buf <;> trivial
  | succ rounds ih =>
      cases buf with
      | nil => trivial
      | cons next later =>
          refine only_ask trivial fun written => ?_
          match written with
          | .ok n =>
              dsimp only
              split_ifs
              · trivial
              · exact ih
          | .error .intr => exact ih
          | .error .again | .error .noent | .error .exist | .error .pipe
          | .error .noprotoopt | .error (.other _) => trivial

theorem reply_only {interruptions : Nat} {conn : Fd} {volume : String} {secret : Secret}
    : (reply interruptions conn volume secret).Only Op.replying True := by
  refine writeRounds_only.bind fun result => ?_
  cases result <;> exact ⟨trivial, fun _ => trivial⟩

-----------------------------------------------------------------------------------------
-- Peers
-----------------------------------------------------------------------------------------

theorem identify_only {conn : Fd} {managed : Volume}
    : (identify conn managed).Only Op.identifying := by
  refine only_ask trivial fun peer => ?_
  match peer with
  | .error e | .ok none | .ok (some .foreign) | .ok (some .unix) =>
      exact ⟨trivial, fun _ => trivial⟩
  | .ok (some (.abstractName name)) =>
      dsimp only
      split
      · exact ⟨trivial, fun _ => trivial⟩
      · split_ifs
        · exact ⟨trivial, fun _ => trivial⟩
        · trivial

namespace Peer

theorem peerPidfd_only {conn : Fd} : (peerPidfd conn).Only Op.identifying := by
  refine only_ask trivial fun answer => ?_
  match answer with
  | .ok fd => trivial
  | .error .noprotoopt => trivial
  | .error .intr | .error .again | .error .noent | .error .exist | .error .pipe
  | .error (.other _) => trivial

theorem pidfdPid_only {fd : Fd} : (pidfdPid fd).Only Op.identifying := by
  refine only_ask trivial fun info => ?_
  cases info with
  | error e => trivial
  | ok info =>
      dsimp only
      split
      · trivial
      · split_ifs <;> trivial

theorem alive_only {fd : Fd} : (alive fd).Only Op.identifying := by
  refine only_ask trivial fun answer => ?_
  cases answer <;> trivial

theorem judgedPid_only {pidfd : Option Fd} {cred : Ucred}
    : (judgedPid pidfd cred).Only Op.identifying := by
  cases pidfd with
  | some fd => exact pidfdPid_only
  | none => trivial

theorem judge_only {expected volume : String} {pid : Int}
    : (judge expected volume pid).Only Op.identifying := by
  refine only_ask trivial fun cgroup => ?_
  cases cgroup with
  | error e => trivial
  | ok cgroup =>
      dsimp only
      split_ifs
      · trivial
      · refine only_ask trivial fun exe => ?_
        cases exe with
        | error e => trivial
        | ok exe =>
            dsimp only
            split_ifs <;> trivial

theorem check_only {expected : String} {conn : Fd} {volume : String}
    : (check expected conn volume).Only Op.identifying := by
  refine only_ask trivial fun credentials => ?_
  cases credentials with
  | error e => trivial
  | ok cred =>
      dsimp only
      split_ifs
      · trivial
      · refine peerPidfd_only.bind fun pidfd => ?_
        cases pidfd with
        | error e => trivial
        | ok pidfd =>
            refine judgedPid_only.bind fun pid => ?_
            cases pid with
            | error e => trivial
            | ok pid =>
                refine judge_only.bind fun judged => ?_
                cases judged with
                | error e => trivial
                | ok =>
                    cases pidfd with
                    | some fd => exact alive_only
                    | none => trivial

end Peer

-----------------------------------------------------------------------------------------
-- Connections
-----------------------------------------------------------------------------------------

/-- Each part of a connection does what a connection does. -/
theorem Op.attending_of_part {op : Op}
    (part : op.identifying ∨ op.acquiring ∨ op.repairing ∨ op.replying)
    : op.attending := by
  unfold Op.attending
  split
  · trivial
  · exact part

theorem servePassphrase_only {setup : Setup} {conn : Fd} {config : Volume} {memory : Memory}
    : (servePassphrase setup conn config memory).Only Op.attending True := by
  have acquiring (op : Op) (small : op.acquiring) : op.attending :=
    Op.attending_of_part (.inr (.inl small))
  have repairing (op : Op) (small : op.repairing) : op.attending :=
    Op.attending_of_part (.inr (.inr (.inl small)))
  have replying (op : Op) (small : op.replying) : op.attending :=
    Op.attending_of_part (.inr (.inr (.inr small)))
  refine only_ask trivial fun _ => (Device.open_only.loosen.mono acquiring).bind fun opened => ?_
  cases opened with
  | error e => exact ⟨trivial, fun _ => trivial⟩
  | ok device =>
      refine (acquire_only.loosen.mono acquiring).bind fun result => ?_
      match result with
      | (none, cache) => exact ⟨trivial, fun _ => trivial⟩
      | (some secret, cache) =>
          refine (maybeReenroll_only.loosen.mono repairing).bind fun decided => ?_
          exact (reply_only.mono replying).bind fun _ => trivial

theorem dispatch_only {setup : Setup} {conn : Fd} {managed : Volume} {memory : Memory}
    : (dispatch setup conn managed memory).Only Op.attending True := by
  have identifying (op : Op) (small : op.identifying) : op.attending :=
    Op.attending_of_part (.inl small)
  refine (identify_only.loosen.mono identifying).bind fun phase => ?_
  match phase with
  | none => trivial
  | some .tpm2 | some .fido2Salt | some .pkcs11 | some .unknown =>
      exact ⟨trivial, fun _ => trivial⟩
  | some .plain =>
      refine (Peer.check_only.loosen.mono identifying).bind fun verdict => ?_
      cases verdict with
      | error why => exact ⟨trivial, fun _ => trivial⟩
      | ok => exact servePassphrase_only.bind fun _ => trivial

theorem handle_only {setup : Setup} {conn : Fd} {managed : Volume} {memory : Memory}
    : (handle setup conn managed memory).Only Op.connecting True := by
  have attending (op : Op) (small : op.attending) : op.connecting := by
    unfold Op.connecting
    split
    · trivial
    · exact small
  exact (dispatch_only.mono attending).bind fun _ => ⟨trivial, fun _ => trivial⟩

-----------------------------------------------------------------------------------------
-- The accept loop
-----------------------------------------------------------------------------------------

/-- By induction on the items. -/
theorem logEach_only {α : Type} {line : α → LogLine} {items : List α} {allowed : Op → Prop}
    (each : ∀ item, allowed (.log (line item)))
    : (logEach line items).Only allowed := by
  induction items with
  | nil => trivial
  | cons item rest ih => exact ⟨each item, fun _ => ih⟩

namespace Dm

theorem readOrEmpty_only {path : String} : (readOrEmpty path).Only Op.bookkeeping := by
  refine only_ask trivial fun text => ?_
  cases text <;> trivial

/-- By induction on the directory entries. -/
theorem anyActive_only {sysBlock volume : String} {entries : List String}
    : (anyActive sysBlock volume entries).Only Op.bookkeeping := by
  induction entries with
  | nil => trivial
  | cons entry rest ih =>
      unfold anyActive
      split_ifs
      · exact ih
      · refine readOrEmpty_only.bind fun name => ?_
        refine readOrEmpty_only.bind fun uuid => ?_
        split_ifs
        · trivial
        · exact ih

theorem isActive_only {sysBlock volume : String}
    : (isActive sysBlock volume).Only Op.bookkeeping := by
  refine only_ask trivial fun entries => ?_
  cases entries with
  | error e => trivial
  | ok entries => exact anyActive_only

end Dm

namespace Serve

/-- By induction on the volumes. -/
theorem allDone_only {served : Finset String} {volumes : List String}
    : (allDone served volumes).Only Op.bookkeeping := by
  induction volumes with
  | nil => trivial
  | cons volume rest ih =>
      unfold allDone
      split_ifs
      · exact ih
      · refine Dm.isActive_only.bind fun opened => ?_
        cases opened with
        | true => exact ih
        | false => trivial

theorem finished_only {volumes : List String} {served : Finset String} {idle : Nat}
    : (finished volumes served idle).Only Op.bookkeeping := by
  refine allDone_only.bind fun done => ?_
  split_ifs <;> trivial

end Serve

-----------------------------------------------------------------------------------------
-- Starting and stopping
-----------------------------------------------------------------------------------------

namespace Sockets

theorem clear_only {path : String} : (clear path).Only Op.clearing := by
  refine only_ask trivial fun answer => ?_
  match answer with
  | .error .noent => trivial
  | .error .intr | .error .again | .error .exist | .error .pipe | .error .noprotoopt
  | .error (.other _) => trivial
  | .ok stat =>
      dsimp only
      split_ifs
      · trivial
      · refine only_ask trivial fun unlinked => ?_
        cases unlinked <;> trivial

end Sockets

theorem Op.starting_of_clearing {op : Op} (clearing : op.clearing) : op.starting := by
  cases op <;> trivial

/-- By induction on the listeners. -/
theorem shutdown_only {listeners : List Listener}
    : (shutdown listeners).Only Op.clearing := by
  induction listeners with
  | nil => trivial
  | cons l rest ih =>
      refine Sockets.clear_only.bind fun cleared => ?_
      match cleared with
      | .ok .kept | .error e => exact ⟨trivial, fun _ => ih⟩
      | .ok .absent | .ok .removed => exact ih

namespace Sockets

theorem bindAndListen_only {fd : Fd} {path : String}
    : (bindAndListen fd path).Only Op.starting := by
  refine only_ask trivial fun bound => ?_
  cases bound with
  | error e => exact ⟨trivial, fun _ => trivial⟩
  | ok =>
      refine only_ask trivial fun moded => ?_
      cases moded with
      | error e => exact ⟨trivial, fun _ => trivial⟩
      | ok =>
          refine only_ask trivial fun listened => ?_
          cases listened with
          | error e => exact ⟨trivial, fun _ => trivial⟩
          | ok => trivial

theorem create_only {path : String} : (create path).Only Op.starting := by
  refine only_ask trivial fun addressed => ?_
  cases addressed with
  | error e => trivial
  | ok =>
      refine only_ask trivial fun created => ?_
      cases created with
      | error e => trivial
      | ok fd => exact bindAndListen_only

theorem bind_only {path : String} : (bind path).Only Op.starting := by
  refine (clear_only.mono fun _ => Op.starting_of_clearing).bind fun cleared => ?_
  match cleared with
  | .error e | .ok .kept => trivial
  | .ok .absent | .ok .removed => exact create_only

theorem ensureDir_only {dir : String} : (ensureDir dir).Only Op.starting := by
  refine only_ask trivial fun made => ?_
  match made with
  | .ok () =>
      refine only_ask trivial fun moded => ?_
      cases moded <;> trivial
  | .error .exist =>
      refine only_ask trivial fun stat => ?_
      cases stat with
      | error e => trivial
      | ok stat =>
          dsimp only
          split_ifs <;> trivial
  | .error .intr | .error .again | .error .noent | .error .pipe | .error .noprotoopt
  | .error (.other _) => trivial

end Sockets

/-- By induction on the volumes. -/
theorem listenAll_only {dir : String} {volumes : List Volume}
    : (listenAll dir volumes).Only Op.starting := by
  induction volumes with
  | nil => trivial
  | cons volume rest ih =>
      refine Sockets.bind_only.bind fun bound => ?_
      cases bound with
      | ok fd => exact ih.bind fun _ => trivial
      | error e => exact ⟨trivial, fun _ => ih⟩

theorem listen_only {dir : String} {volumes : List Volume}
    : (listen dir volumes).Only Op.starting := by
  refine Sockets.ensureDir_only.bind fun ensured => ?_
  cases ensured with
  | error e => trivial
  | ok =>
      refine listenAll_only.bind fun listeners => ?_
      split_ifs <;> trivial

theorem Config.load_only {fromStr : Json.Reader} {path : String}
    : (Config.load fromStr path).Only Op.starting := by
  have read : (Config.read fromStr path).Only Op.starting := by
    refine only_ask trivial fun text => ?_
    cases text <;> trivial
  refine read.bind fun loaded => ?_
  cases loaded with
  | error e => trivial
  | ok loaded => exact (logEach_only fun _ => trivial).bind fun _ => trivial

theorem start_only {fromStr : Json.Reader} {config socketDir : String}
    : (start fromStr config socketDir).Only Op.starting := by
  refine ⟨trivial, fun _ => ⟨trivial, fun _ => ⟨trivial, fun _ => ?_⟩⟩⟩
  refine Config.load_only.bind fun volumes => ?_
  cases volumes with
  | error e => exact ⟨trivial, fun _ => trivial⟩
  | ok volumes =>
      dsimp only
      split_ifs
      · exact ⟨trivial, fun _ => ⟨trivial, fun _ => trivial⟩⟩
      · refine listen_only.bind fun listeners => ?_
        cases listeners with
        | error e => exact ⟨trivial, fun _ => trivial⟩
        | ok listeners =>
            refine (logEach_only fun _ => trivial).bind fun _ => ?_
            exact ⟨trivial, fun _ => trivial⟩

end Tpm2Autoenroll
