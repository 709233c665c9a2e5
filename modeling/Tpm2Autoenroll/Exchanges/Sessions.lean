import Mathlib.Data.Set.Insert
import Tpm2Autoenroll.Exchanges.Commands
import Tpm2Autoenroll.Interaction.Driving
import Tpm2Autoenroll.Serving.Footprints
import Tpm2Autoenroll.Serving.Outcomes

/-! The trial sessions of the drift checks: whatever the TPM answers, the session that was
opened is flushed, so that no check leaves one behind.
-/

namespace Tpm2Autoenroll

open Interaction Prog
open Text (Bytes)
open Token (Tpm2Token)

/-- The request is FlushContext. -/
def Op.flushes : Op → Prop
  | .tpm _ cmd => Tpm2.commandCode cmd = Tpm2.putU32 Tpm2.ccFlushContext
  | _ => False

/-- The request can neither open nor flush a session. -/
def Op.keepsSessions : Op → Prop
  | .tpm _ cmd =>
      Tpm2.commandCode cmd ≠ Tpm2.putU32 Tpm2.ccStartAuthSession
      ∧ Tpm2.commandCode cmd ≠ Tpm2.putU32 Tpm2.ccFlushContext
  | _ => True

namespace Tpm2

-----------------------------------------------------------------------------------------
-- The open sessions
-----------------------------------------------------------------------------------------

/-- What a TPM in good order does to the open sessions. It answers in time and in good form, it
executes exactly the commands that it answers with success, and it flushes what is open.
-/
inductive Serves (sessions : Set UInt32) (cmd : Bytes) : TpmAnswer → Set UInt32 → Prop
  | refused {code : UInt32} {payload : Bytes} (failed : code ≠ 0)
    (room : 10 + payload.length < 2 ^ 32)
    (needless : ∀ handle ∈ sessions, cmd ≠ command ccFlushContext (putU32 handle))
    : Serves sessions cmd (.response (response code payload)) sessions
  | opened {body nonce : Bytes} {handle : UInt32} (asked : cmd = command ccStartAuthSession body)
    (free : handle ∉ sessions) (room : 14 + nonce.length < 2 ^ 32)
    : Serves sessions cmd (.response (response 0 (putU32 handle ++ nonce)))
        (insert handle sessions)
  | flushed {handle : UInt32} (asked : cmd = command ccFlushContext (putU32 handle))
    : Serves sessions cmd (.response (response 0 [])) (sessions \ {handle})
  | executed {payload : Bytes} (room : 10 + payload.length < 2 ^ 32)
    (opensNone : commandCode cmd ≠ putU32 ccStartAuthSession)
    (flushesNone : commandCode cmd ≠ putU32 ccFlushContext)
    : Serves sessions cmd (.response (response 0 payload)) sessions

/-- The monitor that follows the open sessions of such a TPM. -/
def openSessions : Monitor Res (Set UInt32) where
  allows _ _ := True
  step sessions event after :=
    match event with
    | ⟨.tpm _ cmd, answer⟩ => Serves sessions cmd answer after
    | _ => after = sessions

variable {tpm : Tpm} {bank : Bank} {indices : List UInt8} {sessions after : Set UInt32}
  {cmd : Bytes} {answer : TpmAnswer}

theorem payload_success {payload : Bytes} (room : 10 + payload.length < 2 ^ 32)
    : (TpmAnswer.response (response 0 payload)).payload = some payload := by
  rw [TpmAnswer.payload_response, responsePayload_response room, if_neg (not_not.mpr rfl)]
  rfl

theorem payload_failure {code : UInt32} {payload : Bytes} (failed : code ≠ 0)
    (room : 10 + payload.length < 2 ^ 32)
    : (TpmAnswer.response (response code payload)).payload = none := by
  rw [TpmAnswer.payload_response, responsePayload_response room, if_pos failed]
  rfl

/-- A started session is one that was not open before. -/
theorem startTrialSession_opens
    : wp openSessions tpm.startTrialSession.run
        (fun result after =>
          match result with
          | .ok handle => handle ∉ sessions ∧ after = insert handle sessions
          | .error _ => after = sessions) sessions := by
  refine Fallible.wp_bind.mpr (Tpm.transact_wp trivial fun answer result after step same => ?_)
  cases step with
  | refused failed room needless =>
      rw [payload_failure failed room] at same
      cases result with
      | error e => rfl
      | ok payload => cases same
  | @opened body nonce handle asked free room =>
      have length : (putU32 handle ++ nonce).length = 4 + nonce.length := by
        rw [List.length_append]
        rfl
      rw [payload_success (by omega)] at same
      cases result with
      | error e => cases same
      | ok payload =>
          cases same
          show wp openSessions (ofResult (parseHandle _)).run _ _
          rw [parseHandle_payload (by omega)]
          exact ⟨free, rfl⟩
  | flushed asked =>
      have code := congrArg commandCode asked
      simp only [commandCode_command] at code
      exact absurd code (by decide)
  | executed room opensNone flushesNone => exact absurd rfl opensNone

/-- Building a policy opens no session and flushes none. -/
theorem buildPolicy_keeps {session : UInt32}
    : wp openSessions (tpm.buildPolicy session bank indices).run (fun _ after => after = sessions)
        sessions := by
  have only : (tpm.buildPolicy session bank indices).run.Only Op.keepsSessions :=
    Tpm.buildPolicy_only ⟨by simp; decide, by simp; decide⟩ ⟨by simp; decide, by simp; decide⟩
  refine wp_invariant only (fun left => left.elim) (fun _ _ _ _ => trivial) ?_ rfl
  rintro before op answer after keeps rfl step
  cases op with
  | tpm fd cmd =>
      cases step with
      | refused => rfl
      | opened asked =>
          rw [asked] at keeps
          exact absurd rfl keeps.1
      | flushed asked =>
          rw [asked] at keeps
          exact absurd rfl keeps.2
      | executed => rfl
  | _ => exact step

/-- What is open is flushed. -/
theorem flush_closes {handle : UInt32} (isOpen : handle ∈ sessions)
    : wp openSessions (tpm.flush handle).run (fun _ after => after = sessions \ {handle})
        sessions := by
  refine Fallible.wp_bind.mpr (Tpm.transact_wp trivial fun answer result after step same => ?_)
  have closed : after = sessions \ {handle} := by
    cases step with
    | refused failed room needless => exact absurd rfl (needless handle isOpen)
    | opened asked =>
        have code := congrArg commandCode asked
        simp only [commandCode_command] at code
        exact absurd code (by decide)
    | flushed asked =>
        have body := congrArg (List.drop 10) asked
        rw [putU32_injective body]
    | executed room opensNone flushesNone => exact absurd rfl flushesNone
  cases result <;> exact closed

/-- Asking for a policy digest leaves the open sessions as they were. -/
theorem pcrPolicyDigest_keeps
    : wp openSessions (tpm.pcrPolicyDigest bank indices).run (fun _ after => after = sessions)
        sessions := by
  refine Fallible.wp_bind.mpr (wp_mono startTrialSession_opens ?_)
  intro started middle outcome
  cases started with
  | error e => exact outcome
  | ok handle =>
      obtain ⟨free, rfl⟩ := outcome
      refine Fallible.wp_bind.mpr (Fallible.wp_lift.mpr (wp_mono buildPolicy_keeps ?_))
      rintro result _ rfl
      have isOpen : handle ∈ insert handle sessions := Set.mem_insert handle sessions
      refine Fallible.wp_bind.mpr (Fallible.wp_lift.mpr (wp_mono (flush_closes isOpen) ?_))
      rintro flushed _ rfl
      have same : insert handle sessions \ {handle} = sessions :=
        Set.insert_sdiff_self_of_notMem free
      cases flushed with
      | ok => exact same
      | error e =>
          refine Fallible.wp_bind.mpr (Fallible.wp_lift.mpr ⟨trivial, ?_⟩)
          rintro _ _ rfl
          exact same

/-- A drift check leaves the open sessions as they were. -/
theorem check_keeps {token : Tpm2Token}
    : wp openSessions (Drift.check tpm token indices bank) (fun _ after => after = sessions)
        sessions := by
  unfold Drift.check
  split
  · rfl
  · split_ifs
    · rfl
    · rfl
    · refine wp_then pcrPolicyDigest_keeps ?_
      rintro current _ rfl
      cases current with
      | error e => rfl
      | ok current =>
          dsimp only
          split_ifs <;> rfl

-----------------------------------------------------------------------------------------
-- No leak
-----------------------------------------------------------------------------------------

/-- No trial session leaks. Asking any TPM for a policy digest comes to an end. Either no session
could be opened, and nothing else was sent, or the policy was built in the session and the result
is what came of that; the one FlushContext names the session, and nothing is sent after it. So any
number of drift checks leaves the sessions that are open on a TPM in good order as they were.
-/
theorem trial_sessions_flushed {tpm : Tpm} {bank : Bank} {indices : List UInt8}
    : (∀ (σ : Type) (machine : Machine Res σ) (state : σ), ∃ result,
        ((tpm.pcrPolicyDigest bank indices).run.drive machine state).outcome = some result)
      ∧ (∀ trace result, (tpm.pcrPolicyDigest bank indices).run.Runs trace (some result)
        → (∃ e answer, result = .error e
            ∧ tpm.startTrialSession.run.Runs trace (some (.error e))
            ∧ trace = [⟨.tpm tpm.fd (command ccStartAuthSession Tpm.trialSessionBody), answer⟩])
          ∨ ∃ handle started built flushed noted,
            trace = started ++ built
              ++ ⟨.tpm tpm.fd (command ccFlushContext (putU32 handle)), flushed⟩ :: noted
            ∧ tpm.startTrialSession.run.Runs started (some (.ok handle))
            ∧ (tpm.buildPolicy handle bank indices).run.Runs built (some result)
            ∧ (∀ event ∈ started ++ built, ¬ event.op.flushes)
            ∧ ∀ event ∈ noted, ∀ fd cmd, event.op ≠ .tpm fd cmd)
      ∧ ∀ (sessions after : Set UInt32) (checks : List Trace),
        (∀ trace ∈ checks, ∃ tpm token pcrs bank drift,
          (Drift.check tpm token pcrs bank).Runs trace (some drift))
        → openSessions.Path sessions checks.flatten after
        → after = sessions := by
  refine ⟨?_, ?_, ?_⟩
  · intro σ machine state
    exact drive_completes Tpm.pcrPolicyDigest_inspecting machine state
  · intro trace result run
    rcases Tpm.pcrPolicyDigest_runs run with ⟨e, rfl, failed⟩ | opened
    · obtain ⟨answer, rfl⟩ := Tpm.startTrialSession_exchange failed
      exact Or.inl ⟨e, answer, rfl, failed, rfl⟩
    · obtain ⟨handle, started, built, flushed, noted, rfl, starting, building, logged⟩ := opened
      have startOnly : tpm.startTrialSession.run.Only fun op => ¬ op.flushes :=
        Tpm.startTrialSession_only (by simp [Op.flushes]; decide)
      have buildOnly : (tpm.buildPolicy handle bank indices).run.Only fun op => ¬ op.flushes :=
        Tpm.buildPolicy_only (by simp [Op.flushes]; decide) (by simp [Op.flushes]; decide)
      refine Or.inr ⟨handle, started, built, flushed, noted, rfl, starting, building, ?_, ?_⟩
      · intro event member
        rcases List.mem_append.mp member with first | second
        · exact startOnly.mem starting first
        · exact buildOnly.mem building second
      · intro event member fd cmd same
        obtain ⟨e, line⟩ := logged event member
        cases line.symm.trans same
  · intro sessions after checks each path
    induction checks generalizing sessions with
    | nil => exact Monitor.path_nil.mp path
    | cons trace rest ih =>
        obtain ⟨⟨tpm, token, pcrs, bank, drift, run⟩, others⟩ := List.forall_mem_cons.mp each
        rw [List.flatten_cons, Monitor.path_append] at path
        obtain ⟨middle, here, later⟩ := path
        obtain rfl := wp_post check_keeps run here
        exact ih _ others later

end Tpm2

end Tpm2Autoenroll
