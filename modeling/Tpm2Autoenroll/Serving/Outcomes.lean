import Tpm2Autoenroll.Serving.Requests
import Tpm2Autoenroll.Model.Daemon

/-! What it takes for each part of the daemon to end the way it ended: a passphrase that was
found, a header that is to be rewritten, a listener that was set up.
-/

namespace Tpm2Autoenroll

open Interaction Prog
open Token (Tpm2Token)
open Tpm2 (Tpm Bank)

-----------------------------------------------------------------------------------------
-- Devices and passphrases
-----------------------------------------------------------------------------------------

/-- A device that was opened carries the path it was opened by. -/
theorem Device.open_name {path : String} {device : Device} {trace : Trace}
    (run : (Device.open path).Runs trace (some (.ok device)))
    : device.name = path := by
  obtain ⟨opened, later, rfl, going⟩ := runs_ask.mp run
  cases opened with
  | error e => cases going
  | ok fd =>
      obtain ⟨fileType, last, rfl, judged⟩ := runs_ask.mp going
      cases fileType with
      | error e => cases judged
      | ok fileType =>
          dsimp only at judged
          split_ifs at judged
          · cases judged
          · cases judged
            rfl

/-- The memfd holds the secret it was created for. -/
theorem SecretFile.new_secret {secret : Secret} {key : SecretFile} {trace : Trace}
    (run : (SecretFile.new secret).Runs trace (some (.ok key)))
    : key.secret = secret := by
  obtain ⟨created, later, rfl, ended⟩ := runs_ask.mp run
  cases created with
  | error e => cases ended
  | ok fd =>
      cases ended
      rfl

namespace Acquire

/-- A passphrase found in a list was tried and is correct, by induction on the list. -/
theorem tryEach_found {config : Volume} {device : Device} {stopped : LogLine}
    {answered : Option LogLine} {secrets : List Secret} {trace : Trace} {secret : Secret}
    (run : (tryEach config device stopped answered secrets).Runs trace (some (.found secret)))
    : (Luks.testPassphrase device secret).Ran .correct trace := by
  induction secrets generalizing trace with
  | nil => cases run
  | cons first rest ih =>
      obtain ⟨stop, later, rfl, going⟩ := runs_ask.mp run
      refine Ran.append_left ?_ [_]
      cases stop with
      | true =>
          obtain ⟨_, _, rfl, ended⟩ := runs_ask.mp going
          cases ended
      | false =>
          obtain ⟨verdict, during, after, rfl, trial, judged⟩ := runs_bind_some.mp going
          cases verdict with
          | correct =>
              cases answered with
              | none =>
                  cases judged
                  exact trial.ran.append_right _
              | some line =>
                  obtain ⟨_, _, rfl, ended⟩ := runs_ask.mp judged
                  cases ended
                  exact trial.ran.append_right _
          | wrong => exact (ih judged).append_left during
          | unusable why =>
              obtain ⟨_, _, rfl, ended⟩ := runs_ask.mp judged
              cases ended

/-- A passphrase found by prompting was tried and is correct, by induction on the attempts. -/
theorem tryPrompts_found {config : Volume} {device : Device} {attempts : List Nat}
    {trace : Trace} {secret : Secret}
    (run : (tryPrompts config device attempts).Runs trace (some (.found secret)))
    : (Luks.testPassphrase device secret).Ran .correct trace := by
  induction attempts generalizing trace with
  | nil => cases run
  | cons attempt more ih =>
      obtain ⟨stop, later, rfl, going⟩ := runs_ask.mp run
      refine Ran.append_left ?_ [_]
      cases stop with
      | true =>
          obtain ⟨_, _, rfl, ended⟩ := runs_ask.mp going
          cases ended
      | false =>
          obtain ⟨offered, prompted, later, rfl, _, answered⟩ := runs_bind_some.mp going
          refine Ran.append_left ?_ prompted
          cases offered with
          | error e =>
              obtain ⟨_, _, rfl, ended⟩ := runs_ask.mp answered
              cases ended
          | ok candidates =>
              obtain ⟨trials, tried, after, rfl, inner, judged⟩ := runs_bind_some.mp answered
              cases trials with
              | exhausted =>
                  obtain ⟨_, _, rfl, again⟩ := runs_ask.mp judged
                  exact ((ih again).append_left [_]).append_left tried
              | found other =>
                  cases judged
                  exact (tryEach_found inner).append_right _
              | abandoned => cases judged

end Acquire

/-- The passphrase `acquire` returns was tried against the device and is correct. -/
theorem acquire_found {config : Volume} {device : Device} {cache after : Cache}
    {trace : Trace} {secret : Secret}
    (run : (acquire config device cache).Runs trace (some (some secret, after)))
    : (Luks.testPassphrase device secret).Ran .correct trace := by
  have searched {trace : Trace}
      (run : (Acquire.search config device cache).Runs trace (some (some secret, after)))
      : (Luks.testPassphrase device secret).Ran .correct trace := by
    obtain ⟨trials, first, second, rfl, cached, judged⟩ := runs_bind_some.mp run
    cases trials with
    | found other =>
        cases judged
        exact (Acquire.tryEach_found cached).append_right _
    | abandoned => cases judged
    | exhausted =>
        obtain ⟨trials, third, fourth, rfl, prompted, ended⟩ := runs_bind_some.mp judged
        refine Ran.append_left ?_ first
        cases trials with
        | found other =>
            cases ended
            exact (Acquire.tryPrompts_found prompted).append_right _
        | abandoned | exhausted => cases ended
  unfold acquire at run
  split_ifs at run
  · obtain ⟨_, later, rfl, trying⟩ := runs_ask.mp run
    exact (searched trying).append_left [_]
  · exact searched run

-----------------------------------------------------------------------------------------
-- The TPM
-----------------------------------------------------------------------------------------

namespace Tpm2.Tpm

open Fallible

/-- A result without a request leaves no trace. -/
theorem runs_ofResult {α : Type} {result : Except String α} {trace : Trace} {value : α}
    : (ofResult result).run.Runs trace (some (.ok value)) ↔ trace = [] ∧ result = .ok value := by
  rw [show (ofResult result).run = pure result from rfl, runs_pure_some, eq_comm (a := result)]

/-- A command that succeeded is one exchange with a good response. -/
theorem transact_ok {tpm : Tpm} {cc : UInt32} {body payload : Text.Bytes} {trace : Trace}
    (run : (tpm.transact cc body).run.Runs trace (some (.ok payload)))
    : ∃ buf, trace = [⟨.tpm tpm.fd (command cc body), .response buf⟩]
      ∧ responsePayload buf = .ok payload := by
  obtain ⟨answer, first, second, rfl, asked, judged⟩ := runs_lift_bind.mp run
  rw [runs_ask_last.mp asked]
  cases answer with
  | response buf =>
      obtain ⟨rfl, good⟩ := runs_ofResult.mp judged
      refine ⟨buf, rfl, ?_⟩
      cases read : responsePayload buf with
      | error e => simp [read, Except.mapError] at good
      | ok other =>
          rw [read] at good
          cases good
          rfl
  | writeFailed | timeout | pollFailed | readFailed => cases judged

/-- One exchange with a good response is a command that succeeded. -/
theorem transact_runs {tpm : Tpm} {cc : UInt32} {body buf payload : Text.Bytes}
    (good : responsePayload buf = .ok payload)
    : (tpm.transact cc body).run.Runs [⟨.tpm tpm.fd (command cc body), .response buf⟩]
        (some (.ok payload)) := by
  have judged : (ofResult ((responsePayload buf).mapError
      fun e => s!"command {Text.hexWord cc}: {e}")).run.Runs [] (some (.ok payload)) :=
    runs_ofResult.mpr ⟨rfl, by rw [good]; rfl⟩
  exact runs_bind_ok.mpr ⟨.response buf, [⟨.tpm tpm.fd (command cc body), .response buf⟩], [], rfl,
    runs_lift.mpr ⟨_, rfl, runs_ask_last.mpr rfl⟩, judged⟩

/-- A command is one exchange, however it ends. -/
theorem transact_exchange {tpm : Tpm} {cc : UInt32} {body : Text.Bytes} {trace : Trace}
    {result : Except String Text.Bytes}
    (run : (tpm.transact cc body).run.Runs trace (some result))
    : ∃ answer, trace = [⟨.tpm tpm.fd (command cc body), answer⟩] := by
  obtain ⟨answer, first, second, rfl, asked, judged⟩ := runs_lift_bind.mp run
  obtain rfl := runs_ask_last.mp asked
  have silent : second = [] := by
    cases answer <;> exact (runs_pure_some.mp judged).1
  exact ⟨answer, by rw [silent, List.append_nil]⟩

/-- Flushing a session is one exchange, however it ends. -/
theorem flush_exchange {tpm : Tpm} {handle : UInt32} {trace : Trace} {result : Except String Unit}
    (run : (tpm.flush handle).run.Runs trace (some result))
    : ∃ answer, trace = [⟨.tpm tpm.fd (command ccFlushContext (putU32 handle)), answer⟩] := by
  rcases runs_bind.mp run with ⟨_, _, failed⟩ | ⟨_, first, second, rfl, flushed, returned⟩
  · exact transact_exchange failed
  · obtain ⟨rfl, _⟩ := runs_pure_some.mp returned
    rw [List.append_nil]
    exact transact_exchange flushed

/-- Opening a session is one exchange, however it ends. -/
theorem startTrialSession_exchange {tpm : Tpm} {trace : Trace} {result : Except String UInt32}
    (run : tpm.startTrialSession.run.Runs trace (some result))
    : ∃ answer, trace = [⟨.tpm tpm.fd (command ccStartAuthSession trialSessionBody), answer⟩] := by
  rcases runs_bind.mp run with ⟨_, _, failed⟩ | ⟨_, first, second, rfl, started, parsed⟩
  · exact transact_exchange failed
  · obtain ⟨rfl, _⟩ := runs_pure_some.mp parsed
    rw [List.append_nil]
    exact transact_exchange started

/-- Asking for a policy digest ends when no session could be opened, or it ends with what the
policy in the session came to, after one FlushContext for the session.
-/
theorem pcrPolicyDigest_runs {tpm : Tpm} {bank : Bank} {indices : List UInt8} {trace : Trace}
    {result : Except String Text.Bytes}
    (run : (tpm.pcrPolicyDigest bank indices).run.Runs trace (some result))
    : (∃ e, result = .error e ∧ tpm.startTrialSession.run.Runs trace (some (.error e)))
      ∨ ∃ session started built flushed noted,
          trace = started ++ built
            ++ ⟨.tpm tpm.fd (command ccFlushContext (putU32 session)), flushed⟩ :: noted
          ∧ tpm.startTrialSession.run.Runs started (some (.ok session))
          ∧ (tpm.buildPolicy session bank indices).run.Runs built (some result)
          ∧ ∀ event ∈ noted, ∃ e, event.op = .log (.couldNotFlush session e) := by
  refine (runs_bind.mp run).imp id ?_
  rintro ⟨session, started, second, rfl, starting, building⟩
  obtain ⟨came, built, third, rfl, buildRun, flushing⟩ := runs_lift_bind.mp building
  obtain ⟨flushed, released, noted, rfl, releasing, reporting⟩ := runs_lift_bind.mp flushing
  obtain ⟨answer, rfl⟩ := flush_exchange releasing
  have closing : result = came
      ∧ ∀ event ∈ noted, ∃ e, event.op = .log (.couldNotFlush session e) := by
    cases flushed with
    | ok =>
        obtain ⟨rfl, same⟩ := runs_pure_some.mp reporting
        exact ⟨same, fun _ member => nomatch member⟩
    | error e =>
        obtain ⟨_, logged, last, rfl, logging, returning⟩ := runs_lift_bind.mp reporting
        obtain ⟨rfl, same⟩ := runs_pure_some.mp returning
        refine ⟨same, fun event member => ⟨e, ?_⟩⟩
        rw [runs_ask_last.mp logging, List.append_nil] at member
        rw [List.mem_singleton.mp member]
  obtain ⟨rfl, logged⟩ := closing
  exact ⟨session, started, built, answer, noted, by simp, starting, buildRun, logged⟩

/-- How a policy digest came about: a trial session, PolicyPCR, and the digest read back; the
session was released after that.
-/
theorem pcrPolicyDigest_ok {tpm : Tpm} {bank : Bank} {indices : List UInt8}
    {digest : Text.Bytes} {trace : Trace}
    (run : (tpm.pcrPolicyDigest bank indices).run.Runs trace (some (.ok digest)))
    : ∃ session started released extended reported none payload,
        trace = started
          ++ [⟨.tpm tpm.fd (command ccPolicyPcr (policyPcrBody session bank indices)),
              .response extended⟩]
          ++ [⟨.tpm tpm.fd (command ccPolicyGetDigest (putU32 session)), .response reported⟩]
          ++ released
        ∧ tpm.startTrialSession.run.Runs started (some (.ok session))
        ∧ responsePayload extended = .ok none
        ∧ responsePayload reported = .ok payload
        ∧ parseDigest payload = .ok digest
        ∧ ∀ event ∈ released,
          event.op = .tpm tpm.fd (command ccFlushContext (putU32 session))
          ∨ ∃ e, event.op = .log (.couldNotFlush session e) := by
  rcases pcrPolicyDigest_runs run with ⟨_, failed, _⟩ | opened
  · cases failed
  obtain ⟨session, started, built, flushed, noted, rfl, starting, building, logged⟩ := opened
  obtain ⟨none, policy, rest, rfl, policyRun, digestRun⟩ := runs_bind_ok.mp building
  obtain ⟨extended, rfl, extendedOk⟩ := transact_ok policyRun
  obtain ⟨payload, read, final, rfl, readRun, parsed⟩ := runs_bind_ok.mp digestRun
  obtain ⟨reported, rfl, reportedOk⟩ := transact_ok readRun
  obtain ⟨rfl, digestOk⟩ := runs_ofResult.mp parsed
  refine ⟨session, started,
    ⟨.tpm tpm.fd (command ccFlushContext (putU32 session)), flushed⟩ :: noted, extended, reported,
    none, payload, by simp, starting, extendedOk, reportedOk, digestOk, ?_⟩
  intro event member
  rcases List.mem_cons.mp member with rfl | later
  · exact Or.inl rfl
  · exact Or.inr (logged event later)

end Tpm2.Tpm

-----------------------------------------------------------------------------------------
-- Preflight
-----------------------------------------------------------------------------------------

/-- A drift was found by comparing a digest the TPM computed, for a token that a literal
PCR policy describes.
-/
theorem Drift.check_drifted {tpm : Tpm} {token : Tpm2Token} {pcrs : List UInt8} {bank : Bank}
    {enrolled current : Text.Bytes} {trace : Trace}
    (run : (Drift.check tpm token pcrs bank).Runs trace (some (.drifted enrolled current)))
    : (tpm.pcrPolicyDigest bank pcrs).run.Runs trace (some (.ok current))
      ∧ enrolled = token.policyHash
      ∧ current ≠ token.policyHash
      ∧ token.pin = false
      ∧ token.advanced = none := by
  unfold Drift.check at run
  split at run
  · cases run
  next literal =>
    split_ifs at run with pin none
    · cases run
    · cases run
    · obtain ⟨result, first, second, rfl, computed, judged⟩ := runs_bind_some.mp run
      cases result with
      | error e => cases judged
      | ok digest =>
          dsimp only at judged
          split_ifs at judged with same
          · cases judged
          · cases judged
            rw [List.append_nil]
            exact ⟨computed, rfl, same, by simpa using pin, by
              cases found : token.advanced with
              | none => rfl
              | some kind => exact absurd found (literal kind)⟩

namespace Preflight

/-- What a preflight has established when it decides to re-enroll. -/
structure Passed (fromStr : Json.Reader) (config : Volume) (device : Device) (tpm : Tpm)
    (token : Tpm2Token) (digest : Text.Bytes) (trace : Trace) : Prop where
  header : (Token.read fromStr device).Ran (.ok [token]) trace
  lockout : ∃ l, tpm.lockout.run.Ran (.ok l) trace ∧ l.inLockout = false
  noPin : token.pin = false
  literal : token.advanced = none
  samePcrs : token.pcrs = config.pcrs.list
  sameBank : token.bank.getD "sha256" = config.bank.name
  noHostPolicy : ∀ path ∈ publicKeyPaths ++ pcrlockPaths,
    (⟨.symlinkMetadata path, false⟩ : Event) ∈ trace
  measured : (tpm.pcrPolicyDigest config.bank config.pcrs.list).run.Ran (.ok digest) trace
  stale : digest ≠ token.policyHash

theorem Passed.append {fromStr : Json.Reader} {config : Volume} {device : Device} {tpm : Tpm}
    {token : Tpm2Token} {digest : Text.Bytes} {trace : Trace}
    (passed : Passed fromStr config device tpm token digest trace) (later : Trace)
    : Passed fromStr config device tpm token digest (trace ++ later) :=
  { passed with
    header := passed.header.append_right later
    lockout := by
      obtain ⟨l, answered, unlocked⟩ := passed.lockout
      exact ⟨l, answered.append_right later, unlocked⟩
    noHostPolicy := fun path member =>
      List.mem_append_left _ (passed.noHostPolicy path member)
    measured := passed.measured.append_right later
  }

theorem Passed.append_left {fromStr : Json.Reader} {config : Volume} {device : Device}
    {tpm : Tpm} {token : Tpm2Token} {digest : Text.Bytes} {trace : Trace}
    (passed : Passed fromStr config device tpm token digest trace) (earlier : Trace)
    : Passed fromStr config device tpm token digest (earlier ++ trace) :=
  { passed with
    header := passed.header.append_left earlier
    lockout := by
      obtain ⟨l, answered, unlocked⟩ := passed.lockout
      exact ⟨l, answered.append_left earlier, unlocked⟩
    noHostPolicy := fun path member =>
      List.mem_append_right _ (passed.noHostPolicy path member)
    measured := passed.measured.append_left earlier
  }

/-- When no host policy is found every path was looked up and is absent, by induction on
the paths.
-/
theorem hostPolicy_none {paths : List String} {trace : Trace}
    (run : (hostPolicy paths).Runs trace (some none))
    : ∀ path ∈ paths, (⟨.symlinkMetadata path, false⟩ : Event) ∈ trace := by
  induction paths generalizing trace with
  | nil =>
      intro path member
      cases member
  | cons first rest ih =>
      obtain ⟨found, later, rfl, going⟩ := runs_ask.mp run
      cases found with
      | true => cases going
      | false =>
          intro path member
          rcases List.mem_cons.mp member with rfl | member
          · exact List.mem_cons_self
          · exact List.mem_cons_of_mem _ (ih going path member)

/-- The ordinary case decides to re-enroll only when everything about the token and the
machine has been found right.
-/
theorem drifted_reenroll {token : Tpm2Token} {config : Volume} {tpm : Tpm} {plan : Plan}
    {trace : Trace}
    (run : (drifted token config tpm).Runs trace (some (.reenroll plan)))
    : plan = ⟨some token.index, token.policyHash, plan.state⟩
      ∧ token.pin = false
      ∧ token.advanced = none
      ∧ sameSelection token config = .ok ()
      ∧ (∀ path ∈ publicKeyPaths ++ pcrlockPaths,
        (⟨.symlinkMetadata path, false⟩ : Event) ∈ trace)
      ∧ (tpm.pcrPolicyDigest config.bank config.pcrs.list).run.Ended (.ok plan.state) trace
      ∧ plan.state ≠ token.policyHash := by
  unfold drifted at run
  split at run
  · cases run
  · split at run
    · cases run
    next same =>
      obtain ⟨refusal, first, second, rfl, looked, judged⟩ := runs_bind_some.mp run
      cases refusal with
      | some why => cases judged
      | none =>
          obtain ⟨drift, third, fourth, rfl, compared, ended⟩ := runs_bind_some.mp judged
          cases drift with
          | unchanged | unknown => cases ended
          | drifted enrolled current =>
              cases ended
              obtain ⟨computed, rfl, stale, pin, literal⟩ := Drift.check_drifted compared
              refine ⟨rfl, pin, literal, same, ?_, ?_, stale⟩
              · intro path member
                exact List.mem_append_left _ (hostPolicy_none looked path member)
              · rw [List.append_nil]
                exact computed.ended.append_left first

/-- A preflight that decides to re-enroll has established all of `Passed`. -/
theorem check_reenroll {fromStr : Json.Reader} {volume : String} {config : Volume}
    {device : Device} {tpm : Tpm} {plan : Plan} {trace : Trace}
    (run : (check fromStr volume config device tpm).Runs trace (some (.reenroll plan)))
    : ∃ token, plan = ⟨some token.index, token.policyHash, plan.state⟩
      ∧ Passed fromStr config device tpm token plan.state trace
      ∧ (tpm.pcrPolicyDigest config.bank config.pcrs.list).run.Ended (.ok plan.state)
        trace := by
  obtain ⟨tokens, reading, second, rfl, read, judged⟩ := runs_bind_some.mp run
  cases tokens with
  | error e => cases judged
  | ok tokens =>
      obtain ⟨answer, asking, third, rfl, asked, going⟩ := runs_bind_some.mp judged
      cases answer with
      | error e => cases going
      | ok l =>
          dsimp only at going
          split_ifs at going with locked
          · cases going
          · obtain ⟨_, last, rfl, decided⟩ := runs_ask.mp going
            match tokens with
            | [] => cases decided
            | _ :: _ :: _ => cases decided
            | [token] =>
                obtain ⟨shape, pin, literal, same, hosts, computed, stale⟩ :=
                  drifted_reenroll decided
                obtain ⟨samePcrs, sameBank⟩ := sameSelection_ok.mp same
                refine ⟨token, shape, ?_, ((computed.append_left [_]).append_left _).append_left _⟩
                exact {
                  header := read.ran.append_right _
                  lockout := ⟨l, (asked.ran.append_right _).append_left _, by simpa using locked⟩
                  noPin := pin
                  literal
                  samePcrs
                  sameBank
                  noHostPolicy := fun path member => by simp [hosts path member]
                  measured := (((computed.append_left [_]).append_left _).append_left _).ran
                  stale
                }

end Preflight

/-- An enrollment that is reported to have succeeded is one that systemd-cryptenroll reported to
have succeeded.
-/
theorem Enroll.run_ok {device : Device} {tpm2Device : String} {pcrs : List UInt8} {bank : Bank}
    {secret : Secret} {trace : Trace}
    (run : (run device tpm2Device pcrs bank secret).Runs trace (some (.ok ())))
    : ∃ created key out,
        trace = created ++ [⟨.child (.cryptenroll device tpm2Device pcrs bank key), .ok out⟩]
        ∧ out.status.success = true := by
  unfold Enroll.run at run
  split_ifs at run
  · cases run
  · obtain ⟨key, created, rest, rfl, _, enrolling⟩ := runs_bind_some.mp run
    cases key with
    | error e => cases enrolling
    | ok key =>
        obtain ⟨answer, later, rfl, judged⟩ := runs_ask.mp enrolling
        cases answer with
        | error e => cases judged
        | ok out =>
            dsimp only at judged
            split_ifs at judged with succeeded
            · cases judged
              exact ⟨created, key, out, rfl, succeeded⟩
            · cases judged

-----------------------------------------------------------------------------------------
-- Listeners
-----------------------------------------------------------------------------------------

/-- A listener stands for one of the volumes and is bound at that volume's path. -/
def Listener.Bound (dir : String) (volumes : List Volume) (trace : Trace) (l : Listener)
    : Prop :=
  l.volume ∈ volumes
  ∧ l.path = Sockets.path dir l.volume.name
  ∧ (⟨.bind l.fd l.path, .ok ()⟩ : Event) ∈ trace

theorem Listener.Bound.mono {dir : String} {volumes more : List Volume}
    {trace longer : Trace} {l : Listener} (bound : l.Bound dir volumes trace)
    (volumesIn : volumes ⊆ more) (traceIn : trace ⊆ longer)
    : l.Bound dir more longer :=
  ⟨volumesIn bound.1, bound.2.1, traceIn bound.2.2⟩

/-- A socket that was set up was bound. -/
theorem Sockets.bindAndListen_ok {fd opened : Fd} {path : String} {trace : Trace}
    (run : (bindAndListen fd path).Runs trace (some (.ok opened)))
    : opened = fd ∧ (⟨.bind fd path, .ok ()⟩ : Event) ∈ trace := by
  obtain ⟨bound, later, rfl, binding⟩ := runs_ask.mp run
  cases bound with
  | error e =>
      obtain ⟨_, _, rfl, ended⟩ := runs_ask.mp binding
      cases ended
  | ok =>
      refine ⟨?_, List.mem_cons_self⟩
      obtain ⟨moded, last, rfl, moding⟩ := runs_ask.mp binding
      cases moded with
      | error e =>
          obtain ⟨_, _, rfl, ended⟩ := runs_ask.mp moding
          cases ended
      | ok =>
          obtain ⟨listened, final, rfl, listening⟩ := runs_ask.mp moding
          cases listened with
          | error e =>
              obtain ⟨_, _, rfl, ended⟩ := runs_ask.mp listening
              cases ended
          | ok =>
              cases listening
              rfl

/-- Every listener that is set up is bound at its path. -/
theorem Sockets.bind_ok {path : String} {fd : Fd} {trace : Trace}
    (run : (bind path).Runs trace (some (.ok fd)))
    : (⟨.bind fd path, .ok ()⟩ : Event) ∈ trace := by
  have created {trace : Trace} (run : (create path).Runs trace (some (.ok fd)))
      : (⟨.bind fd path, .ok ()⟩ : Event) ∈ trace := by
    obtain ⟨addressed, later, rfl, addressing⟩ := runs_ask.mp run
    cases addressed with
    | error e => cases addressing
    | ok =>
        obtain ⟨made, last, rfl, making⟩ := runs_ask.mp addressing
        cases made with
        | error e => cases making
        | ok other =>
            obtain ⟨rfl, member⟩ := bindAndListen_ok making
            exact List.mem_cons_of_mem _ (List.mem_cons_of_mem _ member)
  obtain ⟨cleared, first, second, rfl, _, going⟩ := runs_bind_some.mp run
  refine List.mem_append_right _ ?_
  match cleared with
  | .error e => cases going
  | .ok .kept => cases going
  | .ok .absent | .ok .removed => exact created going

/-- Every listener of the loop is bound for its volume, by induction on the volumes. -/
theorem listenAll_bound {dir : String} {volumes : List Volume} {trace : Trace}
    {listeners : List Listener}
    (run : (listenAll dir volumes).Runs trace (some listeners))
    : ∀ l ∈ listeners, l.Bound dir volumes trace := by
  induction volumes generalizing trace listeners with
  | nil =>
      cases run
      intro l member
      cases member
  | cons volume rest ih =>
      obtain ⟨bound, first, second, rfl, binding, going⟩ := runs_bind_some.mp run
      cases bound with
      | error e =>
          obtain ⟨_, later, rfl, others⟩ := runs_ask.mp going
          intro l member
          refine (ih others l member).mono (List.subset_cons_self _ _) ?_
          exact List.Subset.trans (List.subset_cons_self _ _) (List.subset_append_right _ _)
      | ok fd =>
          obtain ⟨others, later, last, rfl, inner, ended⟩ := runs_bind_some.mp going
          cases ended
          intro l member
          rcases List.mem_cons.mp member with rfl | member
          · refine ⟨List.mem_cons_self, rfl, ?_⟩
            exact List.mem_append_left _ (Sockets.bind_ok binding)
          · refine (ih inner l member).mono (List.subset_cons_self _ _) ?_
            exact List.Subset.trans (List.subset_append_left _ _) (List.subset_append_right _ _)

/-- `listen` returns listeners that are bound for their volumes. -/
theorem listen_bound {dir : String} {volumes : List Volume} {trace : Trace}
    {listeners : List Listener}
    (run : (listen dir volumes).Runs trace (some (.ok listeners)))
    : ∀ l ∈ listeners, l.Bound dir volumes trace := by
  obtain ⟨ensured, first, second, rfl, _, going⟩ := runs_bind_some.mp run
  cases ensured with
  | error e => cases going
  | ok =>
      obtain ⟨found, third, last, rfl, inner, ended⟩ := runs_bind_some.mp going
      split_ifs at ended
      · cases ended
      · cases ended
        intro l member
        refine (listenAll_bound inner l member).mono (List.Subset.refl _) ?_
        exact List.Subset.trans (List.subset_append_left _ _) (List.subset_append_right _ _)

/-- The volumes that `load` returns are those of the file it read. -/
theorem Config.load_ok {fromStr : Json.Reader} {path : String} {volumes : List Volume}
    {trace : Trace} (run : (load fromStr path).Runs trace (some (.ok volumes)))
    : ∃ text loaded, (⟨.readFile path, .ok text⟩ : Event) ∈ trace
      ∧ parse fromStr text = .ok loaded
      ∧ volumes = loaded.volumes := by
  obtain ⟨loaded, first, second, rfl, reading, going⟩ := runs_bind_some.mp run
  cases loaded with
  | error e => cases going
  | ok loaded =>
      obtain ⟨_, _, _, rfl, _, ended⟩ := runs_bind_some.mp going
      cases ended
      obtain ⟨text, later, rfl, parsing⟩ := runs_ask.mp reading
      cases text with
      | error e => cases parsing
      | ok text =>
          obtain ⟨rfl, same⟩ := runs_pure_some.mp parsing
          refine ⟨text, loaded, by simp, ?_, rfl⟩
          cases parsed : parse fromStr text with
          | error e => simp [parsed, Except.mapError] at same
          | ok other =>
              rw [parsed] at same
              cases same
              rfl

/-- The daemon serves only volumes of the configuration it read, each on the path that
belongs to it.
-/
theorem start_listeners {fromStr : Json.Reader} {config dir : String} {trace : Trace}
    {listeners : List Listener}
    (run : (start fromStr config dir).Runs trace (some (.ok listeners)))
    : ∃ text loaded, (⟨.readFile config, .ok text⟩ : Event) ∈ trace
      ∧ Config.parse fromStr text = .ok loaded
      ∧ ∀ l ∈ listeners, l.Bound dir loaded.volumes trace := by
  obtain ⟨_, _, rfl, unlocked⟩ := runs_ask.mp run
  obtain ⟨_, _, rfl, dumpable⟩ := runs_ask.mp unlocked
  obtain ⟨_, _, rfl, uncaught⟩ := runs_ask.mp dumpable
  obtain ⟨volumes, loading, rest, rfl, load, going⟩ := runs_bind_some.mp uncaught
  cases volumes with
  | error e =>
      obtain ⟨_, _, rfl, ended⟩ := runs_ask.mp going
      cases ended
  | ok volumes =>
      obtain ⟨text, loaded, read, parsed, rfl⟩ := Config.load_ok load
      refine ⟨text, loaded, by simp [read], parsed, ?_⟩
      dsimp only at going
      split_ifs at going with empty
      · obtain ⟨_, _, rfl, notifying⟩ := runs_ask.mp going
        obtain ⟨_, _, rfl, ended⟩ := runs_ask.mp notifying
        cases ended
      · obtain ⟨result, listening, last, rfl, listened, ready⟩ := runs_bind_some.mp going
        cases result with
        | error e =>
            obtain ⟨_, _, rfl, ended⟩ := runs_ask.mp ready
            cases ended
        | ok found =>
            obtain ⟨_, _, _, rfl, _, notifying⟩ := runs_bind_some.mp ready
            obtain ⟨_, _, rfl, ended⟩ := runs_ask.mp notifying
            cases ended
            intro l member
            refine (listen_bound listened l member).mono (List.Subset.refl _) ?_
            intro event inside
            simp [inside]

end Tpm2Autoenroll
