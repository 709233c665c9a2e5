import Tpm2Autoenroll.Serving.Rules
import Tpm2Autoenroll.Surroundings.World

/-! What each look at the TPM and at the header tells about the surroundings, whatever others do
between any two requests.
-/

namespace Tpm2Autoenroll

open Interaction Prog Monitor
open Text (Bytes)
open Token (Tpm2Token)
open Tpm2 (Bank Tpm)

namespace Watched

variable {ρ δ : Type} {platform : Platform ρ δ} {fromStr : Json.Reader}
  {s middle after : Watched ρ δ}

-----------------------------------------------------------------------------------------
-- While nothing is enrolled
-----------------------------------------------------------------------------------------

/-- Requests that neither open a connection nor run systemd-cryptenroll. -/
@[simp]
def keeping : Op → Prop
  | .accept _ | .child (.cryptenroll _ _ _ _ _) => False
  | _ => True

/-- From one state to a later one of the same connection between which nothing was enrolled:
what nobody touched until then was untouched before, and is as it was.
-/
structure Later (s after : Watched ρ δ) : Prop where
  here : ∃ more, after.here = s.here ++ more
  intact : after.intact → s.intact ∧ after.world.headers = s.world.headers
  settled : ∀ {disk pcrs bank}, after.settled disk pcrs bank
    → s.settled disk pcrs bank
      ∧ after.world.values = s.world.values
      ∧ after.world.headers disk = s.world.headers disk

theorem Later.refl : Later s s :=
  ⟨⟨[], by simp⟩, fun held => ⟨held, rfl⟩, fun held => ⟨held, rfl, rfl⟩⟩

theorem Later.trans (first : Later s middle) (second : Later middle after) : Later s after := by
  obtain ⟨more, extended⟩ := first.here
  obtain ⟨further, continued⟩ := second.here
  refine ⟨⟨more ++ further, by rw [continued, extended, List.append_assoc]⟩, ?_, ?_⟩
  · intro held
    have ⟨between, same⟩ := second.intact held
    have ⟨before, earlier⟩ := first.intact between
    exact ⟨before, same.trans earlier⟩
  · intro disk pcrs bank held
    have ⟨between, values, header⟩ := second.settled held
    have ⟨before, earlierValues, earlierHeader⟩ := first.settled between
    exact ⟨before, values.trans earlierValues, header.trans earlierHeader⟩

theorem enrolled_of_keeping {event : Event} (keeps : keeping event.op) : enrolled event = none := by
  obtain ⟨op, answer⟩ := event
  cases op with
  | child process => cases process <;> first | rfl | exact keeps.elim
  | _ => rfl

theorem opens_of_keeping {event : Event} (keeps : keeping event.op) : opens event = false := by
  obtain ⟨op, answer⟩ := event
  cases op with
  | accept fd => exact keeps.elim
  | _ => rfl

/-- A step on which nothing is enrolled. -/
theorem later_next {event : Event} {world : World ρ δ} (keeps : keeping event.op)
    : Later s (s.next platform fromStr event world) := by
  have nothing := enrolled_of_keeping keeps
  have inside := opens_of_keeping keeps
  refine ⟨⟨[event], by simp [next, inside]⟩, ?_, ?_⟩
  · intro ⟨open_or_held, undisturbed⟩
    refine ⟨by simpa [inside] using open_or_held, funext fun disk => ?_⟩
    simpa [Undisturbed, nothing] using undisturbed disk
  · intro disk pcrs bank ⟨values, undisturbed, held⟩
    simp only [nothing] at held
    exact ⟨held, values, by simpa [Undisturbed, nothing] using undisturbed⟩

-----------------------------------------------------------------------------------------
-- While nothing is learned
-----------------------------------------------------------------------------------------

/-- Requests whose answers tell nothing about a repair and that are never restricted. -/
@[simp]
def mute : Op → Prop
  | .accept _ | .close _ | .tpm _ _ => False
  | .child (.luksDump _) | .child (.askConsent _ _ _ _) | .child (.cryptenroll _ _ _ _ _)
  | .child (.testUnseal _ _) => False
  | .log (.verifiedByUnsealing _ _) | .log (.verifiedByPolicy _ _) => False
  | _ => True

theorem keeping_of_mute {op : Op} (silent : mute op) : keeping op := by
  cases op with
  | accept fd => exact silent.elim
  | child process => cases process <;> trivial
  | _ => trivial

theorem mute_of_routine {line : LogLine} (routine : line.routine) : mute (.log line) := by
  cases line <;> trivial

theorem allows_of_mute {op : Op} (silent : mute op) : allows platform fromStr s op := by
  cases op with
  | close fd => exact silent.elim
  | log line => cases line <;> trivial
  | child process => cases process <;> trivial
  | _ => trivial

theorem repair_next {event : Event} {world : World ρ δ} (silent : mute event.op)
    : (s.next platform fromStr event world).repair = s.repair := by
  obtain ⟨op, answer⟩ := event
  cases op with
  | accept fd => exact silent.elim
  | tpm fd cmd => exact silent.elim
  | log line =>
      have quiet : line.confirms = false := by
        cases line <;> first | rfl | exact silent.elim
      simp [next, Repair.observe, quiet]
  | child process => cases process <;> first | rfl | exact silent.elim
  | _ => rfl

/-- A later state of the same connection in which no more is known about the repair. -/
structure Still (s after : Watched ρ δ) : Prop extends Later s after where
  repair : after.repair = s.repair

theorem Still.refl : Still s s := ⟨.refl, rfl⟩

theorem still_next {event : Event} {world : World ρ δ} (silent : mute event.op)
    : Still s (s.next platform fromStr event world) :=
  ⟨later_next (keeping_of_mute silent), repair_next silent⟩

theorem Still.trans (first : Still s middle) (second : Still middle after) : Still s after :=
  ⟨first.toLater.trans second.toLater, second.repair.trans first.repair⟩

/-- A part of the daemon that learns nothing about a repair. -/
theorem still_wp {α : Type} {left : Prop} {program : Sys α} (only : program.Only mute left)
    : wp (watch platform fromStr) program (fun _ after => Still s after) s := by
  refine wp_invariant only (fun _ _ _ => trivial) (fun _ _ silent _ => allows_of_mute silent) ?_
    Still.refl
  intro state op answer after silent still step
  obtain ⟨world, _, rfl⟩ := step
  exact still.trans (still_next silent)

theorem mute_of_acquiring {op : Op} (acquiring : op.acquiring) : mute op := by
  unfold Op.acquiring at acquiring
  split at acquiring
  all_goals first | exact acquiring.elim | trivial | exact mute_of_routine acquiring

theorem mute_of_replying {op : Op} (replying : op.replying) : mute op := by
  unfold Op.replying at replying
  split at replying
  all_goals first | exact replying.elim | trivial | exact mute_of_routine replying

theorem mute_of_identifying {op : Op} (identifying : op.identifying) : mute op := by
  unfold Op.identifying at identifying
  split at identifying
  all_goals first | exact identifying.elim | trivial | exact mute_of_routine identifying

-----------------------------------------------------------------------------------------
-- Asking the TPM
-----------------------------------------------------------------------------------------

/-- A later state of the same connection in which only more is known about the TPM. -/
structure Consulted (s after : Watched ρ δ) : Prop extends Later s after where
  repair : after.repair = { s.repair with tpm := after.repair.tpm }
  responsive : after.repair.tpm.responsive = true → s.repair.tpm.responsive = true

theorem Still.consulted (still : Still s after) : Consulted s after := by
  refine ⟨still.toLater, ?_, ?_⟩
  · rw [still.repair]
  · rw [still.repair]
    exact id

theorem Consulted.trans (first : Consulted s middle) (second : Consulted middle after)
    : Consulted s after := by
  refine ⟨first.toLater.trans second.toLater, ?_, first.responsive ∘ second.responsive⟩
  rw [second.repair, first.repair]

theorem consulted_next {fd : Fd} {cmd : Bytes} {answer : TpmAnswer} {world : World ρ δ}
    : Consulted s (s.next platform fromStr ⟨.tpm fd cmd, answer⟩ world) := by
  refine ⟨later_next trivial, rfl, ?_⟩
  simp only [next, Repair.observe, TpmView.observe]
  split
  · exact nofun
  · exact fun both => (Bool.and_eq_true_iff.mp both).1

/-- An answer without a payload is of no use. -/
theorem unresponsive_of_none {fd : Fd} {cmd : Bytes} {answer : TpmAnswer} {world : World ρ δ}
    (nothing : answer.payload = none)
    : (s.next platform fromStr ⟨.tpm fd cmd, answer⟩ world).repair.tpm.responsive = false := by
  simp only [next, Repair.observe, TpmView.observe, nothing]

/-- Neither is one that cannot be read. -/
theorem unresponsive_of_useless {fd : Fd} {cmd payload : Bytes} {answer : TpmAnswer}
    {world : World ρ δ} (said : answer.payload = some payload)
    (useless : TpmView.useful cmd payload = false)
    : (s.next platform fromStr ⟨.tpm fd cmd, answer⟩ world).repair.tpm.responsive = false := by
  simp only [next, Repair.observe, TpmView.observe, said, useless, Bool.and_false]

/-- Only PolicyPCR measures. -/
theorem measured_next {fd : Fd} {cc : UInt32} {body : Bytes} {answer : TpmAnswer}
    {world : World ρ δ} (other : Tpm2.putU32 cc ≠ Tpm2.putU32 Tpm2.ccPolicyPcr)
    : (s.next platform fromStr ⟨.tpm fd (Tpm2.command cc body), answer⟩
        world).repair.tpm.measured
      = s.repair.tpm.measured := by
  simp only [next, Repair.observe, TpmView.observe]
  split
  · rfl
  · exact if_neg other

/-- A command succeeds with the payload of its answer. -/
theorem transact_wp {tpm : Tpm} {cc : UInt32} {body : Bytes}
    {post : Except String Bytes → Watched ρ δ → Prop}
    (completed : ∀ answer world result,
      s.world.Step platform fromStr ⟨.tpm tpm.fd (Tpm2.command cc body), answer⟩ world
      → answer.payload = result.toOption
      → post result (s.next platform fromStr ⟨.tpm tpm.fd (Tpm2.command cc body), answer⟩ world))
    : wp (watch platform fromStr) (tpm.transact cc body).run post s := by
  refine Tpm2.Tpm.transact_wp trivial fun answer result after step same => ?_
  obtain ⟨world, step, rfl⟩ := step
  exact completed answer world result step same

/-- A trial session that was started is fresh. -/
theorem startTrialSession_wp {tpm : Tpm}
    : wp (watch platform fromStr) tpm.startTrialSession.run
        (fun result after => Consulted s after
          ∧ match result with
            | .ok session => after.world.sessions (Tpm2.putU32 session) = platform.fresh
            | .error _ => after.repair.tpm.responsive = false) s := by
  refine Fallible.wp_bind.mpr (transact_wp fun answer world result step same => ?_)
  cases result with
  | error e => exact ⟨consulted_next, unresponsive_of_none same⟩
  | ok payload =>
      have executes := step payload same
      refine ⟨consulted_next, ?_⟩
      cases parsed : Tpm2.parseHandle payload with
      | error e =>
          refine unresponsive_of_useless same ?_
          rw [TpmView.useful, Tpm2.commandCode_command, if_pos rfl, parsed]
          rfl
      | ok session => exact executes.1 rfl session parsed

/-- A digest that was computed from these register values. They are the values still, if nobody
has touched what is settled.
-/
structure Measured (platform : Platform ρ δ) (s : Watched ρ δ) (bank : Bank)
    (pcrs : List UInt8) (digest : Bytes) (values : ρ) : Prop where
  measured : s.repair.tpm.measured = some values
  digest : digest = platform.policy values bank pcrs
  current : ∀ {disk pcrs bank}, s.settled disk pcrs bank → values = s.world.values

theorem Measured.later {bank : Bank} {pcrs : List UInt8} {digest : Bytes} {values : ρ}
    (measured : Measured platform s bank pcrs digest values) (later : Later s after)
    (same : after.repair.tpm.measured = s.repair.tpm.measured)
    : Measured platform after bank pcrs digest values := by
  refine ⟨same.trans measured.measured, measured.digest, fun held => ?_⟩
  obtain ⟨before, unchanged, _⟩ := later.settled held
  rw [unchanged]
  exact measured.current before

/-- What a computed policy digest tells. -/
def Digested (platform : Platform ρ δ) (bank : Bank) (pcrs : List UInt8) (s : Watched ρ δ)
    (result : Except String Bytes) (after : Watched ρ δ) : Prop :=
  Consulted s after
    ∧ match result with
      | .ok digest => ∃ values, Measured platform after bank pcrs digest values
      | .error _ => after.repair.tpm.responsive = false

/-- PolicyPCR in a fresh session measures the registers. -/
theorem policyPcr_wp {tpm : Tpm} {session : UInt32} {bank : Bank} {pcrs : List UInt8}
    (ascending : pcrs.Pairwise (· < ·)) (inRange : ∀ pcr ∈ pcrs, pcr ≤ 23)
    (fresh : s.world.sessions (Tpm2.putU32 session) = platform.fresh)
    : wp (watch platform fromStr)
        (tpm.transact Tpm2.ccPolicyPcr (Tpm.policyPcrBody session bank pcrs)).run
        (fun result after => Consulted s after
          ∧ match result with
            | .ok _ => ∃ values, Measured platform after bank pcrs
                (after.world.sessions (Tpm2.putU32 session)) values
            | .error _ => after.repair.tpm.responsive = false) s := by
  refine transact_wp fun answer world result step same => ⟨consulted_next, ?_⟩
  cases result with
  | error e => exact unresponsive_of_none same
  | ok payload =>
      have extended : world.sessions (Tpm2.putU32 session)
          = platform.policy s.world.values bank pcrs := by
        rw [Platform.policy, ← fresh]
        refine (step payload same).2.1 rfl bank.id pcrs ?_
        exact Tpm2.selected_putPcrSelection ascending inRange
      refine ⟨s.world.values, ?_, extended, fun held => held.1.symm⟩
      simp [next, Repair.observe, TpmView.observe, same, Except.toOption]

/-- PolicyGetDigest reads the session's digest. -/
theorem policyGetDigest_wp {tpm : Tpm} {session : UInt32}
    : wp (watch platform fromStr)
        (do
          let payload ← tpm.transact Tpm2.ccPolicyGetDigest (Tpm2.putU32 session)
          Tpm2.ofResult (Tpm2.parseDigest payload) : SysE Bytes).run
        (fun result after => Consulted s after
          ∧ after.repair.tpm.measured = s.repair.tpm.measured
          ∧ match result with
            | .ok digest => digest = s.world.sessions (Tpm2.putU32 session)
            | .error _ => after.repair.tpm.responsive = false) s := by
  refine Fallible.wp_bind.mpr (transact_wp fun answer world result step same => ?_)
  have unmeasured {body : Bytes} : (s.next platform fromStr
      ⟨.tpm tpm.fd (Tpm2.command Tpm2.ccPolicyGetDigest body), answer⟩ world).repair.tpm.measured
      = s.repair.tpm.measured :=
    measured_next (by decide)
  cases result with
  | error e => exact ⟨consulted_next, unmeasured, unresponsive_of_none same⟩
  | ok payload =>
      refine ⟨consulted_next, unmeasured, ?_⟩
      cases parsed : Tpm2.parseDigest payload with
      | ok digest => exact (step payload same).2.2 rfl digest parsed
      | error e =>
          refine unresponsive_of_useless same ?_
          rw [TpmView.useful, Tpm2.commandCode_command, if_neg (by decide), if_pos rfl, parsed]
          rfl

theorem Digested.later {bank : Bank} {pcrs : List UInt8} {result : Except String Bytes}
    (digested : Digested platform bank pcrs s result middle) (consulted : Consulted middle after)
    (same : after.repair.tpm.measured = middle.repair.tpm.measured)
    : Digested platform bank pcrs s result after := by
  obtain ⟨before, outcome⟩ := digested
  refine ⟨before.trans consulted, ?_⟩
  cases result with
  | ok digest =>
      obtain ⟨values, measured⟩ := outcome
      exact ⟨values, measured.later consulted.toLater same⟩
  | error e =>
      refine Bool.eq_false_iff.mpr fun responsive => ?_
      rw [consulted.responsive responsive] at outcome
      cases outcome

/-- Releasing a session measures nothing. -/
theorem flush_wp {tpm : Tpm} {session : UInt32}
    : wp (watch platform fromStr) (tpm.flush session).run
        (fun _ after => Consulted s after
          ∧ after.repair.tpm.measured = s.repair.tpm.measured) s := by
  refine Fallible.wp_bind.mpr (transact_wp fun answer world result step same => ?_)
  cases result <;> exact ⟨consulted_next, measured_next (by decide)⟩

/-- In a fresh session the registers are measured and the digest is read back. -/
theorem buildPolicy_wp {tpm : Tpm} {session : UInt32} {bank : Bank} {pcrs : List UInt8}
    (ascending : pcrs.Pairwise (· < ·)) (inRange : ∀ pcr ∈ pcrs, pcr ≤ 23)
    (fresh : s.world.sessions (Tpm2.putU32 session) = platform.fresh)
    : wp (watch platform fromStr) (tpm.buildPolicy session bank pcrs).run
        (Digested platform bank pcrs s) s := by
  refine Fallible.wp_bind.mpr (wp_mono (policyPcr_wp ascending inRange fresh) ?_)
  intro result middle ⟨first, outcome⟩
  cases result with
  | error e => exact ⟨first, outcome⟩
  | ok =>
      obtain ⟨values, measured⟩ := outcome
      refine wp_mono policyGetDigest_wp fun result after ⟨second, same, outcome⟩ => ?_
      refine ⟨first.trans second, ?_⟩
      cases result with
      | error e => exact outcome
      | ok digest =>
          rw [show digest = _ from outcome]
          exact ⟨values, measured.later second.toLater same⟩

/-- The policy digest of the current values is computed from what the registers hold when
PolicyPCR runs, and failing that the TPM was not responsive.
-/
theorem pcrPolicyDigest_wp {tpm : Tpm} {bank : Bank} {pcrs : List UInt8}
    (ascending : pcrs.Pairwise (· < ·)) (inRange : ∀ pcr ∈ pcrs, pcr ≤ 23)
    : wp (watch platform fromStr) (tpm.pcrPolicyDigest bank pcrs).run
        (Digested platform bank pcrs s) s := by
  refine Fallible.wp_bind.mpr (wp_mono startTrialSession_wp ?_)
  intro started first ⟨begun, outcome⟩
  cases started with
  | error e => exact ⟨begun, outcome⟩
  | ok session =>
      refine Fallible.wp_bind.mpr (Fallible.wp_lift.mpr
        (wp_mono (buildPolicy_wp ascending inRange outcome) ?_))
      intro result second digested
      refine Fallible.wp_bind.mpr (Fallible.wp_lift.mpr (wp_mono flush_wp ?_))
      intro flushed third ⟨released, same⟩
      have settled := digested.later released same
      cases flushed with
      | ok => exact ⟨begun.trans settled.1, settled.2⟩
      | error e =>
          refine Fallible.wp_bind.mpr (Fallible.wp_lift.mpr ⟨trivial, ?_⟩)
          intro _ last step
          obtain ⟨world, _, rfl⟩ := step
          have still : Still third
              (third.next platform fromStr ⟨.log (.couldNotFlush session e), ()⟩ world) :=
            still_next trivial
          have logged := settled.later still.consulted (congrArg (·.tpm.measured) still.repair)
          exact ⟨begun.trans logged.1, logged.2⟩

end Watched

end Tpm2Autoenroll
