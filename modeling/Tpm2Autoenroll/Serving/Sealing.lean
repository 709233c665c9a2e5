import Tpm2Autoenroll.Serving.Outcomes
import Tpm2Autoenroll.Serving.Surveys

/-! What a repair amounts to on a machine that others use too: what its plan was computed from
and what systemd-cryptenroll sealed to.
-/

namespace Tpm2Autoenroll

open Interaction Prog Monitor
open Text (Bytes)
open Token (Tpm2Token)
open Tpm2 (Bank Tpm)

namespace Watched

variable {ρ δ : Type} {platform : Platform ρ δ} {fromStr : Json.Reader}
  {s middle after : Watched ρ δ}

-----------------------------------------------------------------------------------------
-- Settled disks
-----------------------------------------------------------------------------------------

/-- The header of a disk that is settled holds a literal binding to the current values. -/
def Consistent (platform : Platform ρ δ) (s : Watched ρ δ) : Prop :=
  ∀ disk pcrs bank, s.settled disk pcrs bank
    → ∃ index, ∀ tokens, Token.ofHeader (s.world.headers disk) = .ok tokens
      → Cryptenroll.literalToken index pcrs bank (platform.policy s.world.values bank pcrs)
        ∈ tokens

theorem Consistent.of {world : World ρ δ} : Consistent platform (.of world) :=
  fun _ _ _ => False.elim

/-- It does so whatever happens. -/
theorem Consistent.next (consistent : Consistent platform s) {event : Event}
    {world : World ρ δ}
    : Consistent platform (s.next platform fromStr event world) := by
  intro disk pcrs bank held
  obtain ⟨values, undisturbed, told⟩ := held
  -- Within this proof the registers are as they were.
  have sameValues : (s.next platform fromStr event world).world.values = s.world.values := values
  rw [sameValues]
  cases seen : enrolled event with
  | none =>
      simp only [seen] at told
      have header : world.headers disk = s.world.headers disk := by
        simpa [Undisturbed, seen] using undisturbed
      rw [next_world, header]
      exact consistent disk pcrs bank told
  | some enrollment =>
      obtain ⟨device, args⟩ := enrollment
      simp only [seen] at told
      simp only [Undisturbed, seen] at undisturbed
      by_cases here : platform.disk device.name = disk
      · obtain ⟨index, found⟩ := (undisturbed.1 here).read (told.1 here)
        exact ⟨index, fun tokens read => (found tokens read).1⟩
      · rw [next_world, undisturbed.2 here]
        exact consistent disk pcrs bank (told.2 here)

/-- In every run. -/
theorem Consistent.path {trace : Trace} (consistent : Consistent platform s)
    (path : (watch platform fromStr).Path s trace after)
    : Consistent platform after := by
  refine path.invariant (fun event _ before after held step => ?_) consistent
  obtain ⟨world, _, rfl⟩ := step
  exact held.next

/-- The connection's events are those that happened in it. -/
theorem here_path {trace : Trace} (path : (watch platform fromStr).Path s trace after)
    (keeps : ∀ event ∈ trace, keeping event.op)
    : after.here = s.here ++ trace := by
  induction path with
  | nil => simp
  | @cons start middle final event rest step later ih =>
      obtain ⟨first, others⟩ := List.forall_mem_cons.mp keeps
      obtain ⟨world, _, rfl⟩ := step
      rw [ih others]
      simp [next, opens_of_keeping first]

-----------------------------------------------------------------------------------------
-- Looking at the header
-----------------------------------------------------------------------------------------

/-- A later state of the same connection in which only more is known about the TPM and the
header.
-/
structure Looked (s after : Watched ρ δ) : Prop extends Later s after where
  repair : after.repair
    = { s.repair with tpm := after.repair.tpm, header := after.repair.header }
  responsive : after.repair.tpm.responsive = true → s.repair.tpm.responsive = true
  readable : after.repair.header.readable = true → s.repair.header.readable = true

theorem Looked.trans (first : Looked s middle) (second : Looked middle after)
    : Looked s after := by
  refine ⟨first.toLater.trans second.toLater, ?_, first.responsive ∘ second.responsive,
    first.readable ∘ second.readable⟩
  rw [second.repair, first.repair]

theorem Consulted.looked (consulted : Consulted s after) : Looked s after := by
  refine ⟨consulted.toLater, ?_, consulted.responsive, ?_⟩
  · rw [consulted.repair]
  · rw [consulted.repair]
    exact id

/-- An enrollment nobody has touched now was not touched before. -/
theorem Looked.calm (looked : Looked s after) (calm : after.Calm) : s.Calm where
  intact := (looked.intact calm.intact).1
  settled sealing sealed := by
    have same : after.repair.sealing = some sealing := by
      rw [looked.repair]
      exact sealed
    exact (looked.settled (calm.settled sealing same)).1
  readable := looked.readable calm.readable
  responsive := looked.responsive calm.responsive

/-- Reading the header shows the tokens it holds at that moment. -/
theorem read_wp {device : Device}
    : wp (watch platform fromStr) (Token.read fromStr device)
        (fun result after => Looked s after
          ∧ after.repair.tpm = s.repair.tpm
          ∧ match result with
            | .ok tokens =>
                after.repair.header.tokens = some tokens
                ∧ Token.ofHeader (s.world.headers (platform.disk device.name)) = .ok tokens
            | .error _ => after.repair.header.readable = false) s := by
  refine wp_ask trivial fun answer after step => ?_
  obtain ⟨world, dumped, rfl⟩ := step
  have later : Later s (s.next platform fromStr ⟨.child (.luksDump device), answer⟩ world) :=
    later_next trivial
  have looked : Looked s (s.next platform fromStr ⟨.child (.luksDump device), answer⟩ world) :=
    ⟨later, rfl, id, fun both => (Bool.and_eq_true_iff.mp both).1⟩
  cases answer with
  | error e => exact ⟨looked, rfl, Bool.and_false _⟩
  | ok out =>
      by_cases succeeded : out.status.success = true
      · have read := dumped succeeded
        have parsed : Token.parse fromStr (Text.fromUtf8Lossy out.stdout)
            = Token.ofHeader (s.world.headers (platform.disk device.name)) := by
          unfold Token.parse
          rw [read]
          rfl
        have shown : Token.ofDump fromStr (.ok out)
            = (Token.ofHeader (s.world.headers (platform.disk device.name))).toOption := by
          simp [Token.ofDump, succeeded, parsed]
        simp only [succeeded, Bool.not_true, Bool.false_eq_true, if_false, parsed]
        refine ⟨looked, rfl, ?_⟩
        cases found : Token.ofHeader (s.world.headers (platform.disk device.name)) with
        | error e => simp [next, Repair.observe, HeaderView.observe, shown, found, Except.toOption]
        | ok tokens =>
            simp [next, Repair.observe, HeaderView.observe, shown, found, Except.toOption]
      · simp only [succeeded, Bool.not_false, if_true]
        refine ⟨looked, rfl, ?_⟩
        simp [next, Repair.observe, HeaderView.observe, Token.ofDump, succeeded]

-----------------------------------------------------------------------------------------
-- Looking at the TPM
-----------------------------------------------------------------------------------------

/-- Requests to the TPM, and those that tell nothing. -/
@[simp]
def asking : Op → Prop
  | .tpm _ _ => True
  | op => mute op

theorem mute_or_tpm {op : Op} (small : asking op) : mute op ∨ ∃ fd cmd, op = .tpm fd cmd := by
  unfold asking at small
  split at small
  · exact Or.inr ⟨_, _, rfl⟩
  · exact Or.inl small

/-- A part of the daemon that only asks the TPM. -/
theorem consult_wp {α : Type} {program : Sys α} (only : program.Only asking)
    : wp (watch platform fromStr) program (fun _ after => Consulted s after) s := by
  refine wp_invariant only nofun ?_ ?_ Still.refl.consulted
  · intro state op small _
    rcases mute_or_tpm small with silent | ⟨fd, cmd, rfl⟩
    · exact allows_of_mute silent
    · trivial
  · intro state op answer after small consulted step
    obtain ⟨world, _, rfl⟩ := step
    refine consulted.trans ?_
    rcases mute_or_tpm small with silent | ⟨fd, cmd, rfl⟩
    · exact (still_next silent).consulted
    · exact consulted_next

/-- What a comparison with the registers tells. -/
theorem drift_wp {tpm : Tpm} {token : Tpm2Token} {config : Volume}
    : wp (watch platform fromStr) (Drift.check tpm token config.pcrs.list config.bank)
        (fun drift after => Consulted s after
          ∧ match drift with
            | .drifted _ current =>
                current ≠ token.policyHash
                ∧ ∃ values, Measured platform after config.bank config.pcrs.list current values
            | .unchanged =>
                ∃ values, Measured platform after config.bank config.pcrs.list token.policyHash
                  values
            | .unknown _ =>
                Preflight.tokenRefusal token ≠ none ∨ after.repair.tpm.responsive = false) s := by
  unfold Drift.check
  rw [if_neg config.pcrs.nonempty]
  split
  next kind advanced =>
    refine ⟨Still.refl.consulted, Or.inl ?_⟩
    unfold Preflight.tokenRefusal
    split_ifs <;> simp [advanced]
  · split_ifs with pin
    · refine ⟨Still.refl.consulted, Or.inl ?_⟩
      simp [Preflight.tokenRefusal, pin]
    · refine wp_then (pcrPolicyDigest_wp config.pcrs.ascending config.pcrs.inRange) ?_
      intro result after digested
      obtain ⟨consulted, outcome⟩ := digested
      cases result with
      | error e => exact ⟨consulted, Or.inr outcome⟩
      | ok current =>
          dsimp only
          split_ifs with same
          · exact ⟨consulted, same ▸ outcome⟩
          · exact ⟨consulted, same, outcome⟩

/-- What is said about a plan measures nothing. -/
theorem announce_wp {config : Volume} {tpm : Tpm} {plan : Preflight.Plan}
    : wp (watch platform fromStr) (announce config tpm plan)
        (fun _ after => Consulted s after
          ∧ after.repair.tpm.measured = s.repair.tpm.measured) s := by
  have only : (announce config tpm plan).Only fun op =>
      mute op ∨ ∃ body, op = .tpm tpm.fd (Tpm2.command Tpm2.ccPcrRead body) :=
    announce_only (fun body => Or.inr ⟨body, rfl⟩) fun _ routine =>
      Or.inl (mute_of_routine routine)
  refine wp_invariant only nofun ?_ ?_ ⟨Still.refl.consulted, rfl⟩
  · intro state op small _
    rcases small with silent | ⟨body, rfl⟩
    · exact allows_of_mute silent
    · trivial
  · intro state op answer after small facts step
    obtain ⟨consulted, same⟩ := facts
    obtain ⟨world, _, rfl⟩ := step
    rw [← same]
    rcases small with silent | ⟨body, rfl⟩
    · have still : Still state (state.next platform fromStr ⟨op, answer⟩ world) :=
        still_next silent
      exact ⟨consulted.trans still.consulted, congrArg (·.tpm.measured) still.repair⟩
    · exact ⟨consulted.trans consulted_next, measured_next (by decide)⟩

theorem keeping_of_inspecting {op : Op} (inspecting : op.inspecting) : keeping op := by
  cases op with
  | accept fd => exact inspecting.elim
  | child process => cases process <;> trivial
  | _ => trivial

-----------------------------------------------------------------------------------------
-- Planning
-----------------------------------------------------------------------------------------

variable {config : Volume} {device : Device} {tpm : Tpm} {plan : Preflight.Plan} {values : ρ}

/-- What a plan was made from: the register values that its state is the digest of, and a header
with one token, which was not settled.
-/
structure Planned (platform : Platform ρ δ) (fromStr : Json.Reader) (s : Watched ρ δ)
    (config : Volume) (device : Device) (tpm : Tpm) (plan : Preflight.Plan) (values : ρ)
    : Prop where
  planned : (Preflight.check fromStr config.name config device tpm).Ran (.reenroll plan) s.here
  measured : Measured platform s config.bank config.pcrs.list plan.state values
  old : ∃ old, plan.oldToken = some old.index
    ∧ (s.intact → Token.ofHeader (s.world.headers (platform.disk device.name)) = .ok [old])
  unsettled : ¬ s.settled (platform.disk device.name) config.pcrs.list config.bank

theorem Planned.later (planned : Planned platform fromStr s config device tpm plan values)
    (later : Later s after) (same : after.repair.tpm.measured = s.repair.tpm.measured)
    : Planned platform fromStr after config device tpm plan values := by
  obtain ⟨more, extended⟩ := later.here
  obtain ⟨old, named, read⟩ := planned.old
  refine ⟨?_, planned.measured.later later same, ⟨old, named, fun held => ?_⟩, fun held => ?_⟩
  · rw [extended]
    exact planned.planned.append_right more
  · obtain ⟨before, unchanged⟩ := later.intact held
    rw [unchanged]
    exact read before
  · exact planned.unsettled (later.settled held).1

/-- A drift is planned for from what the registers hold. -/
theorem drifted_wp {token : Tpm2Token}
    : wp (watch platform fromStr) (Preflight.drifted token config tpm)
        (fun decision after => Consulted s after
          ∧ ∀ plan, decision = .reenroll plan
            → plan.oldToken = some token.index
              ∧ plan.state ≠ token.policyHash
              ∧ ∃ values, Measured platform after config.bank config.pcrs.list plan.state values)
        s := by
  unfold Preflight.drifted
  split
  · exact ⟨Still.refl.consulted, nofun⟩
  · split
    · exact ⟨Still.refl.consulted, nofun⟩
    · have looking : (Preflight.hostPolicy
          (Preflight.publicKeyPaths ++ Preflight.pcrlockPaths)).Only mute :=
        Preflight.hostPolicy_only fun _ => trivial
      refine wp_then (still_wp looking) fun refusal middle still => ?_
      cases refusal with
      | some why => exact ⟨still.consulted, nofun⟩
      | none =>
          refine wp_then drift_wp fun drift after compared => ?_
          obtain ⟨consulted, outcome⟩ := compared
          have since := still.consulted.trans consulted
          cases drift with
          | unchanged | unknown => exact ⟨since, nofun⟩
          | drifted enrolled current =>
              obtain ⟨stale, measured⟩ := outcome
              refine ⟨since, fun plan made => ?_⟩
              cases made
              exact ⟨rfl, stale, measured⟩

/-- A header with one token that is out of date was not settled. -/
theorem unsettled_of_stale {disk : δ} {pcrs : List UInt8} {bank : Bank} {token : Tpm2Token}
    {digest : Bytes} (consistent : Consistent platform s) (later : Later s after)
    (read : Token.ofHeader (s.world.headers disk) = .ok [token])
    (measured : Measured platform after bank pcrs digest values)
    (stale : digest ≠ token.policyHash)
    : ¬ after.settled disk pcrs bank := by
  intro held
  obtain ⟨before, sameValues, _⟩ := later.settled held
  obtain ⟨index, bound⟩ := consistent disk pcrs bank before
  have sole := List.mem_singleton.mp (bound [token] read)
  have current : values = s.world.values := (measured.current held).trans sameValues
  apply stale
  rw [measured.digest, current, ← sole]
  rfl

/-- A plan is made only for what is not settled. -/
theorem check_wp (consistent : Consistent platform s)
    : wp (watch platform fromStr) (Preflight.check fromStr config.name config device tpm)
        (fun decision after => Looked s after
          ∧ ∀ plan, decision = .reenroll plan
            → ∃ values, Planned platform fromStr after config device tpm plan values) s := by
  have looked : wp (watch platform fromStr)
      (Preflight.check fromStr config.name config device tpm)
      (fun decision after => Looked s after
        ∧ ∀ plan, decision = .reenroll plan
          → ∃ token values, plan.oldToken = some token.index
            ∧ Token.ofHeader (s.world.headers (platform.disk device.name)) = .ok [token]
            ∧ Measured platform after config.bank config.pcrs.list plan.state values
            ∧ plan.state ≠ token.policyHash) s := by
    refine wp_then read_wp fun result first reading => ?_
    obtain ⟨looked, _, outcome⟩ := reading
    cases result with
    | error e => exact ⟨looked, nofun⟩
    | ok tokens =>
        have answering : tpm.lockout.run.Only asking := Tpm2.Tpm.lockout_only fun _ => trivial
        refine wp_then (consult_wp answering) fun answer second consulted => ?_
        have since := looked.trans consulted.looked
        cases answer with
        | error e => exact ⟨since, nofun⟩
        | ok l =>
            dsimp only
            split_ifs
            · exact ⟨since, nofun⟩
            · have logging : (log (.tpmResponsive config.name l.counter l.maxAuthFail)).Only mute :=
                ⟨trivial, fun _ => trivial⟩
              refine wp_then (still_wp logging) fun _ third logged => ?_
              have since := since.trans logged.consulted.looked
              match tokens with
              | [] => exact ⟨since, nofun⟩
              | _ :: _ :: _ => exact ⟨since, nofun⟩
              | [token] =>
                  refine wp_mono drifted_wp fun decision after drifted => ?_
                  obtain ⟨consulted, reasons⟩ := drifted
                  refine ⟨since.trans consulted.looked, fun plan made => ?_⟩
                  obtain ⟨old, stale, values, measured⟩ := reasons plan made
                  exact ⟨token, values, old, outcome.2, measured, stale⟩
  refine wp_mono (wp_runs looked) fun decision after facts => ?_
  obtain ⟨⟨since, reasons⟩, trace, run, path⟩ := facts
  refine ⟨since, fun plan made => ?_⟩
  obtain ⟨token, values, old, read, measured, stale⟩ := reasons plan made
  refine ⟨values, ?_, measured, ⟨token, old, fun held => ?_⟩, ?_⟩
  · have keeps : ∀ event ∈ trace, keeping event.op := fun event member =>
      keeping_of_inspecting (Preflight.check_only.mem run member)
    rw [here_path path keeps, ← made]
    exact run.ran.append_left s.here
  · rw [(since.intact held).2]
    exact read
  · exact unsettled_of_stale consistent since.toLater read measured stale

-----------------------------------------------------------------------------------------
-- Enrolling
-----------------------------------------------------------------------------------------

variable {measured : ρ}

/-- What an enrollment that succeeded leaves: a volume sealed to the values of that moment by a
plan that was made from others, and a header in which the new token is the literal one.
-/
structure Sealed (platform : Platform ρ δ) (fromStr : Json.Reader) (s : Watched ρ δ)
    (config : Volume) (device : Device) (tpm : Tpm) (plan : Preflight.Plan) (measured values : ρ)
    : Prop where
  planned : (Preflight.check fromStr config.name config device tpm).Ran (.reenroll plan) s.here
  state : plan.state = platform.policy measured config.bank config.pcrs.list
  sealing : s.repair.sealing = some ⟨platform.disk device.name, config.pcrs.list, config.bank,
    some measured, values⟩
  current : s.settled (platform.disk device.name) config.pcrs.list config.bank
    → values = s.world.values
  header : s.intact
    → ∃ index, ∀ tokens,
        Token.ofHeader (s.world.headers (platform.disk device.name)) = .ok tokens
        → Enroll.findNewToken tokens plan.oldToken
          = some (Cryptenroll.literalToken index config.pcrs.list config.bank
              (platform.policy values config.bank config.pcrs.list))

theorem Sealed.later
    (sealed : Sealed platform fromStr s config device tpm plan measured values)
    (later : Later s after) (same : after.repair.sealing = s.repair.sealing)
    : Sealed platform fromStr after config device tpm plan measured values := by
  obtain ⟨more, extended⟩ := later.here
  refine ⟨?_, sealed.state, same.trans sealed.sealing, fun held => ?_, fun held => ?_⟩
  · rw [extended]
    exact sealed.planned.append_right more
  · obtain ⟨before, unchanged, _⟩ := later.settled held
    rw [unchanged]
    exact sealed.current before
  · obtain ⟨before, unchanged⟩ := later.intact held
    rw [unchanged]
    exact sealed.header before

/-- systemd-cryptenroll seals what was planned for to what it finds. -/
theorem sealed_next {key : SecretFile} {out : Output} {world : World ρ δ}
    (planned : Planned platform fromStr s config device tpm plan measured)
    (succeeded : out.status.success = true)
    : Sealed platform fromStr
        (s.next platform fromStr
          ⟨.child (.cryptenroll device config.tpm2Device config.pcrs.list config.bank key), .ok out⟩
          world)
        config device tpm plan measured s.world.values := by
  have told : Cryptenroll.selection (Child.args
        (.cryptenroll device config.tpm2Device config.pcrs.list config.bank key))
      = some (config.pcrs.list, config.bank) :=
    Cryptenroll.selection_args config.pcrs.ascending config.pcrs.inRange config.pcrs.nonempty
  have done : enrolled
      ⟨.child (.cryptenroll device config.tpm2Device config.pcrs.list config.bank key), .ok out⟩
      = some (device, Child.args
          (.cryptenroll device config.tpm2Device config.pcrs.list config.bank key)) :=
    if_pos succeeded
  refine ⟨?_, planned.measured.digest, ?_, fun held => held.1.symm, fun held => ?_⟩
  · simp only [next, opens, Bool.false_eq_true, if_false]
    exact planned.planned.append_right _
  · simp [next, Repair.observe, succeeded, planned.measured.measured]
  · obtain ⟨before, undisturbed⟩ := held
    have enrolls := undisturbed (platform.disk device.name)
    simp only [Undisturbed, done] at enrolls
    obtain ⟨index, found⟩ := (enrolls.1 trivial).read told
    refine ⟨index, fun tokens read => ?_⟩
    obtain ⟨old, named, only⟩ := planned.old
    rw [named]
    exact (found tokens read).2 old (only (by simpa [opens] using before))

/-- An enrollment that is reported to have succeeded has sealed the volume. -/
theorem run_wp {secret : Secret}
    (planned : Planned platform fromStr s config device tpm plan measured)
    : wp (watch platform fromStr)
        (Enroll.run device config.tpm2Device config.pcrs.list config.bank secret)
        (fun result after =>
          match result with
          | .ok () =>
              ∃ values, Sealed platform fromStr after config device tpm plan measured values
          | .error _ => after.repair = s.repair) s := by
  unfold Enroll.run
  rw [if_neg config.pcrs.nonempty]
  have creating : (SecretFile.new secret).Only mute :=
    SecretFile.new_only.mono fun _ => mute_of_acquiring
  refine wp_then (still_wp creating) fun created middle still => ?_
  cases created with
  | error e => exact still.repair
  | ok key =>
      have planned := planned.later still.toLater (congrArg (·.tpm.measured) still.repair)
      refine wp_ask planned.unsettled fun answer after step => ?_
      obtain ⟨world, _, rfl⟩ := step
      cases answer with
      | error e => exact still.repair
      | ok out =>
          dsimp only
          split_ifs with succeeded
          · exact ⟨middle.world.values, sealed_next planned succeeded⟩
          · refine Eq.trans ?_ still.repair
            simp [next, Repair.observe, succeeded]

end Watched

end Tpm2Autoenroll
