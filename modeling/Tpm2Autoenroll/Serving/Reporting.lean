import Tpm2Autoenroll.Serving.Sealing
import Tpm2Autoenroll.Serving.SharedScenes

/-! What the daemon reports of a repair: which state the token it found good is bound to, and
that a repair nobody has interfered with is found good and is not repeated.
-/

namespace Tpm2Autoenroll

open Interaction Prog Monitor
open Text (Bytes)
open Token (Tpm2Token)
open Tpm2 (Bank Tpm)

namespace Watched

variable {ρ δ : Type} {platform : Platform ρ δ} {fromStr : Json.Reader}
  {s middle after : Watched ρ δ} {config : Volume} {device : Device} {tpm : Tpm}
  {plan : Preflight.Plan} {measured values : ρ} {token : Tpm2Token}

-----------------------------------------------------------------------------------------
-- The new token
-----------------------------------------------------------------------------------------

/-- The token that was found in the header of a volume that was sealed. It is the literal one if
nobody touched the header.
-/
structure Located (platform : Platform ρ δ) (fromStr : Json.Reader) (s : Watched ρ δ)
    (config : Volume) (device : Device) (tpm : Tpm) (plan : Preflight.Plan) (measured values : ρ)
    (token : Tpm2Token) : Prop
    extends Sealed platform fromStr s config device tpm plan measured values where
  found : ∃ tokens, s.repair.header.tokens = some tokens
    ∧ Enroll.findNewToken tokens plan.oldToken = some token
  literal : s.intact
    → ∃ index, token = Cryptenroll.literalToken index config.pcrs.list config.bank
        (platform.policy values config.bank config.pcrs.list)

theorem Located.later
    (located : Located platform fromStr s config device tpm plan measured values token)
    (later : Later s after) (same : after.repair.sealing = s.repair.sealing)
    (seen : after.repair.header = s.repair.header)
    : Located platform fromStr after config device tpm plan measured values token := by
  refine ⟨located.toSealed.later later same, ?_, fun held => ?_⟩
  · rw [seen]
    exact located.found
  · exact located.literal (later.intact held).1

/-- As long as nobody touches a header, the token that was found holds what was sealed. -/
theorem Located.verified
    (located : Located platform fromStr s config device tpm plan measured values token)
    (intact : s.intact)
    : s.Verified platform fromStr config.name token.index := by
  obtain ⟨index, literal⟩ := located.literal intact
  refine ⟨config, device, tpm, plan, measured, values, token, ?_, rfl, rfl⟩
  exact {
    planned := located.planned
    state := located.state
    sealing := located.sealing
    found := located.found
    hash := by rw [literal]; rfl
  }

/-- There is nothing wrong with a literal token. -/
theorem tokenRefusal_literal {index : UInt32} {hash : Bytes}
    : Preflight.tokenRefusal (Cryptenroll.literalToken index config.pcrs.list config.bank hash)
      = none := by
  simp [Preflight.tokenRefusal, Cryptenroll.literalToken]

theorem sameSelection_literal {index : UInt32} {hash : Bytes}
    : Preflight.sameSelection
        (Cryptenroll.literalToken index config.pcrs.list config.bank hash) config
      = .ok () := by
  simp [Preflight.sameSelection, Cryptenroll.literalToken]

/-- The digest of registers that are what they were when the volume was sealed is the token's. -/
theorem Located.matches_calm {digest : Bytes} {current : ρ}
    (located : Located platform fromStr s config device tpm plan measured values token)
    (calm : s.Calm)
    (measurement : Measured platform s config.bank config.pcrs.list digest current)
    : digest = token.policyHash := by
  obtain ⟨index, literal⟩ := located.literal calm.intact
  have settled := calm.settled _ located.sealing
  have same : current = values :=
    (measurement.current settled).trans (located.current settled).symm
  rw [measurement.digest, literal, same]
  rfl

-----------------------------------------------------------------------------------------
-- Verifying
-----------------------------------------------------------------------------------------

/-- A calm enrollment that no plugin could try has been found good. -/
def Closing (s : Watched ρ δ) : Prop :=
  s.repair.sealing ≠ none → s.Calm → s.repair.unsealed = false → s.repair.confirmed = true

theorem Closing.still (closing : Closing s) (still : Still s after) : Closing after := by
  intro sealing calm plugin
  have looked := still.consulted.looked
  rw [still.repair] at sealing plugin ⊢
  exact closing sealing (looked.calm calm) plugin

theorem Closing.of_fresh (fresh : s.repair.sealing = none) : Closing s :=
  fun sealing => absurd fresh sealing

theorem Closing.of_disturbed (disturbed : ¬ s.Calm) : Closing s :=
  fun _ calm => absurd calm disturbed

/-- A part of the daemon that leaves everything as it was. -/
theorem closing_wp {α : Type} {program : Sys α} (closing : Closing s)
    (only : program.Only mute True)
    : wp (watch platform fromStr) program (fun _ after => Closing after) s :=
  wp_mono (still_wp only) fun _ _ still => closing.still still

/-- A last line about an enrollment that is not calm. -/
theorem report_wp {line : LogLine} (silent : mute (.log line)) (disturbed : ¬ s.Calm)
    : wp (watch platform fromStr) (log line) (fun _ after => Closing after) s :=
  closing_wp (.of_disturbed disturbed) ⟨silent, fun _ => trivial⟩

/-- The comparison with the registers finds a calm token good. -/
theorem comparePolicy_wp
    (located : Located platform fromStr s config device tpm plan measured values token)
    (accepted : Preflight.tokenRefusal token = none)
    : wp (watch platform fromStr)
        (do
          match ← Drift.check tpm token config.pcrs.list config.bank with
          | .unchanged => log (.verifiedByPolicy config.name token.index)
          | other => log (.policyNotVerified config.name token.index other.describe))
        (fun _ after => Closing after) s := by
  refine wp_then drift_wp fun drift middle compared => ?_
  obtain ⟨consulted, outcome⟩ := compared
  have located := located.later consulted.toLater (by rw [consulted.repair])
    (by rw [consulted.repair])
  cases drift with
  | unchanged =>
      refine wp_ask_last located.verified fun _ after step => ?_
      obtain ⟨world, _, rfl⟩ := step
      intro _ _ _
      simp [next, Repair.observe, LogLine.confirms]
  | drifted enrolled current =>
      obtain ⟨stale, now, measurement⟩ := outcome
      refine report_wp trivial fun calm => ?_
      exact stale (located.matches_calm calm measurement)
  | unknown why =>
      refine report_wp trivial fun calm => ?_
      rcases outcome with refused | unresponsive
      · exact refused accepted
      · simp [calm.responsive] at unresponsive

/-- Trying the new token leaves it where it is. -/
theorem testUnseal_wp
    (located : Located platform fromStr s config device tpm plan measured values token)
    : wp (watch platform fromStr) (Enroll.testUnseal device token.index)
        (fun result after =>
          Located platform fromStr after config device tpm plan measured values token
          ∧ (result = .ok () → after.repair.unsealed = true)) s := by
  refine wp_ask trivial fun answer after step => ?_
  obtain ⟨world, _, rfl⟩ := step
  have later : Later s
      (s.next platform fromStr ⟨.child (.testUnseal device token.index), answer⟩ world) :=
    later_next trivial
  cases answer with
  | error e =>
      refine ⟨located.later later rfl rfl, fun made => ?_⟩
      cases made
  | ok out =>
      dsimp only
      split_ifs with succeeded
      · refine ⟨located.later later rfl rfl, fun _ => ?_⟩
        simp [next, Repair.observe, succeeded]
      · refine ⟨located.later later rfl rfl, fun made => ?_⟩
        cases made

/-- A token that was unsealed is reported to be good. -/
theorem reportUnsealed_wp
    (located : Located platform fromStr s config device tpm plan measured values token)
    (plugin : s.repair.unsealed = true)
    : wp (watch platform fromStr) (log (.verifiedByUnsealing config.name token.index))
        (fun _ after => Closing after) s := by
  refine wp_ask_last located.verified fun _ after step => ?_
  obtain ⟨world, _, rfl⟩ := step
  intro _ _ unsealed
  have tried : s.repair.unsealed = false := unsealed
  rw [plugin] at tried
  cases tried

/-- A calm enrollment whose header can be read is found good. -/
theorem verify_wp
    (sealed : Sealed platform fromStr s config device tpm plan measured values)
    : wp (watch platform fromStr) (verify fromStr config device plan tpm)
        (fun _ after => Closing after) s := by
  refine wp_then read_wp fun result after reading => ?_
  obtain ⟨looked, _, outcome⟩ := reading
  have sealed := sealed.later looked.toLater (by rw [looked.repair])
  cases result with
  | error e =>
      refine report_wp trivial fun calm => ?_
      simp [calm.readable] at outcome
  | ok tokens =>
      obtain ⟨shown, read⟩ := outcome
      -- Whoever left the headers alone left the new token where it is looked for.
      have literal (intact : after.intact) : ∃ index, Enroll.findNewToken tokens plan.oldToken
          = some (Cryptenroll.literalToken index config.pcrs.list config.bank
              (platform.policy values config.bank config.pcrs.list)) := by
        obtain ⟨index, found⟩ := sealed.header intact
        refine ⟨index, found tokens ?_⟩
        rw [(looked.intact intact).2]
        exact read
      dsimp only
      cases found : Enroll.findNewToken tokens plan.oldToken with
      | none =>
          refine report_wp trivial fun calm => ?_
          obtain ⟨index, same⟩ := literal calm.intact
          simp [found] at same
      | some token =>
          have located : Located platform fromStr after config device tpm plan measured values
              token := by
            refine { sealed with found := ⟨tokens, shown, found⟩, literal := fun intact => ?_ }
            obtain ⟨index, same⟩ := literal intact
            exact ⟨index, Option.some.inj (found.symm.trans same)⟩
          dsimp only
          split
          next why refused =>
            refine report_wp trivial fun calm => ?_
            obtain ⟨index, same⟩ := located.literal calm.intact
            simp [same, tokenRefusal_literal, sameSelection_literal] at refused
          next accepted =>
            have accepted : Preflight.tokenRefusal token = none := by
              cases why : Preflight.tokenRefusal token with
              | none => rfl
              | some why => simp_all
            refine wp_then (testUnseal_wp located) fun result middle facts => ?_
            obtain ⟨located, plugin⟩ := facts
            cases result with
            | ok => exact reportUnsealed_wp located (plugin rfl)
            | error e =>
                have logging : (log (.noUnsealAvailable config.name e)).Only mute :=
                  ⟨trivial, fun _ => trivial⟩
                refine wp_then (still_wp logging) fun _ last still => ?_
                refine comparePolicy_wp (located.later still.toLater ?_ ?_) accepted
                · rw [still.repair]
                · rw [still.repair]

-----------------------------------------------------------------------------------------
-- Every run
-----------------------------------------------------------------------------------------

/-- What is settled stays so beside whatever else is shown of a program. -/
theorem consistent_wp {α : Type} {program : Sys α} {post : α → Watched ρ δ → Prop}
    (specified : wp (watch platform fromStr) program post s) (consistent : Consistent platform s)
    : wp (watch platform fromStr) program
        (fun value after => post value after ∧ Consistent platform after) s := by
  refine wp_mono (wp_runs specified) fun value after facts => ?_
  obtain ⟨held, trace, _, path⟩ := facts
  exact ⟨held, consistent.path path⟩

variable {secret : Secret}

/-- A plan is carried out where nothing was settled, and what comes of it is reported. -/
theorem enrollAndVerify_wp
    (planned : Planned platform fromStr s config device tpm plan measured)
    (fresh : s.repair.sealing = none)
    : wp (watch platform fromStr) (enrollAndVerify fromStr config device secret tpm plan)
        (fun _ after => Closing after) s := by
  have asking : terminating.Only mute := ⟨trivial, fun _ => trivial⟩
  refine wp_then (still_wp asking) fun stop middle still => ?_
  have planned := planned.later still.toLater (congrArg (·.tpm.measured) still.repair)
  have closing : Closing middle := .of_fresh (by rw [still.repair, fresh])
  cases stop with
  | true => exact closing_wp closing ⟨trivial, fun _ => trivial⟩
  | false =>
      refine wp_then (run_wp planned) fun result after outcome => ?_
      cases result with
      | ok =>
          obtain ⟨values, sealed⟩ := outcome
          exact verify_wp sealed
      | error e =>
          refine closing_wp (.of_fresh ?_) ⟨trivial, fun _ => trivial⟩
          rw [show after.repair = _ from outcome, still.repair, fresh]

/-- The question is asked about what was planned for. -/
theorem seekConsent_wp {decided : Consent.Decisions} (named : device.name = config.device)
    (planned : Planned platform fromStr s config device tpm plan measured)
    : wp (watch platform fromStr) (seekConsent config plan decided)
        (fun _ after => Still s after) s := by
  have only : (seekConsent config plan decided).Only fun op => mute op
      ∨ op = .child (.askConsent config.name config.device config.pcrs.list config.bank) :=
    seekConsent_requests (Or.inl trivial) (Or.inr rfl) fun _ routine =>
      Or.inl (mute_of_routine routine)
  refine wp_invariant only nofun ?_ ?_ Still.refl
  · intro state op small still
    rcases small with silent | rfl
    · exact allows_of_mute silent
    · intro held
      rw [← named] at held
      exact planned.unsettled (still.settled held).1
  · intro state op answer after small still step
    obtain ⟨world, _, rfl⟩ := step
    rcases small with silent | rfl
    · exact still.trans (still_next silent)
    · exact still.trans ⟨later_next trivial, rfl⟩

theorem carryOut_wp {decided : Consent.Decisions} (named : device.name = config.device)
    (planned : Planned platform fromStr s config device tpm plan measured)
    (fresh : s.repair.sealing = none)
    : wp (watch platform fromStr) (carryOut fromStr config device secret decided tpm plan)
        (fun _ after => Closing after) s := by
  refine wp_then announce_wp fun _ middle announced => ?_
  obtain ⟨consulted, same⟩ := announced
  have planned := planned.later consulted.toLater same
  have fresh : middle.repair.sealing = none := by rw [consulted.repair, fresh]
  split_ifs
  · exact closing_wp (.of_fresh fresh) ⟨trivial, fun _ => trivial⟩
  · refine wp_then (seekConsent_wp named planned) fun sought after still => ?_
    have planned := planned.later still.toLater (congrArg (·.tpm.measured) still.repair)
    have fresh : after.repair.sealing = none := by rw [still.repair, fresh]
    dsimp only
    split_ifs
    · exact wp_then (enrollAndVerify_wp planned fresh) fun _ _ closing => closing
    · exact .of_fresh fresh

theorem maybeReenroll_wp {decided : Consent.Decisions} (consistent : Consistent platform s)
    (named : device.name = config.device) (fresh : s.repair.sealing = none)
    : wp (watch platform fromStr) (maybeReenroll fromStr config device secret decided)
        (fun _ after => Closing after) s := by
  have leaving {here : Watched ρ δ} (fresh : here.repair.sealing = none) (why : String)
      : wp (watch platform fromStr)
          (do
            log (.leavingHeader config.name why)
            return decided)
          (fun _ after => Closing after) here :=
    closing_wp (.of_fresh fresh) ⟨trivial, fun _ => trivial⟩
  have asking : terminating.Only mute := ⟨trivial, fun _ => trivial⟩
  refine wp_then (consistent_wp (still_wp asking) consistent) fun stop first facts => ?_
  obtain ⟨still, consistent⟩ := facts
  have fresh : first.repair.sealing = none := by rw [still.repair, fresh]
  cases stop with
  | true => exact leaving fresh _
  | false =>
      have opening : (Tpm.open config.tpm2Device).run.Only mute :=
        Tpm2.Tpm.open_requests (fun _ _ => trivial) fun _ => trivial
      refine wp_then (consistent_wp (still_wp opening) consistent) fun opened second facts => ?_
      obtain ⟨still, consistent⟩ := facts
      have fresh : second.repair.sealing = none := by rw [still.repair, fresh]
      cases opened with
      | error e => exact leaving fresh _
      | ok tpm =>
          refine wp_then (check_wp consistent) fun decision third checked => ?_
          obtain ⟨looked, made⟩ := checked
          have fresh : third.repair.sealing = none := by rw [looked.repair, fresh]
          cases decision with
          | leave why => exact leaving fresh _
          | reenroll plan =>
              obtain ⟨values, planned⟩ := made plan rfl
              exact carryOut_wp named planned fresh

/-- The plain phase ends with every calm enrollment found good. -/
theorem servePassphrase_wp {setup : Setup} {conn : Fd} {memory : Memory}
    (consistent : Consistent platform s) (fresh : s.repair.sealing = none)
    : wp (watch platform setup.fromStr) (servePassphrase setup conn config memory)
        (fun _ after => Closing after) s := by
  have phase : (log (.plainPhase config.name)).Only mute := ⟨trivial, fun _ => trivial⟩
  refine wp_then (consistent_wp (still_wp phase) consistent) fun _ first facts => ?_
  obtain ⟨still, consistent⟩ := facts
  have fresh : first.repair.sealing = none := by rw [still.repair, fresh]
  have opening : (Device.open config.device).Only mute :=
    Device.open_requests trivial fun _ => trivial
  refine wp_then (wp_runs (consistent_wp (still_wp opening) consistent)) ?_
  intro opened second facts
  obtain ⟨⟨still, consistent⟩, trace, run, _⟩ := facts
  have fresh : second.repair.sealing = none := by rw [still.repair, fresh]
  cases opened with
  | error e => exact closing_wp (.of_fresh fresh) ⟨trivial, fun _ => trivial⟩
  | ok device =>
      have searching : (acquire config device memory.cache).Only mute :=
        acquire_only.mono fun _ => mute_of_acquiring
      refine wp_then (consistent_wp (still_wp searching) consistent) fun acquired third facts => ?_
      obtain ⟨still, consistent⟩ := facts
      have fresh : third.repair.sealing = none := by rw [still.repair, fresh]
      match acquired with
      | (none, cache) => exact closing_wp (.of_fresh fresh) ⟨trivial, fun _ => trivial⟩
      | (some secret, cache) =>
          refine wp_then (maybeReenroll_wp consistent (Device.open_name run) fresh) ?_
          intro decided fourth closing
          have replying : (reply setup.interruptions conn config.name secret).Only mute True :=
            reply_only.mono fun _ => mute_of_replying
          exact wp_then (closing_wp closing replying) fun _ _ closing => closing

/-- A connection is not closed on a calm enrollment that was not found good. -/
theorem handle_wp {setup : Setup} {conn : Fd} {memory : Memory}
    (consistent : Consistent platform s) (fresh : s.repair.sealing = none)
    : wp (watch platform setup.fromStr) (handle setup conn config memory)
        (fun _ after => Consistent platform after) s := by
  refine Tpm2Autoenroll.handle_wp
    (fun here => Consistent platform here ∧ here.repair.sealing = none)
    (fun _ here => Consistent platform here ∧ Closing here)
    (fun _ here => Consistent platform here) ?_ ?_ ?_ ?_ ?_ ?_ ⟨consistent, fresh⟩
  · intro state op _ small
    exact allows_of_mute (mute_of_identifying small)
  · intro state op answer next step small held
    obtain ⟨world, _, rfl⟩ := step
    refine ⟨held.1.next, ?_⟩
    rw [repair_next (mute_of_identifying small), held.2]
  · intro state held
    exact ⟨held.1, .of_fresh held.2⟩
  · intro state held
    refine wp_mono (consistent_wp (servePassphrase_wp held.1 held.2) held.1) ?_
    intro memory after facts
    exact ⟨facts.2, facts.1⟩
  · intro _ state held
    exact held.2
  · intro _ state answer next step held
    obtain ⟨world, _, rfl⟩ := step
    exact held.1.next

theorem mute_of_clearing {op : Op} (clearing : op.clearing) : mute op := by
  unfold Op.clearing at clearing
  split at clearing
  all_goals first | exact clearing.elim | trivial | exact mute_of_routine clearing

theorem mute_or_close {op : Op} (starting : op.starting) : mute op ∨ ∃ fd, op = .close fd := by
  unfold Op.starting at starting
  split at starting
  all_goals first
    | exact Or.inr ⟨_, rfl⟩
    | exact Or.inl trivial
    | exact Or.inl (mute_of_routine starting)
    | exact starting.elim

theorem mute_or_accept {op : Op} (serving : op.serving) : mute op ∨ ∃ fd, op = .accept fd := by
  cases op with
  | accept fd => exact Or.inr ⟨fd, rfl⟩
  | log line => exact Or.inl (mute_of_routine serving)
  | _ => first | exact Or.inl trivial | exact serving.elim

/-- The daemon keeps to the watch. -/
theorem daemon_watched {setup : Setup} {rounds : Nat} {config dir : String} {world : World ρ δ}
    : wp (watch platform setup.fromStr) (daemon setup rounds config dir) (fun _ _ => True)
        (.of world) := by
  have started : wp (watch platform setup.fromStr) (start setup.fromStr config dir)
      (fun _ after => after.repair.sealing = none) (.of world) := by
    refine wp_invariant start_only nofun ?_ ?_ rfl
    · intro state op small fresh
      rcases mute_or_close small with silent | ⟨fd, rfl⟩
      · exact allows_of_mute silent
      · exact Closing.of_fresh fresh
    · intro state op answer after small fresh step
      obtain ⟨world, _, rfl⟩ := step
      rcases mute_or_close small with silent | ⟨fd, rfl⟩
      · rw [repair_next silent, fresh]
      · exact fresh
  refine daemon_wp (fun _ here => Consistent platform here) ?_ ?_
  · exact wp_mono (consistent_wp started .of) fun _ _ facts _ _ => facts.2
  · intro listeners after held
    have inv : ServeInvariant (watch platform setup.fromStr) setup listeners
        (fun _ here => Consistent platform here) (fun _ here => Consistent platform here) := by
      refine .of_kept (fun _ => trivial) ?_ ?_ ?_
      · intro _ state op _ small
        rcases mute_or_accept small with silent | ⟨fd, rfl⟩
        · exact allows_of_mute silent
        · trivial
      · intro _ state op answer next step _ held
        obtain ⟨world, _, rfl⟩ := step
        exact held.next
      · intro l memory state conn next _ step held
        obtain ⟨world, _, rfl⟩ := step
        exact handle_wp held.next rfl
    refine ⟨_, _, inv, held, fun _ _ _ => shutdown_wp fun state op small => ?_⟩
    exact allows_of_mute (mute_of_clearing small)

/-- An enrollment that succeeds while nobody else touches anything leaves the disk settled. -/
theorem settled_of_enrolled {trace : Trace}
    (run : (Enroll.run device config.tpm2Device config.pcrs.list config.bank secret).Runs trace
      (some (.ok ())))
    (path : (watchAlone platform fromStr).Path s trace after)
    : after.settled (platform.disk device.name) config.pcrs.list config.bank := by
  obtain ⟨created, key, out, rfl, succeeded⟩ := Enroll.run_ok run
  obtain ⟨middle, _, last⟩ := path_append.mp path
  obtain ⟨final, step, done⟩ := path_cons.mp last
  rw [path_nil.mp done]
  obtain ⟨world, _, values, undisturbed, rfl⟩ := step
  refine ⟨values, undisturbed _, ?_⟩
  simp only [enrolled, succeeded, if_true]
  refine ⟨fun _ => ?_, fun other => absurd rfl other⟩
  exact Cryptenroll.selection_args config.pcrs.ascending config.pcrs.inRange config.pcrs.nonempty

/-- It stays settled while nobody else touches anything and no other enrollment succeeds on it,
by induction on the path.
-/
theorem settled_lasts {disk : δ} {pcrs : List UInt8} {bank : Bank} {trace : Trace}
    (settled : s.settled disk pcrs bank)
    (path : (watchAlone platform fromStr).Path s trace after)
    (spared : ∀ event ∈ trace, ∀ device args, enrolled event = some (device, args)
      → platform.disk device.name ≠ disk)
    : after.settled disk pcrs bank := by
  induction path with
  | nil => exact settled
  | @cons start middle final event rest step later ih =>
      obtain ⟨first, others⟩ := List.forall_mem_cons.mp spared
      refine ih ?_ others
      obtain ⟨world, _, values, undisturbed, rfl⟩ := step
      refine ⟨values, undisturbed disk, ?_⟩
      cases done : enrolled event with
      | none => exact settled
      | some enrollment =>
          have elsewhere := first enrollment.1 enrollment.2 done
          exact ⟨fun same => absurd same elsewhere, fun _ => settled⟩

/-- A disk that is settled when its preflight ends is left alone. -/
theorem leave_of_settled {world : World ρ δ} {past during : Trace} {decision : Preflight.Decision}
    (earlier : (watch platform fromStr).Path (.of world) past s)
    (run : (Preflight.check fromStr config.name config device tpm).Runs during (some decision))
    (path : (watch platform fromStr).Path s during after)
    (settled : after.settled (platform.disk device.name) config.pcrs.list config.bank)
    : ∃ why, decision = .leave why := by
  have checked := wp_post (check_wp (Consistent.of.path earlier)) run path
  cases decision with
  | leave why => exact ⟨why, rfl⟩
  | reenroll plan =>
      obtain ⟨values, planned⟩ := checked.2 plan rfl
      exact absurd settled planned.unsettled

end Watched

-----------------------------------------------------------------------------------------
-- Convergence
-----------------------------------------------------------------------------------------

variable {ρ δ : Type} {platform : Platform ρ δ} {setup : Setup} {rounds : Nat}
  {config dir : String} {before after : Trace} {event : Event} {outcome : Option ExitCode}
  {world : World ρ δ} {s : Watched ρ δ}

/-- A repair converges. An enrollment that succeeds on a machine that nobody else touches leaves
its disk settled, which it stays until somebody changes a register or the header. A preflight
for a settled disk decides to leave it, and the daemon asks nothing and writes no header for it.
A connection that enrolled is closed with the new token's policy found to match, provided that
nobody touched anything, the header could be read, the TPM answered and no plugin unsealed the
token.
-/
theorem repair_converges
    : (∀ {volume : Volume} {device : Device} {secret : Secret} {trace : Trace}
          {here after : Watched ρ δ},
        (Enroll.run device volume.tpm2Device volume.pcrs.list volume.bank secret).Runs trace
          (some (.ok ()))
        → (Watched.watchAlone platform setup.fromStr).Path here trace after
        → after.settled (platform.disk device.name) volume.pcrs.list volume.bank)
      ∧ (∀ {disk : δ} {pcrs : List UInt8} {bank : Bank} {trace : Trace}
          {here after : Watched ρ δ},
        here.settled disk pcrs bank
        → (Watched.watchAlone platform setup.fromStr).Path here trace after
        → (∀ event ∈ trace, ∀ device args, enrolled event = some (device, args)
          → platform.disk device.name ≠ disk)
        → after.settled disk pcrs bank)
      ∧ (∀ {volume : Volume} {device : Device} {tpm : Tpm} {decision : Preflight.Decision}
          {world : World ρ δ} {past during : Trace} {here after : Watched ρ δ},
        (Watched.watch platform setup.fromStr).Path (.of world) past here
        → (Preflight.check setup.fromStr volume.name volume device tpm).Runs during
          (some decision)
        → (Watched.watch platform setup.fromStr).Path here during after
        → after.settled (platform.disk device.name) volume.pcrs.list volume.bank
        → ∃ why, decision = .leave why)
      ∧ (∀ {rounds : Nat} {config dir : String} {before after : Trace} {event : Event}
          {outcome : Option ExitCode} {world : World ρ δ} {s : Watched ρ δ},
        (daemon setup rounds config dir).Runs (before ++ event :: after) outcome
        → (Watched.watch platform setup.fromStr).Path (.of world) before s
        → (∀ volume path pcrs bank, event.op = .child (.askConsent volume path pcrs bank)
            → ¬ s.settled (platform.disk path) pcrs bank)
          ∧ (∀ device tpm2Device pcrs bank key,
            event.op = .child (.cryptenroll device tpm2Device pcrs bank key)
            → ¬ s.settled (platform.disk device.name) pcrs bank)
          ∧ (∀ conn, event.op = .close conn → s.repair.sealing ≠ none → s.Calm
            → s.repair.unsealed = false → s.repair.confirmed = true)) := by
  refine ⟨Watched.settled_of_enrolled, Watched.settled_lasts, Watched.leave_of_settled, ?_⟩
  intro rounds config dir before after event outcome world s run path
  have allowed := wp_allows Watched.daemon_watched run path
  refine ⟨fun volume disk pcrs bank asked => ?_,
    fun device tpm2Device pcrs bank key enrolling => ?_, fun conn closed => ?_⟩
  · rw [asked] at allowed
    exact allowed
  · rw [enrolling] at allowed
    exact allowed
  · rw [closed] at allowed
    exact allowed

open Scene in
/-- A connection that is closed on a calm enrollment. -/
theorem repair_converges_home
    : ∃ (before : Trace) (s : Watched Bytes String),
        (daemon Scene.setup 2 Config.defaultPath Sockets.defaultDir).Runs
          (before ++ [⟨.close 110, ()⟩]) none
        ∧ (Watched.watch Scene.platform Scene.setup.fromStr).Path
          (.of (stale (List.replicate 32 1) (List.replicate 32 1)).world) before s
        ∧ s.repair.sealing ≠ none
        ∧ s.Calm
        ∧ s.repair.unsealed = false
        ∧ s.repair.confirmed = true := by
  have seen : ((stale (List.replicate 32 1) (List.replicate 32 1)).repairAt (.close 110)).map
        (fun repair => (repair.sealing.isSome, repair.header.readable, repair.tpm.responsive,
          repair.unsealed))
      = some (true, true, true, false) := by
    decide +kernel
  obtain ⟨repair, reached, shown⟩ := Option.map_eq_some_iff.mp seen
  obtain ⟨before, _, s, run, path, rfl, intact, settled⟩ := exists_run reached
  simp only [Prod.mk.injEq] at shown
  obtain ⟨sealed, readable, responsive, unsealed⟩ := shown
  have enrolled : s.repair.sealing ≠ none := Option.isSome_iff_ne_none.mp sealed
  have calm : s.Calm := ⟨intact, settled rfl, readable, responsive⟩
  refine ⟨before, s, run, path, enrolled, calm, unsealed, ?_⟩
  exact (repair_converges.2.2.2 run path).2.2 110 rfl enrolled calm unsealed

-----------------------------------------------------------------------------------------
-- The state a repair is bound to
-----------------------------------------------------------------------------------------

/-- Whatever others do to the registers, a token that is reported to be good holds the digest of
what systemd-cryptenroll found; that is the state its plan was made for exactly when the
registers then came to the digest that they came to in the plan's trial session.
-/
theorem verified_repair {volume : String} {index : UInt32}
    (run : (daemon setup rounds config dir).Runs (before ++ event :: after) outcome)
    (path : (Watched.watch platform setup.fromStr).Path (.of world) before s)
    (intact : s.intact)
    (reported : event.op = .log (.verifiedByUnsealing volume index)
      ∨ event.op = .log (.verifiedByPolicy volume index))
    : ∃ config device tpm plan measured values token,
        s.Recorded platform setup.fromStr config device tpm plan measured values token
        ∧ config.name = volume
        ∧ token.index = index
        ∧ (token.policyHash = plan.state
          ↔ platform.policy values config.bank config.pcrs.list
            = platform.policy measured config.bank config.pcrs.list) := by
  have allowed := wp_allows Watched.daemon_watched run path
  have verified : s.Verified platform setup.fromStr volume index := by
    rcases reported with unsealed | compared
    · rw [unsealed] at allowed
      exact allowed intact
    · rw [compared] at allowed
      exact allowed intact
  obtain ⟨config, device, tpm, plan, measured, values, token, recorded, named, at_index⟩ := verified
  refine ⟨config, device, tpm, plan, measured, values, token, recorded, named, at_index, ?_⟩
  rw [recorded.hash, recorded.state]

open Scene in
/-- Such a run, on a machine where others leave the register alone. -/
theorem verified_repair_home
    : ∃ (s : Watched Bytes String) (config : Volume) (device : Device) (tpm : Tpm)
        (plan : Preflight.Plan) (measured values : Bytes) (token : Tpm2Token),
        s.Recorded Scene.platform Scene.setup.fromStr config device tpm plan measured values token
        ∧ config.name = "home"
        ∧ token.index = 1
        ∧ (token.policyHash = plan.state
          ↔ Scene.platform.policy values config.bank config.pcrs.list
            = Scene.platform.policy measured config.bank config.pcrs.list) := by
  have reached : ((stale (List.replicate 32 1) (List.replicate 32 1)).repairAt
      (.log (.verifiedByPolicy "home" 1))).isSome = true := by
    decide +kernel
  obtain ⟨repair, reached⟩ := Option.isSome_iff_exists.mp reached
  obtain ⟨before, answer, s, run, path, _, intact, _⟩ := exists_run reached
  exact ⟨s, verified_repair run path intact (Or.inr rfl)⟩

open Scene in
/-- When the register is extended while the human is asked, the token is found good although it
is bound to another state than the one the human was asked about.
-/
theorem verified_repair_extended
    : ∃ (before : Trace) (event : Event) (s : Watched Bytes String) (config : Volume)
        (device : Device) (tpm : Tpm) (plan : Preflight.Plan) (measured values : Bytes)
        (token : Tpm2Token),
        (daemon Scene.setup 2 Config.defaultPath Sockets.defaultDir).Runs (before ++ [event]) none
        ∧ (Watched.watch Scene.platform Scene.setup.fromStr).Path
          (.of (stale (List.replicate 32 0) (List.replicate 32 1)).world) before s
        ∧ s.intact
        ∧ event.op = .log (.verifiedByPolicy "home" 1)
        ∧ s.Recorded Scene.platform Scene.setup.fromStr config device tpm plan measured values token
        ∧ config.name = "home"
        ∧ token.index = 1
        ∧ token.policyHash ≠ plan.state := by
  have seen : (((stale (List.replicate 32 0) (List.replicate 32 1)).repairAt
      (.log (.verifiedByPolicy "home" 1))).bind Repair.sealing).map
        (fun sealing => (sealing.measured, sealing.values))
      = some (some (List.replicate 32 0), List.replicate 32 1) := by
    decide +kernel
  obtain ⟨sealing, sealed, shown⟩ := Option.map_eq_some_iff.mp seen
  obtain ⟨repair, reached, sealed⟩ := Option.bind_eq_some_iff.mp sealed
  obtain ⟨before, answer, s, run, path, rfl, intact, _⟩ := exists_run reached
  have allowed := wp_allows Watched.daemon_watched run path
  obtain ⟨config, device, tpm, plan, measured, values, token, recorded, named, at_index⟩ :=
    allowed intact
  refine ⟨before, _, s, config, device, tpm, plan, measured, values, token, run, path, intact,
    rfl, recorded, named, at_index, ?_⟩
  rw [recorded.sealing] at sealed
  obtain rfl := Option.some.inj sealed
  have planned : measured = List.replicate 32 0 := Option.some.inj (Prod.mk.inj shown).1
  have found : values = List.replicate 32 1 := (Prod.mk.inj shown).2
  rw [recorded.hash, recorded.state, planned, found]
  show digestOf (List.replicate 32 1) ≠ digestOf (List.replicate 32 0)
  decide

end Tpm2Autoenroll
