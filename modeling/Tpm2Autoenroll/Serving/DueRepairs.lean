import Tpm2Autoenroll.Exchanges.Conversations
import Tpm2Autoenroll.Serving.ConsentHistory

/-! When a repair is due: what `maybe_reenroll` makes of a header, a TPM, a host and a human that
stay as they are while it decides.
-/

namespace Tpm2Autoenroll

open Interaction Prog
open Text (Bytes)
open Token (Tpm2Token)
open Consent (Answer Decisions)
open Preflight (Decision Plan)
open Tpm2 (Chip Extend Tpm)

/-- What a repair is decided by. -/
structure Circumstances where
  /-- What comes of a dump of the header. -/
  dump : Except String Output
  chip : Chip
  extend : Extend
  /-- The TPM's permanent attributes. -/
  permanent : UInt32
  reports : chip.property Tpm2.ptPermanent = some permanent
  /-- One session more can be opened. -/
  free : ∃ handle, chip.session handle = none
  /-- Which paths there are on the host. -/
  present : String → Bool
  /-- What comes of a consent prompt. -/
  consent : Except String Output

namespace Circumstances

variable (c : Circumstances) (fromStr : Json.Reader) (config : Volume)

/-- The tokens of the header, if it can be read. -/
def tokens : Option (List Tpm2Token) :=
  match c.dump with
  | .error _ => none
  | .ok out =>
      if out.status.success then (Token.parse fromStr (Text.fromUtf8Lossy out.stdout)).toOption
      else none

/-- The digest of the volume's policy over the current values of its registers. -/
def current : Bytes :=
  (c.extend Chip.fresh config.bank.id (c.chip.values config.bank.id config.pcrs.list)).val

/-- The header has one token, which a repair can replace and which its owner enrolled as
configured; nothing on the machine is against a repair; and the registers have changed.
-/
structure Due (token : Tpm2Token) : Prop where
  sole : c.tokens fromStr = some [token]
  plain : token.pin = false ∧ token.advanced = none
  same : token.pcrs = config.pcrs.list ∧ token.bank.getD "sha256" = config.bank.name
  unlocked : c.permanent.toNat.testBit 9 = false
  unhindered : ∀ path ∈ Preflight.publicKeyPaths ++ Preflight.pcrlockPaths, c.present path = false
  stale : c.current config ≠ token.policyHash

/-- The plan that replaces a token. -/
def plan (token : Tpm2Token) : Plan := ⟨some token.index, token.policyHash, c.current config⟩

/-- The boot state has not been declined in this run. -/
def Undeclined (decided : Decisions) : Prop :=
  ¬ (c.current config ≠ [] ∧ decided.declined (c.current config) = true)

/-- What is remembered for the boot state does not settle it. -/
def Undecided (decided : Decisions) : Prop :=
  c.Undeclined config decided ∧ decided.accepted (c.current config) = false

/-- The boot state has been accepted for good, or is accepted now. -/
def Agreed (decided : Decisions) : Prop :=
  c.Undeclined config decided
  ∧ (decided.accepted (c.current config) = true ∨ Consent.answered c.consent ≠ .no)

/-- What a machine in these circumstances answers, the TPM's commands apart. -/
def Says : Event → Prop
  | ⟨.child (.luksDump _), dumped⟩ => dumped = c.dump
  | ⟨.child (.askConsent _ _ _ _), answer⟩ => answer = c.consent
  | ⟨.symlinkMetadata path, found⟩ => found = c.present path
  | ⟨.terminating, stop⟩ => stop = false
  | ⟨.openFile _ _, opened⟩ => ∃ fd, opened = .ok fd
  | ⟨.fstat _, fileType⟩ => fileType = .ok .characterDevice
  | ⟨.secretFile _, file⟩ => ∃ fd, file = .ok fd
  | _ => True

end Circumstances

/-- The consent prompt for a volume. -/
def Op.prompts (config : Volume) (op : Op) : Bool :=
  decide (op = .child (.askConsent config.name config.device config.pcrs.list config.bank))

/-- The enrollment of a volume with a passphrase. -/
def Op.enrolls (config : Volume) (device : Device) (secret : Secret) : Op → Bool
  | .child (.cryptenroll opened tpm2Device pcrs bank key) =>
      decide (opened = device ∧ tpm2Device = config.tpm2Device ∧ pcrs = config.pcrs.list
        ∧ bank = config.bank ∧ key.secret = secret)
  | _ => false

/-- How far a repair has come. -/
structure Course where
  chip : Chip
  prompted : Bool
  enrolled : Bool

namespace Course

variable {c : Circumstances} {fromStr : Json.Reader} {config : Volume} {device : Device}
  {secret : Secret} {tpm : Tpm} {decided : Decisions}

/-- The monitor of a repair in given circumstances, which hold until systemd-cryptenroll is
started.
-/
def deciding (c : Circumstances) (config : Volume) (device : Device) (secret : Secret)
    : Monitor Res Course where
  allows s op := s.enrolled = false → (Tpm2.talking c.extend False).allows s.chip op
  step s event after :=
    (s.enrolled = false
      → c.Says event ∧ (Tpm2.talking c.extend False).step s.chip event after.chip)
    ∧ after.prompted = (s.prompted || event.op.prompts config)
    ∧ after.enrolled = (s.enrolled || event.op.enrolls config device secret)

/-- The course before the enrollment. -/
abbrev before (c : Circumstances) (prompted : Bool) : Course := ⟨c.chip, prompted, false⟩

/-- The marks of a course are those of the trace, by induction on the path. -/
theorem marks {s after : Course} {trace : Trace}
    (path : (deciding c config device secret).Path s trace after)
    : after.prompted = (s.prompted || trace.any fun event => event.op.prompts config)
      ∧ after.enrolled
        = (s.enrolled || trace.any fun event => event.op.enrolls config device secret) := by
  induction path with
  | nil => simp
  | cons first later ih =>
      obtain ⟨_, prompted, enrolled⟩ := first
      obtain ⟨promptedLater, enrolledLater⟩ := ih
      rw [promptedLater, enrolledLater, prompted, enrolled]
      simp [Bool.or_assoc]

-----------------------------------------------------------------------------------------
-- Before the enrollment
-----------------------------------------------------------------------------------------

/-- The requests that leave a course as it is. -/
def glances : Op → Prop
  | .terminating | .log _ | .openFile _ _ | .fstat _ | .symlinkMetadata _ | .secretFile _ => True
  | .child (.luksDump _) => True
  | _ => False

/-- The rule of a request that leaves the course as it is. -/
theorem glance_wp {α : Type} {op : Op} {next : Res op → Sys α} {post : α → Course → Prop}
    {prompted : Bool} (glance : glances op)
    (rest : ∀ answer, c.Says ⟨op, answer⟩
      → wp (deciding c config device secret) (next answer) post (before c prompted))
    : wp (deciding c config device secret) (ask op >>= next) post (before c prompted) := by
  have still {answer : Res op} {after : Course}
      (step : (deciding c config device secret).step (before c prompted) ⟨op, answer⟩ after)
      : c.Says ⟨op, answer⟩ ∧ after = before c prompted := by
    obtain ⟨chip, asked, enrolled⟩ := after
    obtain ⟨circumstances, marked, unmarked⟩ := step
    obtain ⟨told, same⟩ := circumstances rfl
    cases op with
    | child process =>
        cases process with
        | luksDump opened =>
            obtain rfl : chip = c.chip := same
            obtain rfl : asked = prompted := by simpa [Op.prompts] using marked
            obtain rfl : enrolled = false := unmarked
            exact ⟨told, rfl⟩
        | _ => exact glance.elim
    | terminating | log | openFile | fstat | symlinkMetadata | secretFile =>
        obtain rfl : chip = c.chip := same
        obtain rfl : asked = prompted := by simpa [Op.prompts] using marked
        obtain rfl : enrolled = false := unmarked
        exact ⟨told, rfl⟩
    | _ => exact glance.elim
  have allowed : (deciding c config device secret).allows (before c prompted) op := by
    intro _
    cases op with
    | tpm => exact glance.elim
    | _ => trivial
  refine wp_ask allowed fun answer after step => ?_
  obtain ⟨told, rfl⟩ := still step
  exact rest answer told

/-- A last log line. -/
theorem log_wp {line : LogLine} {post : Unit → Course → Prop} {prompted : Bool}
    (ended : post () (before c prompted))
    : wp (deciding c config device secret) (log line) post (before c prompted) :=
  @glance_wp c config device secret _ (.log line) pure post prompted trivial fun _ _ => ended

/-- A conversation with the TPM goes as it does anywhere. -/
theorem talk_wp {α : Type} {program : SysE α} {value : α} {prompted : Bool}
    (only : program.run.Only Tpm2.Op.talks)
    (speaks : wp (Tpm2.talking c.extend False) program.run (Tpm2.Learned False value c.chip) c.chip)
    : wp (deciding c config device secret) program.run
        (fun result after => result = .ok value ∧ after = before c prompted)
        (before c prompted) := by
  have embedded : wp (deciding c config device secret) program.run
      (fun result after => ∃ chip, after = Course.mk chip prompted false
        ∧ Tpm2.Learned False value c.chip result chip)
      (before c prompted) := by
    refine wp_embed only (fun _ _ _ allowed _ => allowed) ?_ speaks
    intro chip op answer after talks step
    obtain ⟨later, asked, enrolled⟩ := after
    obtain ⟨circumstances, marked, unmarked⟩ := step
    obtain ⟨_, exchanged⟩ := circumstances rfl
    cases op with
    | tpm | log =>
        obtain rfl : asked = prompted := by simpa [Op.prompts] using marked
        obtain rfl : enrolled = false := unmarked
        exact ⟨later, rfl, exchanged⟩
    | _ => exact talks.elim
  refine wp_mono embedded fun result after facts => ?_
  obtain ⟨chip, rfl, rfl, learned | refused⟩ := facts
  · exact ⟨learned, rfl⟩
  · exact refused.1.elim

-----------------------------------------------------------------------------------------
-- The decision
-----------------------------------------------------------------------------------------

theorem open_wp {name : String} {prompted : Bool}
    : wp (deciding c config device secret) (Tpm.open name).run
        (fun result after => (∃ tpm, result = .ok tpm) ∧ after = before c prompted)
        (before c prompted) := by
  refine Fallible.wp_bind.mpr (glance_wp trivial fun opened told => ?_)
  obtain ⟨fd, rfl⟩ := told
  refine Fallible.wp_bind.mpr (glance_wp trivial fun fileType told => ?_)
  obtain rfl := told
  exact ⟨⟨⟨fd⟩, rfl⟩, rfl⟩

theorem read_wp {opened : Device} {prompted : Bool}
    : wp (deciding c config device secret) (Token.read fromStr opened)
        (fun result after => result.toOption = c.tokens fromStr ∧ after = before c prompted)
        (before c prompted) := by
  refine glance_wp trivial fun dumped told => ?_
  obtain rfl : dumped = c.dump := told
  rw [Circumstances.tokens]
  rcases c.dump with e | out
  · exact ⟨rfl, rfl⟩
  · dsimp only
    split_ifs with failed succeeded succeeded
    · simp_all
    · exact ⟨rfl, rfl⟩
    · exact ⟨rfl, rfl⟩
    · simp_all

/-- The paths are looked for until there is one, by induction on them. -/
theorem hostPolicy_wp {paths : List String} {prompted : Bool}
    : wp (deciding c config device secret) (Preflight.hostPolicy paths)
        (fun refusal after => (refusal = none ↔ ∀ path ∈ paths, c.present path = false)
          ∧ after = before c prompted)
        (before c prompted) := by
  induction paths with
  | nil => simp [Preflight.hostPolicy]
  | cons path rest ih =>
      refine glance_wp trivial fun found told => ?_
      obtain rfl : found = c.present path := told
      cases there : c.present path with
      | true => simp [there]
      | false => simpa [there] using ih

/-- A token that a repair can replace is stale when the registers have changed. -/
theorem drift_wp {token : Tpm2Token} {prompted : Bool}
    (plain : token.pin = false ∧ token.advanced = none)
    : wp (deciding c config device secret) (Drift.check tpm token config.pcrs.list config.bank)
        (fun drift after =>
          drift = (if c.current config = token.policyHash then .unchanged
            else .drifted token.policyHash (c.current config))
          ∧ after = before c prompted)
        (before c prompted) := by
  obtain ⟨pinless, literal⟩ := plain
  rw [Drift.check, literal]
  dsimp only
  rw [if_neg (by simp [pinless]), if_neg config.pcrs.nonempty]
  have digest : (c.extend Chip.fresh config.bank.id
      (c.chip.values config.bank.id (Sorting.sortDedup config.pcrs.list))).val
      = c.current config := by
    rw [Sorting.sortDedup_of_ascending config.pcrs.ascending, Circumstances.current]
  have spoken : wp (deciding c config device secret)
      (tpm.pcrPolicyDigest config.bank config.pcrs.list).run
      (fun result after => result = .ok (c.current config) ∧ after = before c prompted)
      (before c prompted) := by
    refine talk_wp ?_ ?_
    · exact Tpm.pcrPolicyDigest_only trivial (fun _ => trivial) (fun _ => trivial)
        (fun _ => trivial) fun _ _ => trivial
    · rw [← digest]
      exact Tpm2.pcrPolicyDigest_talks config.pcrs.inRange c.free
  refine wp_then spoken fun result after facts => ?_
  obtain ⟨rfl, rfl⟩ := facts
  dsimp only
  split_ifs with same
  · exact ⟨rfl, rfl⟩
  · exact ⟨rfl, rfl⟩

/-- The tokens that a repair can replace. -/
theorem tokenRefusal_none {token : Tpm2Token}
    : Preflight.tokenRefusal token = none ↔ token.pin = false ∧ token.advanced = none := by
  rw [Preflight.tokenRefusal]
  split_ifs with pin <;> simp [pin]

/-- What is decided is right. -/
def Right (c : Circumstances) (fromStr : Json.Reader) (config : Volume) : Decision → Prop
  | .reenroll plan => ∃ token, c.Due fromStr config token ∧ plan = c.plan config token
  | .leave _ => ∀ token, ¬ c.Due fromStr config token

/-- The token of a header that has one is replaced when that is due. -/
theorem drifted_wp {token : Tpm2Token} {prompted : Bool}
    (sole : c.tokens fromStr = some [token]) (unlocked : c.permanent.toNat.testBit 9 = false)
    : wp (deciding c config device secret) (Preflight.drifted token config tpm)
        (fun decision after => Right c fromStr config decision ∧ after = before c prompted)
        (before c prompted) := by
  have only {other : Tpm2Token} (due : c.Due fromStr config other) : other = token := by
    have both := due.sole.symm.trans sole
    simpa using both
  rw [Preflight.drifted]
  cases refusal : Preflight.tokenRefusal token with
  | some why =>
      refine ⟨fun other due => ?_, rfl⟩
      obtain rfl := only due
      cases refusal.symm.trans (tokenRefusal_none.mpr due.plain)
  | none =>
      have plain := tokenRefusal_none.mp refusal
      cases agreed : Preflight.sameSelection token config with
      | error why =>
          refine ⟨fun other due => ?_, rfl⟩
          obtain rfl := only due
          cases agreed.symm.trans (Preflight.sameSelection_ok.mpr due.same)
      | ok =>
          have same := Preflight.sameSelection_ok.mp agreed
          refine wp_then hostPolicy_wp fun hindrance after facts => ?_
          obtain ⟨host, rfl⟩ := facts
          cases hindrance with
          | some why =>
              refine ⟨fun other due => ?_, rfl⟩
              cases host.mpr due.unhindered
          | none =>
              refine wp_then (drift_wp plain) fun drift after facts => ?_
              obtain ⟨rfl, rfl⟩ := facts
              split_ifs with kept
              · refine ⟨fun other due => ?_, rfl⟩
                obtain rfl := only due
                exact due.stale kept
              · exact ⟨⟨token, ⟨sole, plain, same, unlocked, host.mp rfl, kept⟩, rfl⟩, rfl⟩

/-- A repair is planned exactly when it is due. -/
theorem check_wp {prompted : Bool}
    : wp (deciding c config device secret) (Preflight.check fromStr config.name config device tpm)
        (fun decision after => Right c fromStr config decision ∧ after = before c prompted)
        (before c prompted) := by
  refine wp_then read_wp fun tokens after facts => ?_
  obtain ⟨header, rfl⟩ := facts
  have undue (other : c.tokens fromStr = none) (token : Tpm2Token)
      : ¬ c.Due fromStr config token := fun due => by
    cases other.symm.trans due.sole
  cases tokens with
  | error e => exact ⟨undue header.symm, rfl⟩
  | ok tokens =>
      have asked : wp (deciding c config device secret) tpm.lockout.run
          (fun result after =>
            result = .ok (c.chip.lockout c.permanent) ∧ after = before c prompted)
          (before c prompted) :=
        talk_wp (Tpm.lockout_only fun _ => trivial) (Tpm2.lockout_talks c.reports)
      refine wp_then asked fun result after facts => ?_
      obtain ⟨rfl, rfl⟩ := facts
      dsimp only
      split_ifs with locked
      · refine ⟨fun token due => ?_, rfl⟩
        cases due.unlocked.symm.trans locked
      · have unlocked : c.permanent.toNat.testBit 9 = false := Bool.not_eq_true _ ▸ locked
        refine glance_wp trivial fun _ _ => ?_
        match tokens with
        | [token] => exact drifted_wp header.symm unlocked
        | [] | _ :: _ :: _ =>
            refine ⟨fun token due => ?_, rfl⟩
            cases header.trans due.sole

-----------------------------------------------------------------------------------------
-- Carrying it out
-----------------------------------------------------------------------------------------

variable {plan : Plan}

theorem logValues_wp {volume : String} {values : List (UInt8 × Bytes)} {prompted : Bool}
    : wp (deciding c config device secret) (Preflight.logValues volume values)
        (fun _ after => after = before c prompted) (before c prompted) := by
  induction values with
  | nil => rfl
  | cons value rest ih => exact glance_wp trivial fun _ _ => ih

/-- Announcing a plan changes nothing. -/
theorem announce_wp {prompted : Bool}
    : wp (deciding c config device secret) (announce config tpm plan)
        (fun _ after => after = before c prompted) (before c prompted) := by
  have registers : wp (deciding c config device secret) (Preflight.logState config.name tpm config)
      (fun _ after => after = before c prompted) (before c prompted) := by
    have asked := @talk_wp c config device secret _ (tpm.readPcrs config.bank config.pcrs.list) _
      prompted (Tpm.readPcrs_only fun _ _ => trivial) (Tpm2.readPcrs_talks config.pcrs.inRange)
    refine wp_then asked fun result after facts => ?_
    obtain ⟨rfl, rfl⟩ := facts
    exact logValues_wp
  rw [announce]
  split_ifs
  · exact glance_wp trivial fun _ _ => registers
  · exact glance_wp trivial fun _ _ => registers

/-- The prompt is shown once and answered as it is in the circumstances. -/
theorem ask_wp
    : wp (deciding c config device secret)
        (Consent.ask config.name config.device config.pcrs.list config.bank)
        (fun answer after => answer = Consent.answered c.consent ∧ after = before c true)
        (before c false) := by
  refine wp_ask (fun _ => trivial) fun output after step => ?_
  obtain ⟨chip, asked, enrolled⟩ := after
  obtain ⟨circumstances, marked, unmarked⟩ := step
  obtain ⟨told, same⟩ := circumstances rfl
  obtain rfl : chip = c.chip := same
  obtain rfl : asked = true := by simpa [Op.prompts] using marked
  obtain rfl : enrolled = false := unmarked
  obtain rfl : output = c.consent := told
  rcases c.consent with e | out
  · exact glance_wp trivial fun _ _ => ⟨rfl, rfl⟩
  · rw [Consent.answered]
    dsimp only
    split_ifs
    · exact ⟨rfl, rfl⟩
    · exact glance_wp trivial fun _ _ => ⟨rfl, rfl⟩

/-- What comes of the consent step: whether to go on, what is remembered, and whether the prompt
was shown.
-/
theorem seekConsent_wp (state : plan.state = c.current config)
    : wp (deciding c config device secret) (seekConsent config plan decided)
        (fun result after =>
          if decided.accepted (c.current config) then
            result = (true, decided) ∧ after = before c false
          else
            result = (decide (Consent.answered c.consent ≠ .no),
                ConsentLog.remembered decided (c.current config) (Consent.answered c.consent))
              ∧ after = before c true)
        (before c false) := by
  rw [seekConsent, state]
  by_cases accepted : decided.accepted (c.current config) = true
  · rw [if_pos accepted]
    simp [accepted]
  · rw [if_neg accepted]
    simp only [accepted]
    refine glance_wp trivial fun stop told => ?_
    obtain rfl : stop = false := told
    refine wp_then ask_wp fun answer after facts => ?_
    obtain ⟨rfl, rfl⟩ := facts
    cases answer : Consent.answered c.consent with
    | no => exact glance_wp trivial fun _ _ => ⟨rfl, rfl⟩
    | yes => exact ⟨rfl, rfl⟩
    | always => exact glance_wp trivial fun _ _ => ⟨rfl, rfl⟩

/-- Once enrolled, whatever may happen, no prompt is shown. -/
theorem verifying_wp {α : Type} {program : Sys α} {s : Course} (only : program.Only Op.verifying)
    (enrolled : s.enrolled = true)
    : wp (deciding c config device secret) program
        (fun _ after => after.prompted = s.prompted ∧ after.enrolled = true) s := by
  refine wp_invariant only False.elim ?_ ?_ ⟨rfl, enrolled⟩
  · intro state op _ held going
    cases held.2.symm.trans going
  · intro state op answer after verifying held step
    obtain ⟨_, marked, still⟩ := step
    have unasked : op.prompts config = false := by
      cases op with
      | child process => cases process <;> simp_all [Op.prompts]
      | _ => rfl
    rw [marked, still, held.1, held.2, unasked]
    exact ⟨Bool.or_false _, rfl⟩

/-- The enrollment is started. -/
theorem enrollAndVerify_wp {prompted : Bool}
    : wp (deciding c config device secret)
        (enrollAndVerify fromStr config device secret tpm plan)
        (fun _ after => after.prompted = prompted ∧ after.enrolled = true) (before c prompted) := by
  refine glance_wp trivial fun stop told => ?_
  obtain rfl : stop = false := told
  have enrolled : wp (deciding c config device secret)
      (Enroll.run device config.tpm2Device config.pcrs.list config.bank secret)
      (fun _ after => after.prompted = prompted ∧ after.enrolled = true) (before c prompted) := by
    rw [Enroll.run, if_neg config.pcrs.nonempty]
    refine glance_wp trivial fun file told => ?_
    obtain ⟨fd, rfl⟩ := told
    refine wp_ask (fun _ => trivial) fun output after step => ?_
    obtain ⟨_, marked, started⟩ := step
    have facts : after.prompted = prompted ∧ after.enrolled = true := by
      rw [marked, started]
      simp [Op.prompts, Op.enrolls]
    rcases output with e | out
    · exact facts
    · dsimp only
      split_ifs <;> exact facts
  refine wp_then enrolled fun result after facts => ?_
  obtain ⟨shown, started⟩ := facts
  cases result with
  | error e =>
      have logged : (log (.enrollmentFailed config.name e)).Only Op.verifying :=
        ⟨trivial, fun _ => trivial⟩
      exact wp_mono (verifying_wp logged started) fun _ _ held => ⟨held.1.trans shown, held.2⟩
  | ok =>
      exact wp_mono (verifying_wp verify_only started) fun _ _ held => ⟨held.1.trans shown, held.2⟩

/-- What comes of a repair: the prompt and the enrollment when they are called for, and what is
remembered.
-/
structure Settles (c : Circumstances) (config : Volume) (decided : Decisions) (due : Prop)
    (result : Decisions) (after : Course) : Prop where
  prompted : after.prompted = true ↔ due ∧ c.Undecided config decided
  enrolled : after.enrolled = true ↔ due ∧ c.Agreed config decided
  remembers
    : after.prompted = true
      → result = ConsentLog.remembered decided (c.current config) (Consent.answered c.consent)
  keeps : after.prompted = false → result = decided

theorem Settles.undue {due : Prop} (undue : ¬ due)
    : Settles c config decided due decided (before c false) where
  prompted := by simp [undue]
  enrolled := by simp [undue]
  remembers := nofun
  keeps _ := rfl

theorem carryOut_wp (state : plan.state = c.current config)
    : wp (deciding c config device secret)
        (carryOut fromStr config device secret decided tpm plan)
        (Settles c config decided True) (before c false) := by
  refine wp_then announce_wp fun _ after unchanged => ?_
  obtain rfl := unchanged
  dsimp only
  split_ifs with declined
  · refine glance_wp trivial fun _ _ => ?_
    rw [state] at declined
    have against : ¬ c.Undeclined config decided := fun undeclined => undeclined declined
    exact {
      prompted := by simp [Circumstances.Undecided, against]
      enrolled := by simp [Circumstances.Agreed, against]
      remembers := nofun
      keeps := fun _ => rfl
    }
  · rw [state] at declined
    have undeclined : c.Undeclined config decided := declined
    refine wp_then (seekConsent_wp state) fun result after sought => ?_
    obtain ⟨agreed, remembered⟩ := result
    cases accepted : decided.accepted (c.current config) with
    | true =>
        rw [accepted, if_pos rfl] at sought
        obtain ⟨outcome, rfl⟩ := sought
        obtain ⟨rfl, rfl⟩ := Prod.mk.inj outcome
        refine wp_then enrollAndVerify_wp fun _ after facts => ?_
        obtain ⟨shown, started⟩ := facts
        exact {
          prompted := by simp [shown, Circumstances.Undecided, accepted]
          enrolled := by simp [started, Circumstances.Agreed, accepted, undeclined]
          remembers := fun asked => by cases asked.symm.trans shown
          keeps := fun _ => rfl
        }
    | false =>
        rw [accepted, if_neg Bool.false_ne_true] at sought
        obtain ⟨outcome, rfl⟩ := sought
        obtain ⟨consented, rfl⟩ := Prod.mk.inj outcome
        cases agreed with
        | true =>
            have yes : Consent.answered c.consent ≠ .no := of_decide_eq_true consented.symm
            refine wp_then enrollAndVerify_wp fun _ after facts => ?_
            obtain ⟨shown, started⟩ := facts
            exact {
              prompted := by simp [shown, Circumstances.Undecided, accepted, undeclined]
              enrolled := by simp [started, Circumstances.Agreed, yes, undeclined]
              remembers := fun _ => rfl
              keeps := fun unasked => by cases unasked.symm.trans shown
            }
        | false =>
            have no : ¬ Consent.answered c.consent ≠ .no := of_decide_eq_false consented.symm
            exact {
              prompted := by simp [Circumstances.Undecided, accepted, undeclined]
              enrolled := by simp [Circumstances.Agreed, accepted, no]
              remembers := fun _ => rfl
              keeps := nofun
            }

theorem maybeReenroll_wp
    : wp (deciding c config device secret) (maybeReenroll fromStr config device secret decided)
        (Settles c config decided (∃ token, c.Due fromStr config token)) (before c false) := by
  refine glance_wp trivial fun stop told => ?_
  obtain rfl : stop = false := told
  refine wp_then open_wp fun opened after facts => ?_
  obtain ⟨⟨tpm, rfl⟩, rfl⟩ := facts
  refine wp_then check_wp fun decision after facts => ?_
  obtain ⟨right, rfl⟩ := facts
  cases decision with
  | leave why => exact glance_wp trivial fun _ _ => .undue fun ⟨token, due⟩ => right token due
  | reenroll plan =>
      obtain ⟨token, due, rfl⟩ := right
      have wanted : (∃ token, c.Due fromStr config token) = True := eq_true ⟨token, due⟩
      rw [wanted]
      exact carryOut_wp rfl

/-- There is an answer to everything but a command that the circumstances leave open. -/
theorem exists_told {op : Op} (repairing : op.repairing)
    : (∃ fd cmd, op = .tpm fd cmd)
      ∨ ∃ answer, c.Says ⟨op, answer⟩
        ∧ ∀ chip, (Tpm2.talking c.extend False).step chip ⟨op, answer⟩ chip := by
  cases op with
  | tpm fd cmd => exact Or.inl ⟨fd, cmd, rfl⟩
  | terminating => exact Or.inr ⟨false, rfl, fun _ => rfl⟩
  | log line => exact Or.inr ⟨(), trivial, fun _ => rfl⟩
  | openFile path write => exact Or.inr ⟨.ok 0, ⟨0, rfl⟩, fun _ => rfl⟩
  | fstat fd => exact Or.inr ⟨.ok .characterDevice, rfl, fun _ => rfl⟩
  | symlinkMetadata path => exact Or.inr ⟨c.present path, rfl, fun _ => rfl⟩
  | secretFile secret => exact Or.inr ⟨.ok 0, ⟨0, rfl⟩, fun _ => rfl⟩
  | child process =>
      cases process with
      | luksDump opened => exact Or.inr ⟨c.dump, rfl, fun _ => rfl⟩
      | askConsent volume path pcrs bank => exact Or.inr ⟨c.consent, rfl, fun _ => rfl⟩
      | testUnseal opened index => exact Or.inr ⟨.error "", trivial, fun _ => rfl⟩
      | cryptenroll opened name pcrs bank key => exact Or.inr ⟨.error "", trivial, fun _ => rfl⟩
      | _ => exact repairing.elim
  | _ => exact repairing.elim

/-- A machine in these circumstances can answer all of it. -/
theorem deciding_answers {s : Course} {op : Op} (repairing : op.repairing)
    (allowed : (deciding c config device secret).allows s op)
    : ∃ answer after, (deciding c config device secret).step s ⟨op, answer⟩ after := by
  obtain ⟨chip, prompted, enrolled⟩ := s
  rcases @exists_told c op repairing with ⟨fd, cmd, rfl⟩ | ⟨answer, told, still⟩
  · cases enrolled with
    | true => exact ⟨.timeout, ⟨chip, _, _⟩, nofun, rfl, rfl⟩
    | false =>
        obtain ⟨answer, after, step⟩ :=
          @Tpm2.talking_answers c.extend False chip (.tpm fd cmd) trivial (allowed rfl)
        exact ⟨answer, ⟨after, _, _⟩, fun _ => ⟨trivial, step⟩, rfl, rfl⟩
  · exact ⟨answer, ⟨chip, _, _⟩, fun _ => ⟨told, still chip⟩, rfl, rfl⟩

end Course

/-- A repair is made exactly when it is due and agreed to. Whatever header, TPM, host and human a
connection finds, as long as they stay as they are until systemd-cryptenroll is started: the
consent prompt is shown in exactly those runs in which a repair is due and the decisions of this
run leave it open, and the volume is enrolled with the passphrase in exactly those in which it is
due and agreed to, now or for good. What is remembered afterwards is the answer, if there was a
prompt. There is such a run.
-/
theorem repaired_when_due {c : Circumstances} {fromStr : Json.Reader} {config : Volume}
    {device : Device} {secret : Secret} {decided : Decisions}
    : (∀ trace result after,
        (maybeReenroll fromStr config device secret decided).Runs trace (some result)
        → (Course.deciding c config device secret).Path (.before c false) trace after
        → ((∃ event ∈ trace, event.op.prompts config = true)
            ↔ (∃ token, c.Due fromStr config token) ∧ c.Undecided config decided)
          ∧ ((∃ event ∈ trace, event.op.enrolls config device secret = true)
            ↔ (∃ token, c.Due fromStr config token) ∧ c.Agreed config decided)
          ∧ ((∃ event ∈ trace, event.op.prompts config = true)
            → result = ConsentLog.remembered decided (c.current config)
                (Consent.answered c.consent))
          ∧ ((¬ ∃ event ∈ trace, event.op.prompts config = true) → result = decided))
      ∧ ∃ trace result after,
          (maybeReenroll fromStr config device secret decided).Runs trace (some result)
          ∧ (Course.deciding c config device secret).Path (.before c false) trace after := by
  refine ⟨fun trace result after run path => ?_, ?_⟩
  · obtain ⟨prompted, enrolled⟩ := Course.marks path
    have settles := wp_post Course.maybeReenroll_wp run path
    have shown : after.prompted = true ↔ ∃ event ∈ trace, event.op.prompts config = true := by
      rw [prompted]
      simp
    have started
        : after.enrolled = true
          ↔ ∃ event ∈ trace, event.op.enrolls config device secret = true := by
      rw [enrolled]
      simp
    refine ⟨shown.symm.trans settles.prompted, started.symm.trans settles.enrolled, ?_, ?_⟩
    · exact fun asked => settles.remembers (shown.mpr asked)
    · intro unasked
      exact settles.keeps (Bool.eq_false_iff.mpr fun asked => unasked (shown.mp asked))
  · obtain ⟨trace, result, after, run, path, _⟩ :=
      exists_run_of_may (may_of_wp Course.maybeReenroll_wp maybeReenroll_only
        fun _ _ => Course.deciding_answers)
    exact ⟨trace, result, after, run, path⟩

namespace Scene

/-- The root volume's header is bound to another state, and the human agrees to a repair. -/
def rootStale : Circumstances where
  dump := exited 0 (header "0" "00")
  chip := Chip.blank
  extend _ _ _ := ⟨[0xaa], Nat.le_of_ble_eq_true rfl⟩
  permanent := 0
  reports := rfl
  free := ⟨0, rfl⟩
  present _ := false
  consent := exited 0 "yes"

def boundElsewhere : Tpm2Token := ⟨0, [7], some "sha256", [0], false, none⟩

theorem rootStale_due {config : Volume} (pcrs : config.pcrs.list = [7])
    (bank : config.bank = .sha256)
    : rootStale.Due setup.fromStr config boundElsewhere where
  sole := by decide +kernel
  plain := ⟨rfl, rfl⟩
  same := ⟨pcrs.symm, congrArg Tpm2.Bank.name bank.symm⟩
  unlocked := rfl
  unhindered _ _ := rfl
  stale := fun same => by cases same

/-- A stale binding is repaired. -/
theorem repaired_when_due_root
    : ∃ config : Volume, config.pcrs.list = [7] ∧ ∃ trace result after,
        (maybeReenroll setup.fromStr config ⟨5, "/dev/vda2"⟩ ⟨[1]⟩ .new).Runs trace (some result)
        ∧ (Course.deciding rootStale config ⟨5, "/dev/vda2"⟩ ⟨[1]⟩).Path (.before rootStale false)
          trace after
        ∧ (∃ event ∈ trace, event.op.prompts config = true)
        ∧ ∃ event ∈ trace, event.op.enrolls config ⟨5, "/dev/vda2"⟩ ⟨[1]⟩ = true := by
  obtain ⟨config, pcrs, bank⟩
      : ∃ config : Volume, config.pcrs.list = [7] ∧ config.bank = .sha256 :=
    ⟨⟨"root", "/dev/vda2", "auto", ⟨[7], by simp, by simp, by simp⟩, .sha256⟩, rfl, rfl⟩
  obtain ⟨decides, trace, result, after, run, path⟩ :=
    @repaired_when_due rootStale setup.fromStr config ⟨5, "/dev/vda2"⟩ ⟨[1]⟩ .new
  obtain ⟨prompted, enrolled, _⟩ := decides trace result after run path
  have due : ∃ token, rootStale.Due setup.fromStr config token := ⟨_, rootStale_due pcrs bank⟩
  have undeclined : rootStale.Undeclined config .new := fun ⟨_, declined⟩ => by
    simp [Decisions.new] at declined
  have undecided : Decisions.new.accepted (rootStale.current config) = false := by
    simp [Decisions.accepted, Decisions.new]
  have yes : Consent.answered rootStale.consent ≠ .no := by decide +kernel
  refine ⟨config, pcrs, trace, result, after, run, path, ?_, ?_⟩
  · exact prompted.mpr ⟨due, undeclined, undecided⟩
  · exact enrolled.mpr ⟨due, undeclined, Or.inr yes⟩

end Scene

end Tpm2Autoenroll
