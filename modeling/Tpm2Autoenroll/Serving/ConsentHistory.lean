import Mathlib.Data.Finset.Disjoint
import Tpm2Autoenroll.Serving.Outcomes
import Tpm2Autoenroll.Serving.Rules
import Tpm2Autoenroll.Serving.Scenes

/-! What was asked and answered over a whole run, and what that entitles the daemon to: which
enrollments a consent covers, and which questions are not asked again.
-/

namespace Tpm2Autoenroll

open Interaction Prog Monitor
open Text (Bytes)
open Consent (Answer Decisions)
open Tpm2 (Tpm Bank)

/-- The digest that the answer to a PolicyGetDigest command reports. -/
def Tpm2.reportedDigest (cmd buf : Bytes) : Option Bytes :=
  if commandCode cmd = putU32 ccPolicyGetDigest then
    ((responsePayload buf).bind parseDigest).toOption
  else
    none

/-- What the answer to a consent prompt amounts to. -/
def Consent.answered : Except String Output → Answer
  | .ok out => if out.status.success then classifyResponse out.stdout else .no
  | .error _ => .no

/-- What a run shows about consent: the boot state last computed in this connection, and the
answers given in this connection and in earlier ones, each with the state it was given for.
-/
structure ConsentLog where
  state : Option Bytes
  current : List (Bytes × Answer)
  earlier : List (Bytes × Answer)
  deriving DecidableEq

namespace ConsentLog

/-- All answers of the run so far. -/
def answers (log : ConsentLog) : List (Bytes × Answer) := log.earlier ++ log.current

/-- An answer to the prompt of this connection. -/
def record (log : ConsentLog) (answer : Answer) : ConsentLog :=
  match log.state with
  | some state => { log with current := log.current ++ [(state, answer)] }
  | none => log

def observe : ConsentLog → Event → ConsentLog
  | log, ⟨.accept _, .ok _⟩ => ⟨none, [], log.answers⟩
  | log, ⟨.tpm _ cmd, .response buf⟩ =>
      match Tpm2.reportedDigest cmd buf with
      | some digest => { log with state := some digest }
      | none => log
  | log, ⟨.child (.askConsent _ _ _ _), result⟩ => log.record (Consent.answered result)
  | log, _ => log

/-- What a run shows from its beginning. -/
def of (trace : Trace) : ConsentLog := trace.foldl observe ⟨none, [], []⟩

/-- The human said yes to the prompt of this connection, once or for all. -/
def Granted (log : ConsentLog) (state : Bytes) : Prop :=
  (state, .yes) ∈ log.current ∨ (state, .always) ∈ log.current

/-- Enrolling needs a state; the prompt of this connection granted it unless an earlier answer
for that state covers it, and a state with a name was never declined. Asking needs a state
too, and one with a name must not have been decided before.
-/
def allows (log : ConsentLog) : Op → Prop
  | .child (.cryptenroll _ _ _ _ _) =>
      ∃ state, log.state = some state
        ∧ (log.Granted state ↔ (state, .always) ∉ log.earlier)
        ∧ (state ≠ [] → (state, .no) ∉ log.answers)
  | .child (.askConsent _ _ _ _) =>
      ∃ state, log.state = some state
        ∧ (state ≠ [] → (state, .no) ∉ log.answers ∧ (state, .always) ∉ log.answers)
  | _ => True

/-- Requests whose answers say nothing about consent. -/
@[simp]
def unseen : Op → Prop
  | .accept _ | .child (.askConsent _ _ _ _) | .child (.cryptenroll _ _ _ _ _) => False
  | .tpm _ cmd => Tpm2.commandCode cmd ≠ Tpm2.putU32 Tpm2.ccPolicyGetDigest
  | _ => True

theorem observe_unseen {log : ConsentLog} {event : Event} (quiet : unseen event.op)
    : log.observe event = log := by
  obtain ⟨op, answer⟩ := event
  cases op with
  | accept fd => exact quiet.elim
  | child process => cases process <;> first | rfl | exact quiet.elim
  | tpm fd cmd =>
      cases answer with
      | response buf =>
          have none : Tpm2.reportedDigest cmd buf = none := if_neg quiet
          simp only [observe, none]
      | _ => rfl
  | _ => rfl

/-- A stretch of such requests shows nothing, by induction on it. -/
theorem foldl_unseen {log : ConsentLog} {trace : Trace}
    (quiet : ∀ event ∈ trace, unseen event.op)
    : trace.foldl observe log = log := by
  induction trace generalizing log with
  | nil => rfl
  | cons event rest ih =>
      obtain ⟨first, later⟩ := List.forall_mem_cons.mp quiet
      rw [List.foldl_cons, observe_unseen first, ih later]

/-- Requests that give no answer to a prompt and open no connection. -/
@[simp]
def unanswered : Op → Prop
  | .accept _ | .child (.askConsent _ _ _ _) => False
  | _ => True

/-- Such requests leave the answers alone, by induction on the stretch. -/
theorem foldl_unanswered {log : ConsentLog} {trace : Trace}
    (quiet : ∀ event ∈ trace, unanswered event.op)
    : (trace.foldl observe log).current = log.current
      ∧ (trace.foldl observe log).earlier = log.earlier := by
  induction trace generalizing log with
  | nil => exact ⟨rfl, rfl⟩
  | cons event rest ih =>
      obtain ⟨first, later⟩ := List.forall_mem_cons.mp quiet
      have kept : (log.observe event).current = log.current
          ∧ (log.observe event).earlier = log.earlier := by
        obtain ⟨op, answer⟩ := event
        cases op with
        | accept fd => exact first.elim
        | child process => cases process <;> first | exact ⟨rfl, rfl⟩ | exact first.elim
        | tpm fd cmd =>
            cases answer with
            | response buf =>
                simp only [observe]
                split <;> exact ⟨rfl, rfl⟩
            | _ => exact ⟨rfl, rfl⟩
        | _ => exact ⟨rfl, rfl⟩
      exact ⟨(ih later).1.trans kept.1, (ih later).2.trans kept.2⟩

/-- A policy digest that was computed is the state it shows. -/
theorem foldl_pcrPolicyDigest {log : ConsentLog} {tpm : Tpm} {bank : Bank}
    {indices : List UInt8} {digest : Bytes} {trace : Trace}
    (run : (tpm.pcrPolicyDigest bank indices).run.Runs trace (some (.ok digest)))
    : (trace.foldl observe log).state = some digest := by
  obtain ⟨session, started, released, extended, reported, _, payload, rfl, _, _, reportedOk,
    digestOk, after⟩ := Tpm2.Tpm.pcrPolicyDigest_ok run
  have shown : Tpm2.reportedDigest
      (Tpm2.command Tpm2.ccPolicyGetDigest (Tpm2.putU32 session)) reported = some digest := by
    unfold Tpm2.reportedDigest
    rw [if_pos (Tpm2.commandCode_command _ _), reportedOk]
    simp [Except.bind, digestOk, Except.toOption]
  have quiet : ∀ event ∈ released, unseen event.op := by
    intro event member
    rcases after event member with flushed | ⟨e, logged⟩
    · rw [flushed]
      show Tpm2.putU32 Tpm2.ccFlushContext ≠ Tpm2.putU32 Tpm2.ccPolicyGetDigest
      decide
    · rw [logged]
      trivial
  rw [List.foldl_append, foldl_unseen quiet, List.foldl_append, List.foldl_cons,
    List.foldl_nil]
  simp only [observe, shown]

/-- The state of a plan is the one the run shows when the preflight is over. -/
theorem foldl_check {log : ConsentLog} {fromStr : Json.Reader} {volume : String}
    {config : Volume} {device : Device} {tpm : Tpm} {plan : Preflight.Plan} {trace : Trace}
    (run : (Preflight.check fromStr volume config device tpm).Runs trace
      (some (.reenroll plan)))
    : (trace.foldl observe log).state = some plan.state := by
  obtain ⟨_, _, _, before, during, rfl, measured⟩ := Preflight.check_reenroll run
  rw [List.foldl_append]
  exact foldl_pcrPolicyDigest measured

-----------------------------------------------------------------------------------------
-- The consent memory
-----------------------------------------------------------------------------------------

/-- The remembered decisions are the answers given so far that are worth remembering, and no
state with a name has been answered both ways.
-/
structure Matches (decided : Decisions) (answers : List (Bytes × Answer)) : Prop where
  declines : ∀ state, state ∈ decided.declines ↔ state ≠ [] ∧ (state, .no) ∈ answers
  accepts : ∀ state, state ∈ decided.accepts ↔ (state, .always) ∈ answers
  consistent : ∀ state, state ≠ [] → (state, .no) ∈ answers → (state, .always) ∉ answers

theorem Matches.new : Matches .new [] where
  declines state := by simp [Decisions.new]
  accepts state := by simp [Decisions.new]
  consistent state := by simp

/-- Nothing is both declined and accepted. -/
theorem Matches.disjoint {decided : Decisions} {answers : List (Bytes × Answer)}
    (held : Matches decided answers)
    : Disjoint decided.declines decided.accepts := by
  refine Finset.disjoint_left.mpr fun state declined accepted => ?_
  obtain ⟨named, no⟩ := (held.declines state).mp declined
  exact held.consistent state named no ((held.accepts state).mp accepted)

/-- What `maybe_reenroll` remembers of an answer. -/
def remembered (decided : Decisions) (state : Bytes) : Answer → Decisions
  | .no => if state = [] then decided else decided.decline state
  | .always => decided.accept state
  | .yes => decided

/-- Remembering the answer for an undecided state keeps the match. -/
theorem Matches.remember {decided : Decisions} {answers : List (Bytes × Answer)}
    {state : Bytes} (held : Matches decided answers)
    (undecided : state ≠ [] → (state, .no) ∉ answers ∧ (state, .always) ∉ answers)
    (answer : Answer)
    : Matches (remembered decided state answer) (answers ++ [(state, answer)]) := by
  refine ⟨fun other => ?_, fun other => ?_, fun other named no always => ?_⟩
  · have before := held.declines other
    cases answer with
    | no =>
        unfold remembered
        split_ifs with unnamed
        · rw [before]
          simp only [List.mem_append, List.mem_singleton, Prod.mk.injEq]
          grind
        · simp only [Decisions.decline, Finset.mem_insert, before, List.mem_append,
            List.mem_singleton, Prod.mk.injEq]
          grind
    | yes | always => simp [remembered, Decisions.accept, before]
  · have before := held.accepts other
    cases answer with
    | no =>
        unfold remembered
        split_ifs <;> simp [Decisions.decline, before]
    | yes => simp [remembered, before]
    | always =>
        simp only [remembered, Decisions.accept, Finset.mem_insert, before, List.mem_append,
          List.mem_singleton, Prod.mk.injEq]
        grind
  · -- The one new answer cannot clash with an earlier one, as there was none.
    rcases List.mem_append.mp no with before | now
    · rcases List.mem_append.mp always with also | now
      · exact held.consistent other named before also
      · cases List.mem_singleton.mp now
        exact (undecided named).1 before
    · rcases List.mem_append.mp always with before | also
      · cases List.mem_singleton.mp now
        exact (undecided named).2 before
      · cases List.mem_singleton.mp now
        cases List.mem_singleton.mp also

/-- The watch over a run. -/
def watch : Monitor Res ConsentLog := observing allows observe

variable {log : ConsentLog} {decided : Decisions}

theorem allows_of_unseen {op : Op} (quiet : unseen op) : allows log op := by
  unfold allows
  split
  · exact quiet.elim
  · exact quiet.elim
  · trivial

/-- A part that shows nothing. -/
theorem unseen_wp {α : Type} {left : Prop} {program : Sys α} (only : program.Only unseen left)
    : wp watch program (fun _ after => after = log) log := by
  refine wp_observing only (fun _ _ => allows_of_unseen) fun trace value run => ?_
  exact foldl_unseen fun event member => only.mem run member

/-- A part whose requests give no answer keeps the answers. -/
theorem unanswered_wp {α : Type} {program : Sys α} {allowed : Op → Prop}
    (only : program.Only allowed) (quiet : ∀ op, allowed op → unanswered op)
    (free : ∀ log op, allowed op → allows log op)
    : wp watch program (fun _ after => after.answers = log.answers) log := by
  refine wp_observing only free fun trace value run => ?_
  obtain ⟨current, earlier⟩ : (trace.foldl observe log).current = log.current
      ∧ (trace.foldl observe log).earlier = log.earlier :=
    foldl_unanswered fun event member => quiet _ (only.mem run member)
  rw [answers, answers, current, earlier]

theorem allows_of_verifying {op : Op} (verifying : op.verifying) : allows log op := by
  cases op with
  | child process => cases process <;> trivial
  | _ => trivial

theorem unanswered_of_verifying {op : Op} (verifying : op.verifying) : unanswered op := by
  cases op with
  | child process => cases process <;> trivial
  | _ => trivial

/-- Looking at the header, the TPM and the host gives no answer; it can show a state. -/
theorem inspect_wp {α : Type} {program : Sys α} (only : program.Only Op.inspecting)
    : wp watch program
        (fun value after =>
          (after.current = log.current ∧ after.earlier = log.earlier)
          ∧ ∃ trace, program.Runs trace (some value) ∧ after = trace.foldl observe log) log := by
  have verifying (op : Op) : op.inspecting → op.verifying := Op.verifying_of_inspecting
  refine wp_observing only (fun _ _ small => allows_of_verifying (verifying _ small)) ?_
  intro trace value run
  refine ⟨foldl_unanswered fun event member => ?_, trace, run, rfl⟩
  exact unanswered_of_verifying (verifying _ (only.mem run member))

theorem unseen_of_acquiring {op : Op} (acquiring : op.acquiring) : unseen op := by
  cases op with
  | child process => cases process <;> trivial
  | _ => trivial

theorem unseen_of_replying {op : Op} (replying : op.replying) : unseen op := by
  cases op with
  | child process => cases process <;> trivial
  | tpm fd cmd => exact replying.elim
  | _ => trivial

theorem unseen_of_identifying {op : Op} (identifying : op.identifying) : unseen op := by
  cases op with
  | child process => cases process <;> trivial
  | tpm fd cmd => exact identifying.elim
  | _ => trivial

theorem unseen_of_starting {op : Op} (starting : op.starting) : unseen op := by
  cases op with
  | child process => cases process <;> trivial
  | tpm fd cmd => exact starting.elim
  | _ => trivial

theorem log_only {line : LogLine} : (Tpm2Autoenroll.log line).Only unseen :=
  ⟨trivial, fun _ => trivial⟩

/-- The consent prompt may be shown for an undecided state and adds one answer. -/
theorem ask_wp {volume device : String} {pcrs : List UInt8} {bank : Bank} {state : Bytes}
    (known : log.state = some state)
    (undecided : state ≠ [] → (state, .no) ∉ log.answers ∧ (state, .always) ∉ log.answers)
    : wp watch (Consent.ask volume device pcrs bank)
        (fun answer after =>
          after = { log with current := log.current ++ [(state, answer)] }) log := by
  obtain ⟨shown, current, earlier⟩ := log
  obtain rfl : shown = some state := known
  refine wp_ask ⟨state, rfl, undecided⟩ fun output after step => ?_
  have recorded
      : after = ⟨some state, current ++ [(state, Consent.answered output)], earlier⟩ := step
  cases output with
  | error e => exact wp_then (unseen_wp log_only) fun _ _ same => same.trans recorded
  | ok out =>
      rw [Consent.answered] at recorded
      dsimp only
      split_ifs at recorded ⊢ with success
      · exact recorded
      · exact wp_then (unseen_wp log_only) fun _ _ same => same.trans recorded

variable {config : Volume} {plan : Preflight.Plan}

/-- What the consent step leaves: remembered answers, and on agreement a justification. -/
structure Sought (plan : Preflight.Plan) (result : Bool × Decisions) (after : ConsentLog)
    : Prop where
  remembers : Matches result.2 after.answers
  known : after.state = some plan.state
  justified : result.1 = true
    → (after.Granted plan.state ↔ (plan.state, .always) ∉ after.earlier)
      ∧ (plan.state ≠ [] → (plan.state, .no) ∉ after.answers)

/-- The consent step asks only about an undecided state, and agrees only on a fresh yes or a
remembered always.
-/
theorem seekConsent_wp (held : Matches decided log.answers) (fresh : log.current = [])
    (known : log.state = some plan.state)
    (undeclined : plan.state ≠ [] → (plan.state, .no) ∉ log.answers)
    : wp watch (seekConsent config plan decided) (Sought plan) log := by
  have answered : log.answers = log.earlier := by rw [answers, fresh, List.append_nil]
  unfold seekConsent
  by_cases accepted : decided.accepted plan.state = true
  · rw [if_pos accepted]
    have always : (plan.state, .always) ∈ log.earlier := by
      rw [← answered]
      exact (held.accepts plan.state).mp (Decisions.accepted_iff.mp accepted)
    refine ⟨held, known, fun _ => ⟨?_, undeclined⟩⟩
    simp [Granted, fresh, always]
  · rw [if_neg accepted]
    have unaccepted : (plan.state, .always) ∉ log.answers := fun always =>
      accepted (Decisions.accepted_iff.mpr ((held.accepts plan.state).mpr always))
    refine wp_ask trivial fun stop after step => ?_
    obtain rfl : after = log := step
    have still (why : String)
        : wp watch
            (do
              Tpm2Autoenroll.log (.leavingHeader config.name why)
              return (false, decided))
            (Sought plan) after := by
      refine wp_then (unseen_wp log_only) fun _ final same => ?_
      rw [same]
      exact ⟨held, known, nofun⟩
    cases stop with
    | true => exact still _
    | false =>
        refine wp_then (ask_wp known fun named => ⟨undeclined named, unaccepted⟩) ?_
        intro answer asked recorded
        have matched := held.remember (fun named => ⟨undeclined named, unaccepted⟩) answer
        have all : asked.answers = after.answers ++ [(plan.state, answer)] := by
          rw [recorded, answers, answers, List.append_assoc]
        rw [← all] at matched
        have shown : asked.state = some plan.state := by rw [recorded]; exact known
        have granted : asked.Granted plan.state ↔ answer ≠ .no := by
          rw [recorded, Granted, fresh]
          cases answer <;> simp
        have unmentioned : (plan.state, .always) ∉ asked.earlier := by
          rw [recorded]
          exact answered ▸ unaccepted
        have consented (yes : answer ≠ .no)
            : (asked.Granted plan.state ↔ (plan.state, .always) ∉ asked.earlier)
              ∧ (plan.state ≠ [] → (plan.state, .no) ∉ asked.answers) := by
          refine ⟨iff_of_true (granted.mpr yes) unmentioned, fun named no => ?_⟩
          rw [all] at no
          rcases List.mem_append.mp no with no | no
          · exact undeclined named no
          · cases List.mem_singleton.mp no
            exact yes rfl
        cases answer with
        | no =>
            refine wp_then (unseen_wp log_only) fun _ final same => ?_
            rw [same]
            exact ⟨matched, shown, nofun⟩
        | always =>
            refine wp_then (unseen_wp log_only) fun _ final same => ?_
            rw [same]
            exact ⟨matched, shown, fun _ => consented nofun⟩
        | yes => exact ⟨matched, shown, fun _ => consented nofun⟩

/-- Enrolling needs the justification; neither it nor its check gives an answer. -/
theorem enrollAndVerify_wp {fromStr : Json.Reader} {device : Device} {secret : Secret}
    {tpm : Tpm} (known : log.state = some plan.state)
    (justified : (log.Granted plan.state ↔ (plan.state, .always) ∉ log.earlier)
      ∧ (plan.state ≠ [] → (plan.state, .no) ∉ log.answers))
    : wp watch (enrollAndVerify fromStr config device secret tpm plan)
        (fun _ after => after.answers = log.answers) log := by
  refine wp_ask trivial fun stop after step => ?_
  obtain rfl : after = log := step
  cases stop with
  | true => exact wp_mono (unseen_wp log_only) fun _ _ same => by rw [same]
  | false =>
      have enrolled : wp watch
          (Enroll.run device config.tpm2Device config.pcrs.list config.bank secret)
          (fun _ final => final = after) after := by
        rw [Enroll.run, if_neg config.pcrs.nonempty]
        refine wp_then (unseen_wp (SecretFile.new_only.mono fun _ => unseen_of_acquiring)) ?_
        intro made later same
        subst same
        cases made with
        | error e => exact wp_pure.mpr rfl
        | ok key =>
            refine wp_ask ⟨plan.state, known, justified⟩ fun output final step => ?_
            obtain rfl : final = later := step
            cases output with
            | error e => exact wp_pure.mpr rfl
            | ok out =>
                dsimp only
                split_ifs <;> exact wp_pure.mpr rfl
      refine wp_then enrolled fun result final same => ?_
      subst same
      cases result with
      | error e => exact wp_mono (unseen_wp log_only) fun _ _ same => by rw [same]
      | ok =>
          exact unanswered_wp verify_only (fun _ => unanswered_of_verifying)
            fun _ _ => allows_of_verifying

/-- A plan is carried out only with a justification, and what is remembered of it matches. -/
theorem carryOut_wp {fromStr : Json.Reader} {device : Device} {secret : Secret} {tpm : Tpm}
    (held : Matches decided log.answers) (fresh : log.current = [])
    (known : log.state = some plan.state)
    : wp watch (carryOut fromStr config device secret decided tpm plan)
        (fun decided after => Matches decided after.answers) log := by
  have announced : wp watch (announce config tpm plan) (fun _ after => after = log) log := by
    refine unseen_wp (announce_only (fun body => ?_) fun _ _ => trivial)
    show Tpm2.commandCode (Tpm2.command Tpm2.ccPcrRead body) ≠ _
    rw [Tpm2.commandCode_command]
    decide
  refine wp_then announced fun _ after same => ?_
  subst same
  by_cases declined : plan.state ≠ [] ∧ decided.declined plan.state = true
  · rw [if_pos declined]
    refine wp_then (unseen_wp log_only) fun _ final same => ?_
    rw [same]
    exact held
  · rw [if_neg declined]
    have undeclined (named : plan.state ≠ []) : (plan.state, .no) ∉ after.answers :=
      fun no => declined
        ⟨named, Decisions.declined_iff.mpr ((held.declines plan.state).mpr ⟨named, no⟩)⟩
    refine wp_then (seekConsent_wp held fresh known undeclined) fun result sought settled => ?_
    obtain ⟨agreed, decided⟩ := result
    cases agreed with
    | false => exact settled.remembers
    | true =>
        refine wp_then (enrollAndVerify_wp settled.known (settled.justified rfl)) ?_
        intro _ final same
        show Matches decided final.answers
        rw [same]
        exact settled.remembers

/-- The repair asks and enrolls as the answers so far entitle it to. -/
theorem maybeReenroll_wp {fromStr : Json.Reader} {device : Device} {secret : Secret}
    (held : Matches decided log.answers) (fresh : log.current = [])
    : wp watch (maybeReenroll fromStr config device secret decided)
        (fun decided after => Matches decided after.answers) log := by
  have leaving (why : String) (here : ConsentLog) (held : Matches decided here.answers)
      : wp watch
          (do
            Tpm2Autoenroll.log (.leavingHeader config.name why)
            return decided)
          (fun decided after => Matches decided after.answers) here := by
    refine wp_then (unseen_wp log_only) fun _ final same => ?_
    rw [same]
    exact held
  refine wp_ask trivial fun stop after step => ?_
  obtain rfl : after = log := step
  cases stop with
  | true => exact leaving _ after held
  | false =>
      refine wp_then (inspect_wp Tpm2.Tpm.open_only) fun result opened facts => ?_
      obtain ⟨⟨current, earlier⟩, _⟩ := facts
      have same : opened.answers = after.answers := by rw [answers, answers, current, earlier]
      cases result with
      | error e => exact leaving _ opened (same ▸ held)
      | ok tpm =>
          refine wp_then (inspect_wp Preflight.check_only) fun decision checked facts => ?_
          obtain ⟨⟨currentStill, earlierStill⟩, trace, run, shown⟩ := facts
          have matched : Matches decided checked.answers := by
            rw [answers, currentStill, earlierStill, ← answers, same]
            exact held
          cases decision with
          | leave why => exact leaving _ checked matched
          | reenroll plan =>
              refine carryOut_wp matched ?_ ?_
              · rw [currentStill, current, fresh]
              · rw [shown]
                exact foldl_check run

/-- The plain phase asks and enrolls as the answers so far entitle it to. -/
theorem servePassphrase_wp {setup : Setup} {conn : Fd} {memory : Memory}
    (held : Matches memory.decided log.answers) (fresh : log.current = [])
    : wp watch (servePassphrase setup conn config memory)
        (fun memory after => Matches memory.decided after.answers) log := by
  refine wp_then (unseen_wp log_only) fun _ after same => ?_
  subst same
  refine wp_then (unseen_wp (Device.open_only.mono fun _ => unseen_of_acquiring)) ?_
  intro opened after same
  subst same
  cases opened with
  | error e =>
      refine wp_then (unseen_wp log_only) fun _ final same => ?_
      rw [same]
      exact held
  | ok device =>
      refine wp_then (unseen_wp (acquire_only.mono fun _ => unseen_of_acquiring)) ?_
      intro result after same
      subst same
      match result with
      | (none, cache) =>
          refine wp_then (unseen_wp log_only) fun _ final same => ?_
          rw [same]
          exact held
      | (some secret, cache) =>
          refine wp_then (maybeReenroll_wp held fresh) fun decided repaired matched => ?_
          have replied : wp watch (reply setup.interruptions conn config.name secret)
              (fun _ final => final = repaired) repaired :=
            unseen_wp (reply_only.mono fun _ => unseen_of_replying)
          refine wp_then replied fun _ final same => ?_
          rw [same]
          exact matched

/-- A connection asks and enrolls as the answers so far entitle it to. -/
theorem handle_wp {setup : Setup} {conn : Fd} {managed : Volume} {memory : Memory}
    (held : Matches memory.decided log.answers) (fresh : log.current = [])
    : wp watch (handle setup conn managed memory)
        (fun result after => Matches result.2.decided after.answers) log := by
  refine Tpm2Autoenroll.handle_wp (fun here => here = log)
    (fun memory here => Matches memory.decided here.answers)
    (fun memory here => Matches memory.decided here.answers) ?_ ?_ ?_ ?_ ?_ ?_ rfl
  · intro here op _ small
    exact allows_of_unseen (unseen_of_identifying small)
  · intro here op answer next step small same
    rw [← same]
    exact step.trans (observe_unseen (unseen_of_identifying small))
  · intro here same
    rw [same]
    exact held
  · intro here same
    subst same
    exact servePassphrase_wp held fresh
  · intro _ _ _
    trivial
  · intro memory here answer next step matched
    rw [show next = here from step]
    exact matched

/-- The accept loop's own requests give no answer. -/
theorem answers_of_serving {event : Event} (serving : event.op.serving)
    : (log.observe event).answers = log.answers := by
  obtain ⟨op, answer⟩ := event
  cases op with
  | accept fd =>
      cases answer with
      | ok conn => exact List.append_nil _
      | error e => rfl
  | child process => exact serving.elim
  | tpm fd cmd => exact serving.elim
  | _ => rfl

/-- What is remembered between connections matches the answers so far. -/
theorem serving {setup : Setup} {listeners : List Listener}
    : ServeInvariant watch setup listeners
        (fun memory log => Matches memory.decided log.answers)
        (fun memory log => Matches memory.decided log.answers) := by
  refine .of_kept (fun _ => trivial) ?_ ?_ ?_
  · intro _ log op _ small
    cases op with
    | child process => exact small.elim
    | _ => trivial
  · intro memory log op answer after step small held
    rw [show after = log.observe ⟨op, answer⟩ from step, answers_of_serving small]
    exact held
  · intro l memory log conn after _ step held
    obtain rfl : after = ⟨none, [], log.answers⟩ := step
    have same : (⟨none, [], log.answers⟩ : ConsentLog).answers = log.answers :=
      List.append_nil _
    exact handle_wp (same.symm ▸ held) rfl

/-- Every run of the daemon asks and enrolls as the answers so far entitle it to. -/
theorem daemon_wp {setup : Setup} {rounds : Nat} {config dir : String}
    : wp watch (daemon setup rounds config dir) (fun _ _ => True) ⟨none, [], []⟩ := by
  refine Tpm2Autoenroll.daemon_wp (fun _ log => log = ⟨none, [], []⟩) ?_ ?_
  · exact wp_mono (unseen_wp (start_only.mono fun _ => unseen_of_starting))
      fun _ _ same _ _ => same
  · intro listeners log same
    refine ⟨_, _, serving, ?_, fun _ _ _ => shutdown_wp fun log op small => ?_⟩
    · rw [same]
      exact Matches.new
    · cases op with
      | child process => exact small.elim
      | _ => trivial

end ConsentLog

/-- The memories a daemon can hold between connections, whoever connects and whatever is
answered.
-/
inductive Visited (setup : Setup) : Memory → Prop
  | new : Visited setup .new
  | handled {memory next : Memory} {conn : Fd} {managed : Volume} {counted : Bool}
    {trace : Trace} (earlier : Visited setup memory)
    (run : (handle setup conn managed memory).Runs trace (some (counted, next)))
    : Visited setup next

/-- A memory that is visited remembers some answers, by induction on the connections. -/
theorem Visited.answered {setup : Setup} {memory : Memory} (visited : Visited setup memory)
    : ∃ answers, ConsentLog.Matches memory.decided answers := by
  induction visited with
  | new => exact ⟨[], ConsentLog.Matches.new⟩
  | handled _ run ih =>
      obtain ⟨answers, held⟩ := ih
      have same : (⟨none, [], answers⟩ : ConsentLog).answers = answers := List.append_nil _
      have settled := wp_post (ConsentLog.handle_wp (same.symm ▸ held) rfl) run
        (path_observing.mpr rfl)
      exact ⟨_, settled⟩

/-- The accept loop holds only visited memories. -/
theorem Serve.serveLoop_visited {setup : Setup} {listeners : List Listener} {rounds : Nat}
    {state final : ServeState} {code : Option ExitCode} {trace : Trace}
    (visited : Visited setup state.memory)
    (run : (serveLoop setup listeners rounds state).Runs trace (some (final, code)))
    : Visited setup final.memory := by
  have inv : ServeInvariant (history fun _ _ => True) setup listeners
      (fun memory _ => Visited setup memory) (fun memory _ => Visited setup memory) := by
    refine .of_kept (fun _ => trivial) (fun _ _ => trivial) (fun _ _ visited => visited) ?_
    intro l memory past conn after _ _ visited
    exact wp_history (only_any _) (fun _ _ _ => trivial)
      fun trace result run => visited.handled run
  have specified : wp (history fun _ _ => True) (serveLoop setup listeners rounds state)
      (Settled (fun memory _ => Visited setup memory) fun memory _ => Visited setup memory)
      [] :=
    serveLoop_wp inv visited
  exact (wp_post specified run (path_history.mpr rfl)).1

/-- Header writes and prompts follow the answers given so far. For every run of the daemon:
systemd-cryptenroll is started for a boot state with a name only on a yes or an always given to
the prompt of that same connection or on an earlier always for that very state, and never once
that state was declined; the prompt is not shown for a state that was answered no or always
before; no state is remembered both ways; and the state a plan carries is the one its preflight
showed last.
-/
theorem consent_history {setup : Setup} {rounds : Nat} {config dir : String}
    : (∀ before event after outcome,
        (daemon setup rounds config dir).Runs (before ++ event :: after) outcome
        → (∀ device tpm2Device pcrs bank key,
            event.op = .child (.cryptenroll device tpm2Device pcrs bank key)
            → ∃ state, (ConsentLog.of before).state = some state
              ∧ (state ≠ [] → ((ConsentLog.of before).Granted state
                  ∨ (state, .always) ∈ (ConsentLog.of before).earlier)
                ∧ (state, .no) ∉ (ConsentLog.of before).answers))
          ∧ (∀ volume device pcrs bank,
            event.op = .child (.askConsent volume device pcrs bank)
            → ∃ state, (ConsentLog.of before).state = some state
              ∧ (state ≠ [] → (state, .no) ∉ (ConsentLog.of before).answers
                ∧ (state, .always) ∉ (ConsentLog.of before).answers)))
      ∧ (∀ listeners rounds start trace state code,
        (Serve.serveLoop setup listeners rounds ⟨.new, ∅, start⟩).Runs trace
          (some (state, code))
        → Visited setup state.memory)
      ∧ (∀ memory, Visited setup memory
        → Disjoint memory.decided.declines memory.decided.accepts)
      ∧ (∀ log volume config device tpm plan trace,
        (Preflight.check setup.fromStr volume config device tpm).Runs trace
          (some (.reenroll plan))
        → (trace.foldl ConsentLog.observe log).state = some plan.state) := by
  refine ⟨?_, ?_, ?_, ?_⟩
  · intro before event after outcome run
    have allowed := wp_allows ConsentLog.daemon_wp run (path_observing.mpr rfl)
    refine ⟨?_, ?_⟩
    · intro device tpm2Device pcrs bank key started
      rw [started] at allowed
      obtain ⟨state, known, covered, undeclined⟩ := allowed
      refine ⟨state, known, fun named => ⟨?_, undeclined named⟩⟩
      by_cases always : (state, .always) ∈ (ConsentLog.of before).earlier
      · exact Or.inr always
      · exact Or.inl (covered.mpr always)
    · intro volume device pcrs bank asked
      rw [asked] at allowed
      exact allowed
  · intro listeners rounds start trace state code run
    exact Serve.serveLoop_visited .new run
  · intro memory visited
    obtain ⟨answers, held⟩ := visited.answered
    exact held.disjoint
  · intro log volume config device tpm plan trace run
    exact ConsentLog.foldl_check run

/-- A header write for a boot state without a name was granted in its own connection exactly
when no earlier connection answered always for such a state.
-/
theorem unnamed_state_enrollment {setup : Setup} {rounds : Nat} {config dir : String}
    {before after : Trace} {device : Device} {tpm2Device : String} {pcrs : List UInt8}
    {bank : Bank} {key : SecretFile}
    {answer : Res (.child (.cryptenroll device tpm2Device pcrs bank key))}
    {outcome : Option ExitCode}
    (run : (daemon setup rounds config dir).Runs
      (before ++ ⟨.child (.cryptenroll device tpm2Device pcrs bank key), answer⟩ :: after)
      outcome)
    (unnamed : (ConsentLog.of before).state = some [])
    : (ConsentLog.of before).Granted []
      ↔ ([], .always) ∉ (ConsentLog.of before).earlier := by
  obtain ⟨state, known, covered, _⟩ :=
    wp_allows ConsentLog.daemon_wp run (path_observing.mpr rfl)
  obtain rfl : state = [] := by
    have same : some state = some [] := known.symm.trans unnamed
    exact Option.some.inj same
  exact covered

section Unnamed

open Scene

/-- Two volumes, a TPM that reports digests without bytes, and a human who answers always. -/
private def unnamedDigests : Scene := twoVolumes "always" fun _ => []

/-- The second volume's header write in that run. -/
private def secondWrite (event : Event) : Bool := event.op = headerWrite "/dev/vda2"

/-- It is there, and up to there the one answer was given in the earlier connection. -/
private theorem seen_secondWrite
    : (unnamedDigests.play.trace.any secondWrite,
        ConsentLog.of (upTo secondWrite unnamedDigests.play.trace))
      = (true, ⟨some [], [], [([], .always)]⟩) := by
  decide +kernel

private theorem of_upTo_secondWrite
    : ConsentLog.of (upTo secondWrite unnamedDigests.play.trace)
      = ⟨some [], [], [([], .always)]⟩ :=
  (Prod.mk.inj seen_secondWrite).2

private theorem runs_secondWrite
    : ∃ answer, (daemon setup 2 Config.defaultPath Sockets.defaultDir).Runs
        (upTo secondWrite unnamedDigests.play.trace
          ++ ⟨headerWrite "/dev/vda2", answer⟩
            :: following secondWrite unnamedDigests.play.trace)
        unnamedDigests.play.outcome := by
  have called : unnamedDigests.play.trace.any secondWrite = true :=
    (Prod.mk.inj seen_secondWrite).1
  exact runs_drive_split called

/-- One always for a state without a name covers every later one: the second volume's header
is rewritten although its connection showed no prompt.
-/
theorem unnamed_state_reused
    : ∃ before answer after outcome,
        (daemon setup 2 Config.defaultPath Sockets.defaultDir).Runs
          (before ++ ⟨headerWrite "/dev/vda2", answer⟩ :: after) outcome
        ∧ (ConsentLog.of before).state = some []
        ∧ ¬ (ConsentLog.of before).Granted [] := by
  obtain ⟨answer, run⟩ := runs_secondWrite
  refine ⟨_, answer, _, _, run, ?_, ?_⟩
  · rw [of_upTo_secondWrite]
  · rw [of_upTo_secondWrite, ConsentLog.Granted]
    decide

/-- In that run the earlier always is what the second header write rests on. -/
theorem unnamed_state_enrollment_second
    : (ConsentLog.of (upTo secondWrite unnamedDigests.play.trace)).Granted []
      ↔ ([], .always)
        ∉ (ConsentLog.of (upTo secondWrite unnamedDigests.play.trace)).earlier := by
  obtain ⟨answer, run⟩ := runs_secondWrite
  exact unnamed_state_enrollment run (by rw [of_upTo_secondWrite])

end Unnamed

end Tpm2Autoenroll
