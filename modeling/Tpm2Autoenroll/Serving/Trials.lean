import Tpm2Autoenroll.Serving.Disclosure
import Tpm2Autoenroll.Serving.KeyFiles

/-! What a passphrase went through before it is handed over: a cryptsetup process was given it in a
memfd and found that it opens the volume.
-/

namespace Tpm2Autoenroll

open Interaction Prog Monitor
open Text (Bytes)

-----------------------------------------------------------------------------------------
-- Requests
-----------------------------------------------------------------------------------------

/-- Only exit code 0 means that the passphrase is correct. -/
theorem Luks.code_of_correct {out : Output} (correct : Luks.verdict out = .correct)
    : out.status.code = some 0 := by
  unfold Luks.verdict at correct
  split at correct
  · dsimp only at correct
    split at correct <;> cases correct
  · unfold Luks.verdictFromCode at correct
    split at correct <;> first | assumption | cases correct

/-- A passphrase that was found correct was in the memfd of a child that exited with zero. -/
theorem Luks.testPassphrase_correct {device : Device} {secret : Secret} {trace : Trace}
    (run : (Luks.testPassphrase device secret).Runs trace (some .correct))
    : ∃ fd out, out.status.code = some 0
        ∧ trace = [⟨.secretFile secret, .ok fd⟩,
          ⟨.child (.testPassphrase device ⟨fd, secret⟩), .ok out⟩] := by
  obtain ⟨file, first, second, rfl, created, tried⟩ := runs_bind_some.mp run
  obtain ⟨memfd, later, rfl, named⟩ := runs_ask.mp created
  cases memfd with
  | error e =>
      obtain ⟨rfl, rfl⟩ := runs_pure_some.mp named
      obtain ⟨_, unusable⟩ := runs_pure_some.mp tried
      cases unusable
  | ok fd =>
      obtain ⟨rfl, rfl⟩ := runs_pure_some.mp named
      obtain ⟨answer, later, rfl, judged⟩ := runs_ask.mp tried
      cases answer with
      | error e =>
          obtain ⟨_, unusable⟩ := runs_pure_some.mp judged
          cases unusable
      | ok out =>
          obtain ⟨rfl, correct⟩ := runs_pure_some.mp judged
          exact ⟨fd, out, Luks.code_of_correct correct.symm, rfl⟩

/-- Only what was opened is a device. -/
theorem Device.opened {path : String} {device : Device} {trace : Trace}
    (run : (Device.open path).Runs trace (some (.ok device)))
    : device.name = path ∧ ⟨.openFile path false, .ok device.fd⟩ ∈ trace := by
  obtain ⟨opened, later, rfl, rest⟩ := runs_ask.mp run
  cases opened with
  | error e =>
      obtain ⟨_, failed⟩ := runs_pure_some.mp rest
      cases failed
  | ok fd =>
      obtain ⟨fileType, last, rfl, judged⟩ := runs_ask.mp rest
      cases fileType with
      | error e =>
          obtain ⟨_, failed⟩ := runs_pure_some.mp judged
          cases failed
      | ok fileType =>
          dsimp only at judged
          split_ifs at judged
          · obtain ⟨_, failed⟩ := runs_pure_some.mp judged
            cases failed
          · obtain ⟨_, same⟩ := runs_pure_some.mp judged
            cases same
            exact ⟨rfl, List.mem_cons_self⟩

-----------------------------------------------------------------------------------------
-- Calls
-----------------------------------------------------------------------------------------

variable {patience : Patience}

/-- The only request that is made to carry one out is itself. -/
theorem carryOutOp_only {op : Op}
    : (carryOutOp patience op).Only (fun action => ∀ made, action = .request made → made = op)
        True := by
  have memfd {α : Type} (program : KeyFile.Steps α)
      : (program.interpret onMemfd).Only (fun action => ∀ made, action = .request made → made = op)
          True :=
    interpret_only fun _ => ⟨nofun, fun _ => trivial⟩
  cases op with
  | secretFile secret =>
      refine (memfd _).bind fun result => ?_
      cases result with
      | error e => trivial
      | ok key => exact ⟨nofun, fun _ => trivial⟩
  | child process =>
      have ran : ((process.ran patience).interpret (ofChild process)).Only
          (fun action => ∀ made, action = .request made → made = .child process) True :=
        interpret_only fun _ => ⟨nofun, fun _ => trivial⟩
      refine ran.bind fun out => Only.bind ?_ fun _ => trivial
      unfold Child.letGo
      cases process.key with
      | none => trivial
      | some key => exact memfd _
  | _ =>
      refine ⟨fun made same => ?_, fun _ => trivial⟩
      cases same
      rfl

/-- The requests that are made to carry out a run are made in it, by induction on it. -/
theorem requested {trace : Trace} {done : Interaction.Trace Outcome}
    {event : Interaction.Event Outcome} {op : Op}
    (carried : Carried (carryOutOp patience) trace done) (member : event ∈ done)
    (same : event.op = .request op)
    : ∃ request ∈ trace, request.op = op := by
  induction carried with
  | nil => cases member
  | @snoc earlier done made answer part before run ih =>
      rcases List.mem_append.mp member with member | member
      · obtain ⟨request, asked, same⟩ := ih member
        exact ⟨request, List.mem_append_left _ asked, same⟩
      · refine ⟨⟨made, answer⟩, List.mem_append_right _ List.mem_cons_self, ?_⟩
        exact (carryOutOp_only.mem run member op same).symm

/-- A write is the first thing done to carry it out. -/
theorem eq_of_write {op : Op} {part : Interaction.Trace Outcome} {conn : Fd} {buf : Bytes}
    {answer : Res (.write conn buf)}
    (run : (carryOutOp patience op).Runs (part ++ [⟨.request (.write conn buf), answer⟩]) none)
    : op = .write conn buf ∧ part = [] := by
  obtain rfl : .write conn buf = op :=
    carryOutOp_only.mem run (List.mem_append_right _ List.mem_cons_self) _ rfl
  refine ⟨rfl, ?_⟩
  cases part with
  | nil => rfl
  | cons first rest =>
      rw [List.cons_append] at run
      generalize whole : rest ++ [_] = more at run
      cases run with
      | call answer later =>
          cases later
          simp at whole

/-- The bytes that an event hands over. -/
def handed : Interaction.Event Outcome → Bytes
  | ⟨.request op, answer⟩ => Event.written ⟨op, answer⟩
  | _ => []

theorem handed_part {op : Op} {answer : Res op} {part : Interaction.Trace Outcome}
    (run : (carryOutOp patience op).Runs part (some answer))
    : part.flatMap handed = Event.written ⟨op, answer⟩ := by
  have quiet (none : ∀ answer, Event.written ⟨op, answer⟩ = []) : part.flatMap handed = [] := by
    refine List.flatMap_eq_nil_iff.mpr ?_
    rintro ⟨action, given⟩ member
    cases action with
    | request made =>
        obtain rfl := carryOutOp_only.mem run member made rfl
        exact none given
    | _ => rfl
  cases op with
  | secretFile secret => exact quiet fun _ => rfl
  | child process => exact quiet fun _ => rfl
  | _ =>
      obtain rfl := runs_perform_some.mp run
      exact List.append_nil _

/-- Carrying out a run hands over what the run writes, by induction on it. -/
theorem handed_eq_written {trace : Trace} {done : Interaction.Trace Outcome}
    (carried : Carried (carryOutOp patience) trace done)
    : done.flatMap handed = written trace := by
  induction carried with
  | nil => rfl
  | snoc before run ih =>
      rw [List.flatMap_append, ih, handed_part run, written_append, written_singleton]

-----------------------------------------------------------------------------------------
-- Trials
-----------------------------------------------------------------------------------------

/-- Since the history before it, cryptsetup was started on the device when there was a memfd that
held the passphrase, by the number it was told, and was waited for and had exited with zero.
-/
def Opened (device : Device) (secret : Secret) (past since : Interaction.Trace Outcome) : Prop :=
  ∃ fd pid status left middle right,
    since = left ++ ⟨.child (.testPassphrase device ⟨fd, secret⟩) .spawn, .ok pid⟩
        :: (middle ++ ⟨.child (.testPassphrase device ⟨fd, secret⟩) .wait, .ok status⟩ :: right)
    ∧ (KeyUse.of (past ++ left)).Holds ⟨fd, secret⟩
    ∧ status.code = some 0

/-- A device that was opened, as it was carried out. -/
theorem openFile_mem {path : String} {device : Device} {trace : Trace}
    {done : Interaction.Trace Outcome}
    (opened : (Device.open path).Ran (.ok device) trace)
    (carried : Carried (carryOutOp patience) trace done)
    : device.name = path ∧ ⟨.request (.openFile path false), .ok device.fd⟩ ∈ done := by
  obtain ⟨before, during, after, rfl, run⟩ := opened
  obtain ⟨named, member⟩ := Device.opened run
  obtain ⟨left, part, right, rfl, run⟩ :=
    carried.mem (List.mem_append_left after (List.mem_append_right before member))
  obtain rfl := runs_perform_some.mp run
  exact ⟨named, List.mem_append_right _ (List.mem_append_left _ List.mem_cons_self)⟩

/-- The trial that found a passphrase correct, as it was carried out. -/
theorem opened_of_correct {device : Device} {secret : Secret} {trace : Trace}
    {past done : Interaction.Trace Outcome}
    (correct : (Luks.testPassphrase device secret).Ran .correct trace)
    (carried : Carried (carryOutOp patience) trace done)
    (held : ∀ before event, before ++ [event] <+: past ++ done
      → (KeyUse.of before).allows event.op)
    : Opened device secret past done := by
  obtain ⟨before, during, after, rfl, run⟩ := correct
  obtain ⟨fd, out, exited, rfl⟩ := Luks.testPassphrase_correct run
  obtain ⟨_, last, rfl, carried, _⟩ := carried.split
  obtain ⟨left, _, rfl, _, carried⟩ := carried.split
  obtain ⟨made, _, rfl, _, ran⟩ := carried_pair carried
  obtain ⟨pid, middle, right, rfl⟩ := waits ran
  refine ⟨fd, pid, out.status, left ++ made, middle, right ++ last, ?_, ?_, exited⟩
  · simp
  · let process : Child := .testPassphrase device ⟨fd, secret⟩
    refine held _ ⟨.child process .spawn, .ok pid⟩
      ⟨middle ++ ⟨.child process .wait, .ok out.status⟩ :: (right ++ last), ?_⟩
    simp [process]

/-- Whatever is written in a connection opens the volume. In every run, however its calls fail and
wherever it is cut off, a write to a peer is of what is left of one passphrase; and since that peer
was accepted on the socket of a configured volume, and no other after it, the volume's device was
opened and cryptsetup was started on it, while there was a memfd that held exactly this passphrase,
and was waited for and had exited with zero.
-/
theorem disclosed_after_trial {setup : Setup} {patience : Patience} {rounds : Nat}
    {config dir : String} {before later : Interaction.Trace Outcome} {conn : Fd} {buf : Bytes}
    {answer : Res (.write conn buf)} {outcome : Option ExitCode}
    (run : (implemented patience (daemon setup rounds config dir)).Runs
      (before ++ ⟨.request (.write conn buf), answer⟩ :: later) outcome)
    : ∃ l secret device past since,
        before = past ++ ⟨.request (.accept l.fd), .ok conn⟩ :: since
        ∧ (∃ trace, Carried (carryOutOp patience) trace past
          ∧ Configured setup.fromStr config dir l trace)
        ∧ (∀ event ∈ since, ∀ other, event.op ≠ .request (.accept other))
        ∧ (device.name = l.volume.device
          ∧ ⟨.request (.openFile l.volume.device false), .ok device.fd⟩ ∈ since)
        ∧ Opened device secret (past ++ [⟨.request (.accept l.fd), .ok conn⟩]) since
        ∧ since.flatMap handed ++ buf = secret.bytes := by
  have held (first : Interaction.Trace Outcome) (event : Interaction.Event Outcome)
      (part : first ++ [event] <+: before)
      : (KeyUse.of first).allows event.op := by
    obtain ⟨rest, rfl⟩ := part
    rw [List.append_assoc, List.append_assoc] at run
    exact wp_allows KeyUse.daemon_wp run (path_observing.mpr rfl)
  obtain ⟨trace, done, part, op, rfl, carried, allowed, issued⟩ :=
    wp_allows (wp_carried Disclosure.daemon_wp) run (path_history.mpr rfl)
  obtain ⟨rfl, rfl⟩ := eq_of_write (issued answer)
  obtain ⟨l, secret, first, asked, rfl, configured, alone, within⟩ := allowed
  obtain ⟨checks, replies, rfl, quiet, entitled, _, whole⟩ := within
  obtain ⟨device, opened, correct, _⟩ := entitled.passphrase
  obtain ⟨past, _, rfl, earlier, connected⟩ := carried.split
  obtain ⟨_, since, rfl, accepted, during⟩ :=
    @Carried.split Op _ Res _ _ [⟨.accept l.fd, .ok conn⟩] (checks ++ replies) _ connected
  have accepting := carried_singleton.mp accepted
  obtain rfl := runs_perform_some.mp accepting
  refine ⟨l, secret, device, past, since, ?_, ⟨first, earlier, configured⟩, ?_,
    openFile_mem (opened.append_right replies) during, ?_, ?_⟩
  · simp
  · intro event member other same
    obtain ⟨request, requested, accepting⟩ := requested during member same
    exact alone request requested other accepting
  · refine opened_of_correct (correct.append_right replies) during ?_
    simpa using held
  · rw [handed_eq_written during, written_append, Disclosure.written_of_quiet quiet]
    exact whole

open Scene in
/-- The passphrase that was typed opened the volume before it is written. -/
theorem disclosed_after_trial_home
    : ∃ device secret past since, Opened device secret past since
        ∧ Text.asBytes "correct horse" <:+ secret.bytes := by
  have called : (play (twoVolumes "no" fun _ => [0xaa])).trace.any (fun event =>
      event.op = .write 110 (Text.asBytes "correct horse")) = true := by
    decide +kernel
  obtain ⟨patience, left, _, right, run, answer, _, ran⟩ := exists_carriedOut declined_smooth called
  obtain rfl := runs_perform_some.mp ran
  obtain ⟨_, secret, device, past, since, _, _, _, _, opened, whole⟩ := disclosed_after_trial run
  exact ⟨device, secret, _, since, opened, _, whole⟩

end Tpm2Autoenroll
