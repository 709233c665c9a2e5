import Tpm2Autoenroll.Children.Pipes

/-! The output of a child is collected whole or not at all. -/

namespace Tpm2Autoenroll.Child

open Interaction Prog Monitor
open Buffering (Buffer)
open Text (Bytes)

variable {b : Behaviour} {cmd : Command} {timeout cap : Nat} {s after : Proc}

-----------------------------------------------------------------------------------------
-- One stream
-----------------------------------------------------------------------------------------

/-- A stream that is being collected. What was read and what is left is what the child writes, and
nothing is left once the pipe is closed.
-/
structure Collects (written : Bytes) (piped : Bool) (handle : Handle) (cap : Nat)
    (pipe : Option Handle) (into : Buffer UInt8) (s : Proc) : Prop where
  capacity : into.capacity = cap
  opened : ∀ p, pipe = some p → p = handle ∧ piped = true
  whole : piped = true → written = into.items ++ s.left handle
  ended : piped = true → pipe = none → s.left handle = [] ∧ s.ended handle = true
  unused : piped = false → into.items = []

variable {written : Bytes} {piped : Bool} {handle : Handle} {pipe : Option Handle}
  {into : Buffer UInt8}

/-- It depends on nothing but its own pipe. -/
theorem Collects.frame (collects : Collects written piped handle cap pipe into s)
    (left : after.left handle = s.left handle) (ended : after.ended handle = s.ended handle)
    : Collects written piped handle cap pipe into after where
  capacity := collects.capacity
  opened := collects.opened
  whole := by
    rw [left]
    exact collects.whole
  ended := by
    rw [left, ended]
    exact collects.ended
  unused := collects.unused

theorem Collects.length_le (collects : Collects written piped handle cap pipe into s)
    : into.length ≤ cap :=
  collects.capacity ▸ into.fits

/-- Nothing was read yet. -/
theorem Collects.start (left : s.left handle = written)
    : Collects written piped handle cap (if piped then some handle else none)
        (.withCapacity cap) s where
  capacity := rfl
  opened p same := by
    split_ifs at same with here
    exact ⟨(Option.some.inj same).symm, here⟩
  whole _ := left.symm
  ended here closed := by
    rw [here] at closed
    cases closed
  unused _ := rfl

/-- What reading from one pipe can change. -/
structure Draws (handle : Handle) (s after : Proc) : Prop where
  readings : after.readings = s.readings
  killed : after.killed = s.killed
  due : after.due = s.due.erase handle
  exited : s.exited = true → after.exited = true
  left : ∀ other ≠ handle, after.left other = s.left other
  ended : ∀ other ≠ handle, after.ended other = s.ended other

theorem draws_fail {e : Errno} {exited : Bool} (later : s.exited = true → exited = true)
    : Draws handle s { s.fail handle e with exited } :=
  ⟨rfl, rfl, rfl, later, fun _ _ => rfl, fun _ _ => rfl⟩

theorem draws_receive {room : Nat} {data : Bytes} {exited : Bool}
    (later : s.exited = true → exited = true)
    : Draws handle s { s.receive handle room data with exited } where
  readings := rfl
  killed := rfl
  due := rfl
  exited := later
  left other elsewhere := Function.update_of_ne elsewhere _ _
  ended other elsewhere := by
    simp only [Proc.receive]
    split_ifs
    · exact Function.update_of_ne elsewhere _ _
    · rfl

/-- What a drain makes of a stream: it is still collected, or there is a reason why not. -/
def Drained (written : Bytes) (piped : Bool) (handle : Handle) (cap : Nat) (s : Proc)
    (result : Except String (Option Handle × Buffer UInt8)) (after : Proc) : Prop :=
  Draws handle s after
  ∧ match result with
    | .ok (pipe, into) =>
        after.failed = s.failed ∧ Collects written piped handle cap pipe into after
    | .error _ => after.failed = true ∨ piped = true ∧ cap < written.length

variable {exited : Bool}

/-- Nothing more to read. -/
theorem Collects.finish {room : Nat}
    (collects : Collects written piped handle cap (some handle) into s)
    (reads : s.Reads handle room []) (some : 0 < room)
    : Collects written piped handle cap none into { s.receive handle room [] with exited } where
  capacity := collects.capacity
  opened := nofun
  whole := by
    intro here
    simpa [Proc.receive] using collects.whole here
  ended := by
    intro here _
    simp [Proc.receive, some, reads.2 rfl some]
  unused := collects.unused

/-- What was read goes to the end of the buffer. -/
theorem Collects.extend {room : Nat} {data : Bytes} {more : Buffer UInt8}
    (collects : Collects written piped handle cap (some handle) into s)
    (reads : s.Reads handle room data) (items : more.items = into.items ++ data)
    (capacity : more.capacity = into.capacity)
    : Collects written piped handle cap (some handle) more
        { s.receive handle room data with exited } where
  capacity := capacity.trans collects.capacity
  opened := collects.opened
  whole := by
    intro here
    obtain ⟨rest, split⟩ := reads.1
    have left : (s.receive handle room data).left handle = (s.left handle).drop data.length :=
      Function.update_self _ _ _
    rw [collects.whole here, items, List.append_assoc, left, ← split, List.drop_left]
  ended := nofun
  unused := fun unused => absurd (collects.opened handle rfl).2 (unused ▸ Bool.false_ne_true)

/-- One drain. -/
theorem drain_wp {total : Nat} (collects : Collects written piped handle cap (some handle) into s)
    (limited : limit total handle = cap) (due : handle ∈ s.due)
    : wp (watch b total) (drain (some handle) into cap).run
        (Drained written piped handle cap s) s := by
  have here := (collects.opened handle rfl).2
  unfold drain
  dsimp only
  split_ifs with full
  · refine Fallible.wp_perform_bind.mpr ⟨due, fun answer after step => ?_⟩
    obtain ⟨exited, later, truthful, rfl⟩ := step
    match answer with
    | .ok ⟨[], _⟩ => exact ⟨draws_receive later, rfl, collects.finish truthful Nat.one_pos⟩
    | .ok ⟨x :: more, _⟩ =>
        refine ⟨draws_receive later, Or.inr ⟨here, ?_⟩⟩
        -- The buffer is full and a byte is left.
        have left : more.length + 1 ≤ (s.left handle).length := truthful.1.length_le
        have filled : into.items.length = cap := full
        rw [collects.whole here, List.length_append]
        omega
    | .error .intr => exact ⟨draws_fail later, Bool.or_false _, collects.frame rfl rfl⟩
    | .error .again | .error .noent | .error .exist | .error .pipe | .error .noprotoopt
    | .error (.other _) => exact ⟨draws_fail later, Or.inl (by simp [Proc.note, Proc.fail])⟩
  · have within := collects.length_le
    have longer : into.length ≤ into.length + min (cap - into.length) chunk :=
      Nat.le_add_right _ _
    have room : into.length + min (cap - into.length) chunk ≤ into.capacity := by
      rw [collects.capacity]
      omega
    have kept : (into.resize (into.length + min (cap - into.length) chunk) 0).capacity = cap :=
      (Buffer.capacity_resize 0 room).trans collects.capacity
    have restored := Buffer.truncate_resize 0 longer room
    refine Fallible.wp_perform_bind.mpr
      ⟨⟨due, kept.trans limited.symm⟩, fun answer after step => ?_⟩
    obtain ⟨exited, later, truthful, rfl⟩ := step
    match answer with
    | .ok ⟨[], _⟩ =>
        have some : 0 < (into.resize (into.length + min (cap - into.length) chunk) 0).length
            - into.length := by
          rw [Buffer.length_resize]
          unfold chunk
          omega
        refine ⟨draws_receive later, rfl, ?_⟩
        rw [restored]
        exact collects.finish truthful some
    | .ok ⟨x :: more, fits⟩ =>
        rw [Buffer.length_resize] at fits
        refine ⟨draws_receive later, rfl, collects.extend truthful ?_ ?_⟩
        · exact Buffer.items_truncate_overwrite (by omega)
        · exact Buffer.capacity_resize 0 room
    | .error .intr =>
        refine ⟨draws_fail later, Bool.or_false _, ?_⟩
        rw [restored]
        exact collects.frame rfl rfl
    | .error .again | .error .noent | .error .exist | .error .pipe | .error .noprotoopt
    | .error (.other _) => exact ⟨draws_fail later, Or.inl (by simp [Proc.note, Proc.fail])⟩

-----------------------------------------------------------------------------------------
-- Polls
-----------------------------------------------------------------------------------------

/-- A descriptor and its result stand at one position. -/
theorem exists_result_iff {fds : List Handle} {results : Fin fds.length → Bool}
    : (∃ i, fds.get i = handle ∧ results i = true)
      ↔ (handle, true) ∈ fds.zip (List.ofFn results) := by
  constructor
  · rintro ⟨i, rfl, found⟩
    exact List.mem_iff_getElem.mpr ⟨i, by simp, by simp [found]⟩
  · intro member
    obtain ⟨i, bound, same⟩ := List.mem_iff_getElem.mp member
    simp only [List.getElem_zip, List.getElem_ofFn, Prod.mk.injEq] at same
    simp only [List.length_zip, List.length_ofFn, min_self] at bound
    exact ⟨⟨i, bound⟩, same⟩

/-- Whichever descriptors are still polled, each result goes to the one it stands for. -/
theorem Collecting.ready_iff {c : Collecting} (stdout : ∀ p, c.stdoutPipe = some p → p = .stdout)
    (stderr : ∀ p, c.stderrPipe = some p → p = .stderr) (results : Fin c.fds.length → Bool)
    : ((c.ready results).pid = true ↔ ∃ i, c.fds.get i = .pidfd ∧ results i = true)
      ∧ ((c.ready results).stdout = true ↔ ∃ i, c.fds.get i = .stdout ∧ results i = true)
      ∧ ((c.ready results).stderr = true ↔ ∃ i, c.fds.get i = .stderr ∧ results i = true) := by
  have size : (List.ofFn results).length = c.fds.length := List.length_ofFn
  simp only [exists_result_iff, ready]
  generalize List.ofFn results = bits at size
  obtain ⟨exited, out, err, _, _⟩ := c
  have out_eq : out = none ∨ out = some .stdout := by
    cases out with
    | none => exact Or.inl rfl
    | some p => exact Or.inr (congrArg some (stdout p rfl))
  have err_eq : err = none ∨ err = some .stderr := by
    cases err with
    | none => exact Or.inl rfl
    | some p => exact Or.inr (congrArg some (stderr p rfl))
  -- One case for each subset of the three.
  rcases out_eq with rfl | rfl <;> rcases err_eq with rfl | rfl <;> cases exited <;>
    rcases bits with _ | ⟨x, _ | ⟨y, _ | ⟨z, more⟩⟩⟩ <;> simp [next, fds] at size ⊢

/-- Only a pipe that is still open is reported. -/
theorem Collecting.opened_of_ready {c : Collecting} {results : Fin c.fds.length → Bool}
    : ((c.ready results).stdout = true → c.stdoutPipe ≠ none)
      ∧ ((c.ready results).stderr = true → c.stderrPipe ≠ none) := by
  constructor
  · rintro out closed
    simp [ready, next, closed] at out
  · rintro err closed
    simp [ready, next, closed] at err

/-- What is reported is what is taken in. -/
theorem Collecting.reported_eq {c : Collecting} (stdout : ∀ p, c.stdoutPipe = some p → p = .stdout)
    (stderr : ∀ p, c.stderrPipe = some p → p = .stderr) (results : Fin c.fds.length → Bool)
    : reported results = (if (c.ready results).stdout then [.stdout] else [])
        ++ if (c.ready results).stderr then [.stderr] else [] := by
  obtain ⟨_, out, err⟩ := ready_iff stdout stderr results
  simp only [reported, ← out, ← err, List.filter_cons, List.filter_nil, Bool.decide_eq_true]
  cases (c.ready results).stdout <;> cases (c.ready results).stderr <;> rfl

-----------------------------------------------------------------------------------------
-- The loop
-----------------------------------------------------------------------------------------

/-- A reading after the first one is past the deadline. -/
def Late (timeout : Nat) : List Nat → Prop
  | [] => False
  | first :: rest => ∃ reading ∈ rest, first + timeout ≤ reading

/-- A call failed or the deadline passed. -/
def Proc.Disturbed (timeout : Nat) (s : Proc) : Prop := s.failed = true ∨ Late timeout s.readings

/-- The child writes more to a pipe than may be collected. -/
def Behaviour.Overflows (b : Behaviour) (cmd : Command) (cap : Nat) : Prop :=
  cmd.stdout = true ∧ cap < b.stdout.length ∨ cmd.stderr = true ∧ stderrCap < b.stderr.length

/-- The invariant of the loop. -/
structure Going (b : Behaviour) (cmd : Command) (timeout cap deadline : Nat) (c : Collecting)
    (s : Proc) : Prop where
  exited : c.exited = true → s.exited = true
  stdout : Collects b.stdout cmd.stdout .stdout cap c.stdoutPipe c.stdout s
  stderr : Collects b.stderr cmd.stderr .stderr stderrCap c.stderrPipe c.stderr s
  unkilled : s.killed = false
  failed : s.failed = false
  timely : ∃ first rest, s.readings = first :: rest ∧ deadline = first + timeout
    ∧ ∀ reading ∈ rest, reading < deadline

variable {deadline : Nat} {c : Collecting}

/-- Nothing happens to the pipes. -/
theorem Going.idle (going : Going b cmd timeout cap deadline c s) (left : after.left = s.left)
    (ended : after.ended = s.ended) (exited : s.exited = true → after.exited = true)
    (killed : after.killed = s.killed) (failed : after.failed = s.failed)
    (timely : ∃ first rest, after.readings = first :: rest ∧ deadline = first + timeout
      ∧ ∀ reading ∈ rest, reading < deadline)
    : Going b cmd timeout cap deadline c after where
  exited out := exited (going.exited out)
  stdout := going.stdout.frame (congrFun left _) (congrFun ended _)
  stderr := going.stderr.frame (congrFun left _) (congrFun ended _)
  unkilled := killed.trans going.unkilled
  failed := failed.trans going.failed
  timely := timely

/-- It goes on with these pipes due, or there is a reason why not. -/
def Goes (b : Behaviour) (cmd : Command) (timeout cap deadline : Nat) (due : List Handle)
    (result : Except String Collecting) (after : Proc) : Prop :=
  match result with
  | .ok c => Going b cmd timeout cap deadline c after ∧ after.due = due
  | .error _ => after.failed = true ∨ b.Overflows cmd cap

namespace Collecting

theorem drainStdout_wp {due : List Handle} (going : Going b cmd timeout cap deadline c s)
    (opened : c.stdoutPipe = some .stdout) (dueNow : s.due = .stdout :: due)
    : wp (watch b cap) (c.drainStdout cap).run
        (fun result after =>
          Goes b cmd timeout cap deadline due result after
          ∧ ∀ next, result = .ok next → next.stderrPipe = c.stderrPipe) s := by
  have collects := going.stdout
  have member : .stdout ∈ s.due := dueNow ▸ List.mem_cons_self
  rw [opened] at collects
  rw [drainStdout, opened]
  refine Fallible.wp_bind.mpr ?_
  refine wp_mono (drain_wp collects rfl member) fun result after drained => ?_
  obtain ⟨draws, drained⟩ := drained
  match result with
  | .ok (pipe, into) =>
      obtain ⟨failed, collects⟩ := drained
      refine ⟨⟨?_, by rw [draws.due, dueNow, List.erase_cons_head]⟩, fun next same => ?_⟩
      · exact {
          exited := fun out => draws.exited (going.exited out)
          stdout := collects
          stderr := going.stderr.frame (draws.left _ nofun) (draws.ended _ nofun)
          unkilled := draws.killed.trans going.unkilled
          failed := failed.trans going.failed
          timely := draws.readings ▸ going.timely
        }
      · cases same
        rfl
  | .error _ => exact ⟨drained.imp_right Or.inl, nofun⟩

theorem drainStderr_wp {due : List Handle} (going : Going b cmd timeout cap deadline c s)
    (opened : c.stderrPipe = some .stderr) (dueNow : s.due = .stderr :: due)
    : wp (watch b cap) c.drainStderr.run (Goes b cmd timeout cap deadline due) s := by
  have collects := going.stderr
  have member : .stderr ∈ s.due := dueNow ▸ List.mem_cons_self
  rw [opened] at collects
  rw [drainStderr, opened]
  refine Fallible.wp_bind.mpr ?_
  refine wp_mono (drain_wp collects rfl member) fun result after drained => ?_
  obtain ⟨draws, drained⟩ := drained
  match result with
  | .ok (pipe, into) =>
      obtain ⟨failed, collects⟩ := drained
      refine ⟨?_, by rw [draws.due, dueNow, List.erase_cons_head]⟩
      exact {
        exited := fun out => draws.exited (going.exited out)
        stdout := going.stdout.frame (draws.left _ nofun) (draws.ended _ nofun)
        stderr := collects
        unkilled := draws.killed.trans going.unkilled
        failed := failed.trans going.failed
        timely := draws.readings ▸ going.timely
      }
  | .error _ => exact drained.imp_right Or.inr

/-- What was reported is taken in. -/
theorem take_wp {ready : Ready} (going : Going b cmd timeout cap deadline c s)
    (exited : ready.pid = true → s.exited = true)
    (stdout : ready.stdout = true → c.stdoutPipe = some .stdout)
    (stderr : ready.stderr = true → c.stderrPipe = some .stderr)
    (due : s.due
      = (if ready.stdout then [.stdout] else []) ++ if ready.stderr then [.stderr] else [])
    : wp (watch b cap) (c.take ready cap).run (Goes b cmd timeout cap deadline []) s := by
  have noted : Going b cmd timeout cap deadline
      (if ready.pid then { c with exited := true } else c) s := by
    split_ifs with out
    · exact { going with exited := fun _ => exited out }
    · exact going
  have pipes : (if ready.pid then { c with exited := true } else c).stdoutPipe = c.stdoutPipe
      ∧ (if ready.pid then { c with exited := true } else c).stderrPipe = c.stderrPipe := by
    split_ifs <;> exact ⟨rfl, rfl⟩
  have first {c' : Collecting} (going : Going b cmd timeout cap deadline c' s)
      (same : c'.stdoutPipe = c.stdoutPipe)
      : wp (watch b cap) (if ready.stdout then c'.drainStdout cap else pure c').run
          (fun result after =>
            Goes b cmd timeout cap deadline (if ready.stderr then [.stderr] else []) result after
            ∧ ∀ next, result = .ok next → next.stderrPipe = c'.stderrPipe) s := by
    cases reported : ready.stdout with
    | true =>
        rw [reported] at due
        exact drainStdout_wp going (same.trans (stdout reported)) due
    | false =>
        rw [reported] at due
        exact ⟨⟨going, due⟩, fun next same => by cases same; rfl⟩
  refine Fallible.wp_bind.mpr (wp_mono (first noted pipes.1) fun result after goes => ?_)
  cases result with
  | error e => exact goes.1
  | ok next =>
      obtain ⟨⟨going, due⟩, kept⟩ := goes
      dsimp only
      split_ifs at due ⊢ with reported
      · exact drainStderr_wp going ((kept next rfl).trans (pipes.2.trans (stderr reported))) due
      · exact ⟨going, due⟩

/-- What a loop that has not ended with an error leads to. -/
def Turned (b : Behaviour) (cmd : Command) (timeout cap deadline : Nat)
    (result : Except String (Option Collecting)) (after : Proc) : Prop :=
  match result with
  | .ok (some c) => Going b cmd timeout cap deadline c after ∧ after.due = []
  | .ok none => Late timeout after.readings
  | .error _ => after.failed = true ∨ b.Overflows cmd cap

/-- One trip round the loop. -/
theorem turn_wp (going : Going b cmd timeout cap deadline c s) (due : s.due = [])
    : wp (watch b cap) (c.turn deadline cap).run (Turned b cmd timeout cap deadline) s := by
  unfold turn
  refine Fallible.wp_perform_bind.mpr ⟨trivial, fun (now : Nat) read step => ?_⟩
  obtain ⟨first, rest, readings, same, timely⟩ := going.timely
  have noted : read.readings = first :: (rest ++ [now]) := by
    obtain ⟨_, _, _, rfl⟩ := step
    exact congrArg (· ++ [now]) readings
  dsimp only
  split_ifs with passed
  · change Late timeout read.readings
    rw [noted]
    exact ⟨now, by simp, by omega⟩
  · have reading : Going b cmd timeout cap deadline c read ∧ read.due = [] := by
      obtain ⟨exited, later, _, rfl⟩ := step
      refine ⟨going.idle rfl rfl later rfl rfl ⟨first, _, noted, same, ?_⟩, due⟩
      intro reading member
      rcases List.mem_append.mp member with member | member
      · exact timely reading member
      · rw [List.mem_singleton.mp member]
        omega
    obtain ⟨reading, due⟩ := reading
    refine Fallible.wp_perform_bind.mpr ⟨due, fun answer after step => ?_⟩
    obtain ⟨exited, later, truthful, rfl⟩ := step
    match answer with
    | .ok results =>
        have stdout := fun p same => (reading.stdout.opened p same).1
        have stderr := fun p same => (reading.stderr.opened p same).1
        have polled : Going b cmd timeout cap deadline c
            { read with exited, due := reported results } :=
          reading.idle rfl rfl later rfl rfl reading.timely
        have out : (c.ready results).pid = true → exited = true := by
          intro reported
          obtain ⟨i, pidfd, found⟩ := (ready_iff stdout stderr results).1.mp reported
          exact truthful i pidfd found
        have taken := take_wp polled out (fun reported => ?_) (fun reported => ?_)
          (reported_eq stdout stderr results)
        · refine Fallible.wp_bind.mpr (wp_mono taken fun result after goes => ?_)
          cases result <;> exact goes
        · obtain ⟨p, opened⟩ := Option.ne_none_iff_exists'.mp (opened_of_ready.1 reported)
          rw [opened, stdout p opened]
        · obtain ⟨p, opened⟩ := Option.ne_none_iff_exists'.mp (opened_of_ready.2 reported)
          rw [opened, stderr p opened]
    | .error .intr =>
        exact ⟨reading.idle rfl rfl later rfl (Bool.or_false _) reading.timely, due⟩
    | .error .again | .error .noent | .error .exist | .error .pipe | .error .noprotoopt
    | .error (.other _) => exact Or.inl (by simp [Proc.note])

end Collecting

/-- Everything there was to collect was collected. -/
structure Complete (b : Behaviour) (cmd : Command) (timeout cap : Nat) (out err : Buffer UInt8)
    (s : Proc) : Prop where
  exited : s.exited = true
  stdoutEnded : cmd.stdout = true → s.ended .stdout = true
  stderrEnded : cmd.stderr = true → s.ended .stderr = true
  stdout : out.items = if cmd.stdout then b.stdout else []
  stderr : err.items = if cmd.stderr then b.stderr else []
  capacity : out.capacity = cap
  stderrCapacity : err.capacity = stderrCap
  unkilled : s.killed = false
  undisturbed : ¬ s.Disturbed timeout

/-- There is a reason for not collecting everything. -/
def Cut (b : Behaviour) (cmd : Command) (timeout cap : Nat) (s : Proc) : Prop :=
  s.Disturbed timeout ∨ b.Overflows cmd cap

/-- Whole or not at all. -/
def Ends (b : Behaviour) (cmd : Command) (timeout cap : Nat)
    (result : Except String (Option (Buffer UInt8 × Buffer UInt8))) (after : Proc) : Prop :=
  match result with
  | .ok (some (out, err)) => Complete b cmd timeout cap out err after
  | _ => Cut b cmd timeout cap after

theorem Collects.items_eq (collects : Collects written piped handle cap none into s)
    : into.items = if piped then written else [] := by
  cases piped with
  | false => exact collects.unused rfl
  | true =>
      rw [if_pos rfl, collects.whole rfl, (collects.ended rfl rfl).1, List.append_nil]

namespace Collecting

/-- When the loop is over everything is there. -/
theorem done_complete (going : Going b cmd timeout cap deadline c s) (finished : c.done = true)
    : Complete b cmd timeout cap c.stdout c.stderr s := by
  simp only [done, Bool.and_eq_true, Option.isNone_iff_eq_none] at finished
  obtain ⟨⟨exited, stdoutClosed⟩, stderrClosed⟩ := finished
  have out := going.stdout
  have err := going.stderr
  rw [stdoutClosed] at out
  rw [stderrClosed] at err
  obtain ⟨first, rest, readings, same, timely⟩ := going.timely
  refine {
    exited := going.exited exited
    stdoutEnded := fun piped => (out.ended piped rfl).2
    stderrEnded := fun piped => (err.ended piped rfl).2
    stdout := out.items_eq
    stderr := err.items_eq
    capacity := out.capacity
    stderrCapacity := err.capacity
    unkilled := going.unkilled
    undisturbed := ?_
  }
  rintro (failed | late)
  · exact Bool.noConfusion (failed.symm.trans going.failed)
  · rw [readings] at late
    obtain ⟨reading, member, passed⟩ := late
    have before := timely reading member
    omega

/-- The loop, by induction on its trips. -/
theorem loop_wp {trips : Nat} (going : Going b cmd timeout cap deadline c s) (due : s.due = [])
    : wp (watch b cap) (loop deadline cap trips c).run (Ends b cmd timeout cap) s := by
  induction trips generalizing c s with
  | zero => trivial
  | succ trips ih =>
      rw [loop]
      split_ifs with finished
      · exact done_complete going finished
      · refine Fallible.wp_bind.mpr (wp_mono (turn_wp going due) fun result after turned => ?_)
        match result with
        | .ok (some c) => exact ih turned.1 turned.2
        | .ok none => exact Or.inl (Or.inr turned)
        | .error _ => exact turned.imp Or.inl id

end Collecting

/-- A child from which nothing was read yet. -/
structure Proc.Started (b : Behaviour) (s : Proc) : Prop where
  left : s.left = b.writes
  due : s.due = []
  unkilled : s.killed = false
  failed : s.failed = false
  readings : s.readings = []

/-- Collecting from a child that was just spawned. -/
theorem collect_wp {pid trips : Nat} (positive : 0 < pid) (started : s.Started b)
    : wp (watch b cap) (collect cmd pid timeout cap trips).run (Ends b cmd timeout cap) s := by
  refine Fallible.wp_perform_bind.mpr ⟨trivial, fun (now : Nat) read step => ?_⟩
  obtain ⟨exited, later, _, rfl⟩ := step
  dsimp only
  rw [if_neg (Nat.ne_of_gt positive)]
  refine Fallible.wp_perform_bind.mpr ⟨trivial, fun answer after step => ?_⟩
  obtain ⟨exited, _, _, rfl⟩ := step
  match answer with
  | .error e => exact Or.inl (Or.inl rfl)
  | .ok () =>
      refine Collecting.loop_wp ?_ started.due
      exact {
        exited := nofun
        stdout := .start (congrFun started.left .stdout)
        stderr := .start (congrFun started.left .stderr)
        unkilled := started.unkilled
        failed := started.failed
        timely := ⟨now, [], congrArg (· ++ [now]) started.readings, rfl, nofun⟩
      }

/-- Running a child: what it wrote and how it exited, or there is a reason why not. -/
def Finishes (b : Behaviour) (cmd : Command) (timeout cap : Nat) (result : Except String Output)
    (after : Proc) : Prop :=
  match result with
  | .ok out =>
      ¬ Cut b cmd timeout cap after ∧ out.status = b.status
        ∧ out.stdout = (if cmd.stdout then b.stdout else [])
        ∧ out.stderr = if cmd.stderr then b.stderr else []
  | .error _ => Cut b cmd timeout cap after

theorem Complete.not_cut {out err : Buffer UInt8}
    (complete : Complete b cmd timeout cap out err s)
    : ¬ Cut b cmd timeout cap s := by
  rintro (disturbed | ⟨piped, tooMuch⟩ | ⟨piped, tooMuch⟩)
  · exact complete.undisturbed disturbed
  · have fits := out.fits
    rw [complete.stdout, if_pos piped, complete.capacity] at fits
    omega
  · have fits := err.fits
    rw [complete.stderr, if_pos piped, complete.stderrCapacity] at fits
    omega

theorem call_wp {α : Type} {made : Call} {next : Answer made → Steps α} {post : α → Proc → Prop}
    (allowed : s.Allows cap made)
    (rest : ∀ answer after,
      (watch b cap).step s ⟨made, answer⟩ after → wp (watch b cap) (next answer) post after)
    : wp (watch b cap) (call made >>= next) post s :=
  ⟨allowed, rest⟩

/-- What was seen goes on to be a reason. -/
theorem Cut.later (cut : Cut b cmd timeout cap s) (failed : s.failed = true → after.failed = true)
    (readings : after.readings = s.readings)
    : Cut b cmd timeout cap after := by
  rcases cut with (before | late) | tooMuch
  · exact Or.inl (Or.inl (failed before))
  · exact Or.inl (Or.inr (readings ▸ late))
  · exact Or.inr tooMuch

/-- The child is killed and reaped. -/
theorem reap_wp {error : String} (cut : Cut b cmd timeout cap s)
    : wp (watch b cap) (do
        let _ ← call .kill
        let _ ← call .wait
        return .error error)
      (Finishes b cmd timeout cap) s := by
  refine call_wp trivial fun killing killed step => ?_
  obtain ⟨_, _, _, rfl⟩ := step
  refine call_wp trivial fun (waiting : Except Errno ExitStatus) reaped step => ?_
  obtain ⟨_, _, _, rfl⟩ := step
  cases waiting with
  | ok status => exact cut.later id rfl
  | error e => exact cut.later (fun failed => by simp [Proc.note, failed]) rfl

theorem run_wp {trips : Nat}
    : wp (watch b cap) (run cmd timeout cap trips) (Finishes b cmd timeout cap) (.fresh b) := by
  refine call_wp trivial fun answer after step => ?_
  obtain ⟨exited, _, truthful, rfl⟩ := step
  match answer with
  | .error e => exact Or.inl (Or.inl rfl)
  | .ok pid =>
      refine wp_bind.mpr ?_
      refine wp_mono (collect_wp truthful ⟨rfl, rfl, rfl, rfl, rfl⟩) fun result after ends => ?_
      match result with
      | .ok (some (out, err)) =>
          refine call_wp trivial fun status final step => ?_
          obtain ⟨exited, _, truthful, rfl⟩ := step
          match status with
          | .ok status => exact ⟨ends.not_cut, truthful ends.unkilled, ends.stdout, ends.stderr⟩
          | .error e => exact Or.inl (Or.inl (by simp [Proc.note, ends.unkilled]))
      | .ok none => exact reap_wp ends
      | .error e => exact reap_wp ends

-----------------------------------------------------------------------------------------
-- Killing and reaping
-----------------------------------------------------------------------------------------

/-- What is called while output is collected. -/
@[simp]
def Call.collecting : Call → Prop
  | .spawn | .kill | .wait => False
  | _ => True

theorem drain_only {pipe : Option Handle} {into : Buffer UInt8}
    : (drain pipe into cap).run.Only Call.collecting True := by
  cases pipe with
  | none => trivial
  | some p =>
      unfold drain
      dsimp only
      split_ifs
      · refine Fallible.only_perform_bind.mpr ⟨trivial, fun answer => ?_⟩
        match answer with
        | .ok ⟨[], _⟩ | .ok ⟨_ :: _, _⟩ | .error .intr => trivial
        | .error .again | .error .noent | .error .exist | .error .pipe | .error .noprotoopt
        | .error (.other _) => trivial
      · refine Fallible.only_perform_bind.mpr ⟨trivial, fun answer => ?_⟩
        match answer with
        | .ok ⟨[], _⟩ | .ok ⟨_ :: _, _⟩ | .error .intr => trivial
        | .error .again | .error .noent | .error .exist | .error .pipe | .error .noprotoopt
        | .error (.other _) => trivial

namespace Collecting

theorem take_only {ready : Ready} : (c.take ready cap).run.Only Call.collecting True := by
  unfold take
  refine Fallible.only_bind ?_ fun c => ?_
  · split_ifs
    · exact Fallible.only_bind drain_only fun _ => trivial
    · exact Fallible.only_bind drain_only fun _ => trivial
    · trivial
    · trivial
  · split_ifs
    · exact Fallible.only_bind drain_only fun _ => trivial
    · trivial

theorem turn_only : (c.turn deadline cap).run.Only Call.collecting True := by
  refine Fallible.only_perform_bind.mpr ⟨trivial, fun (now : Nat) => ?_⟩
  dsimp only
  split_ifs
  · trivial
  · refine Fallible.only_perform_bind.mpr ⟨trivial, fun answer => ?_⟩
    match answer with
    | .ok results => exact Fallible.only_bind take_only fun _ => trivial
    | .error .intr => trivial
    | .error .again | .error .noent | .error .exist | .error .pipe | .error .noprotoopt
    | .error (.other _) => trivial

/-- By induction on the trips. -/
theorem loop_only {trips : Nat} : (loop deadline cap trips c).run.Only Call.collecting True := by
  induction trips generalizing c with
  | zero => trivial
  | succ trips ih =>
      rw [loop]
      split_ifs
      · trivial
      · refine Fallible.only_bind turn_only fun turned => ?_
        cases turned with
        | none => trivial
        | some next => exact ih

end Collecting

theorem collect_only {pid trips : Nat}
    : (collect cmd pid timeout cap trips).run.Only Call.collecting True := by
  refine Fallible.only_perform_bind.mpr ⟨trivial, fun (now : Nat) => ?_⟩
  dsimp only
  by_cases none : pid = 0
  · rw [if_pos none]
    trivial
  · rw [if_neg none]
    refine Fallible.only_perform_bind.mpr ⟨trivial, fun answer => ?_⟩
    cases answer with
    | error e => trivial
    | ok => exact Collecting.loop_only

theorem runs_call {α : Type} {made : Call} {next : Answer made → Steps α}
    {trace : Interaction.Trace Answer} {result : α}
    : (call made >>= next).Runs trace (some result)
      ↔ ∃ answer later, trace = ⟨made, answer⟩ :: later
        ∧ (next answer).Runs later (some result) :=
  runs_call_some

/-- The child is reaped once, and killed before that once unless its output was collected. -/
def Reaped (collected : Except String (Option (Buffer UInt8 × Buffer UInt8)))
    (result : Except String Output) (ending : Interaction.Trace Answer) : Prop :=
  match collected with
  | .ok (some _) => ∃ status, ending = [⟨.wait, status⟩]
  | _ =>
      (∃ killing waiting, ending = [⟨.kill, killing⟩, ⟨.wait, waiting⟩])
        ∧ ∃ error, result = .error error

/-- A child that was spawned is collected from and then reaped. -/
theorem run_cases {trips pid : Nat} {trace : Interaction.Trace Answer}
    {result : Except String Output}
    (ran : (run cmd timeout cap trips).Runs (⟨.spawn, .ok pid⟩ :: trace) (some result))
    : ∃ collected collecting ending, trace = collecting ++ ending
        ∧ (collect cmd pid timeout cap trips).run.Runs collecting (some collected)
        ∧ (∀ event ∈ collecting, event.op.collecting)
        ∧ Reaped collected result ending := by
  obtain ⟨spawned, rest, same, spawning⟩ := runs_call.mp ran
  obtain ⟨rfl, rfl⟩ : spawned = .ok pid ∧ rest = trace := by
    cases same
    exact ⟨rfl, rfl⟩
  obtain ⟨collected, collecting, ending, rfl, collects, reaps⟩ := runs_bind_some.mp spawning
  refine ⟨collected, collecting, ending, rfl, collects, fun event => collect_only.mem collects, ?_⟩
  match collected with
  | .ok (some (out, err)) =>
      obtain ⟨status, later, rfl, returned⟩ := runs_call.mp reaps
      match status with
      | .ok status | .error e =>
          obtain ⟨rfl, _⟩ := runs_pure_some.mp returned
          exact ⟨_, rfl⟩
  | .ok none | .error _ =>
      obtain ⟨killing, _, rfl, waits⟩ := runs_call.mp reaps
      obtain ⟨waiting, _, rfl, returned⟩ := runs_call.mp waits
      obtain ⟨rfl, rfl⟩ := runs_pure_some.mp returned
      exact ⟨⟨_, _, rfl⟩, _, rfl⟩

/-- The output of a child is collected whole or not at all, whatever polls report and however much
each read returns. Each pipe that a poll reports is read before the next one and no other, into a
buffer that is as large as what may be collected and stays so; a child that is not collected from
whole is killed and reaped, once.
-/
theorem collected_whole (b : Behaviour) (cmd : Command) (timeout cap trips : Nat)
    : (∀ pid trace start after out err, 0 < pid → start.Started b
        → (collect cmd pid timeout cap trips).run.Runs trace (some (.ok (some (out, err))))
        → (watch b cap).Path start trace after
        → after.exited = true
          ∧ (cmd.stdout = true → after.ended .stdout = true)
          ∧ (cmd.stderr = true → after.ended .stderr = true)
          ∧ out.items = (if cmd.stdout then b.stdout else [])
          ∧ err.items = (if cmd.stderr then b.stderr else [])
          ∧ out.items.length ≤ cap)
      ∧ (∀ trace after out, cmd.stdout = true → cap < b.stdout.length
        → (watch b cap).Path (.fresh b) trace after
        → ¬ (run cmd timeout cap trips).Runs trace (some (.ok out)))
      ∧ (∀ before event later outcome here,
        (run cmd timeout cap trips).Runs (before ++ event :: later) outcome
        → (watch b cap).Path (.fresh b) before here
        → here.Allows cap event.op
          ∧ ∀ into start, event.op = .read .stdout into start
            → into.items.length ≤ cap ∧ into.capacity = cap)
      ∧ (∀ (c : Collecting) (results : Fin c.fds.length → Bool),
        (∀ p, c.stdoutPipe = some p → p = .stdout) → (∀ p, c.stderrPipe = some p → p = .stderr)
        → ((c.ready results).pid = true ↔ ∃ i, c.fds.get i = .pidfd ∧ results i = true)
          ∧ ((c.ready results).stdout = true ↔ ∃ i, c.fds.get i = .stdout ∧ results i = true)
          ∧ ((c.ready results).stderr = true ↔ ∃ i, c.fds.get i = .stderr ∧ results i = true))
      ∧ ∀ pid trace result,
        (run cmd timeout cap trips).Runs (⟨.spawn, .ok pid⟩ :: trace) (some result)
        → ∃ collected collecting ending, trace = collecting ++ ending
          ∧ (collect cmd pid timeout cap trips).run.Runs collecting (some collected)
          ∧ (∀ event ∈ collecting, event.op.collecting)
          ∧ Reaped collected result ending := by
  refine ⟨?_, ?_, ?_, fun c results stdout stderr => Collecting.ready_iff stdout stderr results,
    fun pid trace result => run_cases⟩
  · intro pid trace start after out err positive started ran path
    have ends : Ends b cmd timeout cap (.ok (some (out, err))) after :=
      wp_post (collect_wp positive started) ran path
    have complete : Complete b cmd timeout cap out err after := ends
    have fits := out.fits
    rw [complete.capacity] at fits
    exact ⟨complete.exited, complete.stdoutEnded, complete.stderrEnded, complete.stdout,
      complete.stderr, fits⟩
  · intro trace after out piped tooMuch path ran
    have finishes : Finishes b cmd timeout cap (.ok out) after := wp_post run_wp ran path
    exact finishes.1 (Or.inr (Or.inl ⟨piped, tooMuch⟩))
  · intro before event later outcome here ran path
    have allowed : here.Allows cap event.op := wp_allows run_wp ran path
    refine ⟨allowed, fun into start same => ?_⟩
    rw [same] at allowed
    have capacity : into.capacity = cap := allowed.2
    exact ⟨into.fits.trans capacity.le, capacity⟩

end Tpm2Autoenroll.Child
