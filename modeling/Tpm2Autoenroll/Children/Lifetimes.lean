import Tpm2Autoenroll.Children.Collecting

/-! From the spawning of a child to the wait for it: how long the daemon lets itself be held up by
one, and that it leaves none behind.
-/

namespace Tpm2Autoenroll.Child

open Interaction Prog Monitor
open Buffering (Buffer)

/-- A child that was spawned and not waited for yet. -/
structure Life where
  pid : Nat
  /-- The first reading of the clock. -/
  begun : Option Nat
  /-- The latest reading of the clock. -/
  latest : Nat
  exited : Bool
  killed : Bool

/-- The child there is, if any. -/
def follow (s : Option Life) : Interaction.Event Answer → Option Life
  | ⟨.spawn, .ok pid⟩ => some ⟨pid, none, 0, false, false⟩
  | ⟨.spawn, .error _⟩ => s
  | ⟨.now, reading⟩ =>
      s.map fun life => { life with begun := some (life.begun.getD reading), latest := reading }
  | ⟨.poll fds _, .ok results⟩ =>
      s.map fun life => {
        life with
        exited := life.exited || decide (∃ i, fds.get i = .pidfd ∧ results i = true)
      }
  | ⟨.kill, _⟩ => s.map fun life => { life with killed := true }
  | ⟨.wait, _⟩ => none
  | _ => s

/-- There is a child that was not killed, and this is so of it. -/
def Alive (s : Option Life) (holds : Life → Prop) : Prop :=
  ∃ life, s = some life ∧ life.killed = false ∧ holds life

/-- A child is spawned when there is none. A poll is for something, and for no longer than what is
left of the time since the first reading of the clock. A wait is for a child that was reported to
have exited or that was killed. A child that was killed is only waited for.
-/
def tended (timeout : Nat) (s : Option Life) : Call → Prop
  | .spawn => s = none
  | .pidfdOpen pid => pid ≠ 0 ∧ Alive s fun life => life.pid = pid
  | .poll fds left => fds ≠ [] ∧ 0 < left ∧ Alive s fun life =>
      ∃ first, life.begun = some first ∧ life.latest + left = first + timeout
  | .wait => ∃ life, s = some life ∧ (life.exited = true ∨ life.killed = true)
  | .now | .read _ _ _ | .probe _ | .kill => Alive s fun _ => True

def tending (timeout : Nat) : Monitor Answer (Option Life) := observing (tended timeout) follow

variable {timeout cap deadline : Nat} {s : Option Life} {life : Life} {c : Collecting}

/-- The rule of a call. -/
theorem attend {α : Type} {made : Call} {next : Answer made → Steps α}
    {post : α → Option Life → Prop} (allowed : tended timeout s made)
    (later : ∀ answer, wp (tending timeout) (next answer) post (follow s ⟨made, answer⟩))
    : wp (tending timeout) (call made >>= next) post s := by
  refine ⟨allowed, fun answer after step => ?_⟩
  rw [observing_step.mp step]
  exact later answer

/-- The rule of a call that something fallible follows. -/
theorem tend {α : Type} {made : Call} {next : Answer made → StepsE α}
    {post : Except String α → Option Life → Prop} (allowed : tended timeout s made)
    (later : ∀ answer, wp (tending timeout) (next answer).run post (follow s ⟨made, answer⟩))
    : wp (tending timeout) (ExceptT.lift (call made) >>= next).run post s :=
  attend allowed later

/-- What is left open of a pipe. -/
def LeftOpen (pipe : Option Handle) : Except String (Option Handle × Buffer UInt8) → Prop
  | .ok (left, _) => left = none ∨ left = pipe
  | .error _ => True

/-- Reading makes no difference to the child. -/
theorem Life.drain_wp {pipe : Option Handle} {into : Buffer UInt8}
    (alive : Alive s fun _ => True)
    : wp (tending timeout) (drain pipe into cap).run
        (fun result after => after = s ∧ LeftOpen pipe result) s := by
  cases pipe with
  | none => exact ⟨rfl, Or.inl rfl⟩
  | some p =>
      unfold drain
      dsimp only
      split_ifs
      · refine tend alive fun answer => ?_
        match answer with
        | .ok ⟨[], _⟩ => exact ⟨rfl, Or.inl rfl⟩
        | .error .intr => exact ⟨rfl, Or.inr rfl⟩
        | .ok ⟨_ :: _, _⟩ | .error .again | .error .noent | .error .exist | .error .pipe
        | .error .noprotoopt | .error (.other _) => exact ⟨rfl, trivial⟩
      · refine tend alive fun answer => ?_
        match answer with
        | .ok ⟨[], _⟩ => exact ⟨rfl, Or.inl rfl⟩
        | .ok ⟨_ :: _, _⟩ | .error .intr => exact ⟨rfl, Or.inr rfl⟩
        | .error .again | .error .noent | .error .exist | .error .pipe | .error .noprotoopt
        | .error (.other _) => exact ⟨rfl, trivial⟩

/-- A child that is collected from until a deadline. -/
structure Tends (timeout deadline : Nat) (c : Collecting) (s : Option Life) : Prop where
  stdout : ∀ p, c.stdoutPipe = some p → p = .stdout
  stderr : ∀ p, c.stderrPipe = some p → p = .stderr
  alive : Alive s fun life =>
    (c.exited = true → life.exited = true)
      ∧ ∃ first, life.begun = some first ∧ deadline = first + timeout

theorem Alive.mono {holds weaker : Life → Prop} (alive : Alive s holds)
    (weaken : ∀ life, holds life → weaker life)
    : Alive s weaker := by
  obtain ⟨life, here, unkilled, held⟩ := alive
  exact ⟨life, here, unkilled, weaken life held⟩

/-- Some poll is still worthwhile. -/
theorem Collecting.fds_ne_nil (going : ¬ c.done = true) : c.fds ≠ [] := by
  intro none
  simp only [fds, List.append_eq_nil_iff, Option.toList_eq_nil_iff] at none
  obtain ⟨⟨exited, stdout⟩, stderr⟩ := none
  simp [done, stdout, stderr] at going exited
  rw [exited] at going
  cases going

/-- Whatever is left of a pipe is the pipe. -/
theorem eq_of_leftOpen {pipe left : Option Handle} {into : Buffer UInt8} {handle : Handle}
    (placed : ∀ p, pipe = some p → p = handle) (kept : LeftOpen pipe (.ok (left, into)))
    : ∀ p, left = some p → p = handle := by
  intro p opened
  rcases kept with closed | same
  · cases closed.symm.trans opened
  · exact placed p (same.symm.trans opened)

/-- It goes on unless an error ends it, and then there is a child to be killed. -/
def Onward (timeout deadline : Nat) (result : Except String Collecting) (after : Option Life)
    : Prop :=
  match result with
  | .ok c => Tends timeout deadline c after
  | .error _ => Alive after fun _ => True

theorem Tends.mere (tends : Tends timeout deadline c s) : Alive s fun _ => True :=
  tends.alive.mono fun _ _ => trivial

/-- Reading the clock keeps the first reading. -/
theorem Tends.now (tends : Tends timeout deadline c s) (reading : Nat)
    : Tends timeout deadline c (follow s ⟨.now, reading⟩) := by
  obtain ⟨life, rfl, unkilled, exited, first, begun, due⟩ := tends.alive
  refine ⟨tends.stdout, tends.stderr, _, rfl, unkilled, exited, first, ?_, due⟩
  change some (life.begun.getD reading) = some first
  rw [begun]
  rfl

/-- A poll can show that the child has exited. -/
theorem Tends.polled (tends : Tends timeout deadline c s) {fds : List Handle} (left : Nat)
    (results : Fin fds.length → Bool)
    : Tends timeout deadline c (follow s ⟨.poll fds left, .ok results⟩)
      ∧ ((∃ i, fds.get i = .pidfd ∧ results i = true)
        → Alive (follow s ⟨.poll fds left, .ok results⟩) fun life => life.exited = true) := by
  obtain ⟨life, rfl, unkilled, exited, clock⟩ := tends.alive
  constructor
  · refine ⟨tends.stdout, tends.stderr, _, rfl, unkilled, fun out => ?_, clock⟩
    exact Bool.or_eq_true_iff.mpr (Or.inl (exited out))
  · intro found
    exact ⟨_, rfl, unkilled, Bool.or_eq_true_iff.mpr (Or.inr (decide_eq_true found))⟩

namespace Collecting

theorem drainStdout_tends (tends : Tends timeout deadline c s)
    : wp (tending timeout) (c.drainStdout cap).run (Onward timeout deadline) s := by
  refine Fallible.wp_bind.mpr (wp_mono (Life.drain_wp tends.mere) fun result after facts => ?_)
  obtain ⟨rfl, left⟩ := facts
  match result with
  | .error e => exact tends.mere
  | .ok (pipe, into) => exact ⟨eq_of_leftOpen tends.stdout left, tends.stderr, tends.alive⟩

theorem drainStderr_tends (tends : Tends timeout deadline c s)
    : wp (tending timeout) c.drainStderr.run (Onward timeout deadline) s := by
  refine Fallible.wp_bind.mpr (wp_mono (Life.drain_wp tends.mere) fun result after facts => ?_)
  obtain ⟨rfl, left⟩ := facts
  match result with
  | .error e => exact tends.mere
  | .ok (pipe, into) => exact ⟨tends.stdout, eq_of_leftOpen tends.stderr left, tends.alive⟩

/-- What was reported is taken in, the exit of the child only when this was reported. -/
theorem take_tends {ready : Ready} (tends : Tends timeout deadline c s)
    (reported : ready.pid = true → Alive s fun life => life.exited = true)
    : wp (tending timeout) (c.take ready cap).run (Onward timeout deadline) s := by
  have noted : Tends timeout deadline (if ready.pid then { c with exited := true } else c) s := by
    split_ifs with pid
    · refine ⟨tends.stdout, tends.stderr, ?_⟩
      obtain ⟨life, here, unkilled, _, clock⟩ := tends.alive
      obtain ⟨_, same, _, exited⟩ := reported pid
      cases here.symm.trans same
      exact ⟨life, here, unkilled, fun _ => exited, clock⟩
    · exact tends
  unfold take
  dsimp only
  generalize (if ready.pid then { c with exited := true } else c) = next at noted
  have first : wp (tending timeout)
      (if ready.stdout then next.drainStdout cap else pure next).run (Onward timeout deadline)
      s := by
    split_ifs
    · exact drainStdout_tends noted
    · exact noted
  refine Fallible.wp_bind.mpr (wp_mono first fun result after goes => ?_)
  cases result with
  | error e => exact goes
  | ok next =>
      dsimp only
      split_ifs
      · exact drainStderr_tends goes
      · exact goes

/-- What is known when a trip is over. -/
def Resting (timeout deadline : Nat) (result : Except String (Option Collecting))
    (after : Option Life) : Prop :=
  match result with
  | .ok (some c) => Tends timeout deadline c after
  | .ok none | .error _ => Alive after fun _ => True

/-- A poll is worthwhile and waits for no longer than the deadline allows. -/
theorem turn_tends (tends : Tends timeout deadline c s) (going : ¬ c.done = true)
    : wp (tending timeout) (c.turn deadline cap).run (Resting timeout deadline) s := by
  refine tend tends.mere fun (now : Nat) => ?_
  have clock := tends.now now
  have latest : ∀ life, follow s ⟨.now, now⟩ = some life → life.latest = now := by
    intro life here
    obtain ⟨_, _, rfl⟩ := Option.map_eq_some_iff.mp here
    rfl
  generalize follow s ⟨.now, now⟩ = s at clock latest
  dsimp only
  split_ifs with late
  · exact clock.mere
  · have allowed : tended timeout s (.poll c.fds (deadline - now)) := by
      refine ⟨fds_ne_nil going, Nat.pos_of_ne_zero late, ?_⟩
      obtain ⟨life, here, unkilled, _, first, begun, due⟩ := clock.alive
      refine ⟨life, here, unkilled, first, begun, ?_⟩
      rw [latest life here]
      omega
    refine tend allowed fun answer => ?_
    match answer with
    | .error .intr => exact clock
    | .error .again | .error .noent | .error .exist | .error .pipe | .error .noprotoopt
    | .error (.other _) => exact clock.mere
    | .ok results =>
        obtain ⟨polled, found⟩ := clock.polled (deadline - now) results
        have taken : wp (tending timeout) (c.take (c.ready results) cap).run
            (Onward timeout deadline) (follow s ⟨.poll c.fds (deadline - now), .ok results⟩) :=
          take_tends polled fun pid =>
            found ((ready_iff tends.stdout tends.stderr results).1.mp pid)
        refine Fallible.wp_bind.mpr (wp_mono taken fun result after onward => ?_)
        cases result <;> exact onward

/-- A child that was collected from has exited. -/
def Awaited (result : Except String (Option (Buffer UInt8 × Buffer UInt8)))
    (after : Option Life) : Prop :=
  match result with
  | .ok (some _) => Alive after fun life => life.exited = true
  | .ok none | .error _ => Alive after fun _ => True

/-- By induction on the trips. -/
theorem loop_tends {trips : Nat} (tends : Tends timeout deadline c s)
    : wp (tending timeout) (loop deadline cap trips c).run
        Awaited s := by
  induction trips generalizing c s with
  | zero => trivial
  | succ trips ih =>
      rw [loop]
      split_ifs with finished
      · have out : c.exited = true := by
          simp only [done, Bool.and_eq_true] at finished
          exact finished.1.1
        exact tends.alive.mono fun _ facts => facts.1 out
      · refine Fallible.wp_bind.mpr (wp_mono (turn_tends tends finished)
          fun result after turned => ?_)
        cases result with
        | error e => exact turned
        | ok next =>
            cases next with
            | none => exact turned
            | some next => exact ih turned

end Collecting

variable {cmd : Command}

/-- What is collected from is the child that was spawned. -/
theorem collect_tends {pid trips : Nat} (spawned : s = some ⟨pid, none, 0, false, false⟩)
    : wp (tending timeout) (collect cmd pid timeout cap trips).run Collecting.Awaited s := by
  subst spawned
  have alive (now : Nat)
      : Alive (follow (some ⟨pid, none, 0, false, false⟩) ⟨.now, now⟩) fun life =>
          life.pid = pid ∧ life.begun = some now :=
    ⟨_, rfl, rfl, rfl, rfl⟩
  refine tend ⟨_, rfl, rfl, trivial⟩ fun (now : Nat) => ?_
  dsimp only
  by_cases nobody : pid = 0
  · rw [if_pos nobody]
    exact (alive now).mono fun _ _ => trivial
  · rw [if_neg nobody]
    refine tend ⟨nobody, (alive now).mono fun _ facts => facts.1⟩ fun answer => ?_
    cases answer with
    | error e => exact (alive now).mono fun _ _ => trivial
    | ok =>
        refine Collecting.loop_tends ⟨fun p opened => ?_, fun p opened => ?_, ?_⟩
        · dsimp only at opened
          split_ifs at opened
          cases opened
          rfl
        · dsimp only at opened
          split_ifs at opened
          cases opened
          rfl
        · exact (alive now).mono fun _ facts => ⟨nofun, now, facts.2, rfl⟩

/-- A child that did not come to its end by itself is killed first. -/
theorem reap_tends {error : String} (alive : Alive s fun _ => True)
    : wp (tending timeout)
        (do
          let _ ← call .kill
          let _ ← call .wait
          return (.error error : Except String Output))
        (fun _ after => after = none) s := by
  obtain ⟨life, rfl, unkilled, _⟩ := alive
  refine attend ⟨life, rfl, unkilled, trivial⟩ fun _ => ?_
  exact attend ⟨_, rfl, Or.inr rfl⟩ fun _ => rfl

/-- A child is spawned, tended to and waited for. -/
theorem run_tends {trips : Nat}
    : wp (tending timeout) (run cmd timeout cap trips) (fun _ after => after = none) none := by
  refine attend rfl fun answer => ?_
  cases answer with
  | error e => exact rfl
  | ok pid =>
      refine Prog.wp_bind.mpr (wp_mono (collect_tends rfl) fun result after awaited => ?_)
      match result with
      | .ok (some (out, err)) =>
          obtain ⟨life, rfl, _, exited⟩ := awaited
          refine attend ⟨life, rfl, Or.inl exited⟩ fun status => ?_
          cases status <;> exact rfl
      | .ok none | .error _ => exact reap_tends awaited

end Tpm2Autoenroll.Child
