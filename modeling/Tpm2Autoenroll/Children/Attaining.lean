import Tpm2Autoenroll.Children.Collecting

/-! Which outputs a child can be answered with at all: those that fit into what is collected from
it, and all of them.
-/

namespace Tpm2Autoenroll.Child

open Interaction Prog Monitor
open Buffering (Buffer)
open Text (Bytes)

/-- What is collected from a command has room for this output. -/
structure Command.Fits (cmd : Command) (cap : Nat) (out : Output) : Prop where
  stdout : out.stdout.length ≤ if cmd.stdout then cap else 0
  stderr : out.stderr.length ≤ if cmd.stderr then stderrCap else 0

variable {cmd : Command} {timeout cap deadline : Nat} {handle : Handle} {pipe : Option Handle}
  {into : Buffer UInt8} {rest so se : Bytes} {c : Collecting}

-----------------------------------------------------------------------------------------
-- All that fits
-----------------------------------------------------------------------------------------

/-- There is room for what is still to come from a pipe. -/
def Awaits (handle : Handle) (cap : Nat) (pipe : Option Handle) (into : Buffer UInt8)
    (rest : Bytes) : Prop :=
  pipe = none ∧ rest = [] ∨ pipe = some handle ∧ into.length + rest.length ≤ cap

/-- How many reads of a pipe are left at most. -/
def outstanding (pipe : Option Handle) (rest : Bytes) : Nat :=
  match pipe with
  | none => 0
  | some _ => rest.length + 1

/-- A pipe after a read of what was to come. -/
def Draining (handle : Handle) (cap : Nat) (pipe : Option Handle) (into : Buffer UInt8)
    (rest : Bytes) : Except String (Option Handle × Buffer UInt8) → Prop
  | .ok (left, now) => ∃ later, Awaits handle cap left now later
      ∧ now.items ++ later = into.items ++ rest
      ∧ outstanding left later ≤ outstanding pipe rest - 1
  | .error _ => False

/-- A read can take a part of what is to come, or show that nothing is. -/
theorem drain_may (awaits : Awaits handle cap pipe into rest)
    : may anyhow (drain pipe into cap).run
        (fun result _ => Draining handle cap pipe into rest result) () := by
  rcases awaits with ⟨rfl, rfl⟩ | ⟨rfl, room⟩
  · exact ⟨[], Or.inl ⟨rfl, rfl⟩, rfl, Nat.le_refl 0⟩
  unfold drain
  dsimp only
  split_ifs with full
  · have nothing : rest = [] := List.length_eq_zero_iff.mp (by omega)
    subst nothing
    refine Fallible.may_perform_bind (.ok ⟨[], Nat.zero_le _⟩) rfl ?_
    exact ⟨[], Or.inl ⟨rfl, rfl⟩, rfl, Nat.le_refl 0⟩
  · cases rest with
    | nil =>
        refine Fallible.may_perform_bind (.ok ⟨[], Nat.zero_le _⟩) rfl ?_
        refine ⟨[], Or.inl ⟨rfl, rfl⟩, ?_, Nat.le_refl 0⟩
        rw [List.append_nil, List.append_nil]
        exact Buffer.take_resize (Nat.le_add_right _ _)
    | cons x more =>
        have some : 0 < chunk := by decide
        obtain ⟨k, size⟩ : ∃ k, min (cap - into.length) chunk = k + 1 :=
          Nat.exists_eq_succ_of_ne_zero (by rw [List.length_cons] at room; omega)
        have short : (x :: more.take k).length ≤ min (cap - into.length) chunk := by
          rw [List.length_cons, List.length_take, size]
          omega
        have fits : (x :: more.take k).length
            ≤ (into.resize (into.length + min (cap - into.length) chunk) 0).length
              - into.length := by
          rw [Buffer.length_resize]
          omega
        have items := @Buffer.items_truncate_overwrite _ into _ 0 _
          (Nat.add_le_add_left short into.length)
        refine Fallible.may_perform_bind (.ok ⟨x :: more.take k, fits⟩) rfl ?_
        refine ⟨more.drop k, Or.inr ⟨rfl, ?_⟩, ?_, ?_⟩
        · rw [Buffer.length, items, List.length_append, List.length_cons, List.length_take,
            List.length_drop]
          rw [List.length_cons] at room
          change into.length + _ + _ ≤ _
          omega
        · rw [items, List.append_assoc, List.cons_append, List.take_append_drop]
        · change (more.drop k).length + 1 ≤ (x :: more).length + 1 - 1
          rw [List.length_drop, List.length_cons]
          omega

/-- Every pipe that is still open is reported, and the exit of the child. -/
theorem Collecting.ready_all (stdout : c.stdoutPipe = none ∨ c.stdoutPipe = some .stdout)
    (stderr : c.stderrPipe = none ∨ c.stderrPipe = some .stderr)
    : c.ready (fun _ => true) = ⟨!c.exited, c.stdoutPipe.isSome, c.stderrPipe.isSome⟩ := by
  obtain ⟨exited, out, err, _, _⟩ := c
  dsimp only at stdout stderr
  rcases stdout with rfl | rfl <;> rcases stderr with rfl | rfl <;> cases exited <;> rfl

/-- There is room for what is still to come. -/
structure Expects (cap : Nat) (c : Collecting) (so se : Bytes) : Prop where
  stdout : Awaits .stdout cap c.stdoutPipe c.stdout so
  stderr : Awaits .stderr stderrCap c.stderrPipe c.stderr se

/-- Nothing is still to come from pipes that are closed. -/
theorem Expects.nothing (expects : Expects cap c so se) (stdout : c.stdoutPipe = none)
    (stderr : c.stderrPipe = none)
    : so = [] ∧ se = [] := by
  obtain ⟨outs, errs⟩ := expects
  rw [stdout] at outs
  rw [stderr] at errs
  constructor
  · rcases outs with ⟨_, nothing⟩ | ⟨opened, _⟩
    · exact nothing
    · cases opened
  · rcases errs with ⟨_, nothing⟩ | ⟨opened, _⟩
    · exact nothing
    · cases opened

/-- How many trips are left at most. -/
def remaining (c : Collecting) (so se : Bytes) : Nat :=
  (if c.exited then 0 else 1) + outstanding c.stdoutPipe so + outstanding c.stderrPipe se

/-- A loop that is not over has a trip left. -/
theorem remaining_pos (going : ¬ c.done = true) (so se : Bytes) : 0 < remaining c so se := by
  obtain ⟨exited, out, err, _, _⟩ := c
  cases exited with
  | false => exact Nat.lt_of_lt_of_le Nat.one_pos (Nat.le_add_right_of_le (Nat.le_add_right 1 _))
  | true =>
      cases out with
      | some _ => exact Nat.add_pos_left (Nat.add_pos_right 0 (Nat.succ_pos so.length)) _
      | none =>
          cases err with
          | some _ => simp [remaining, outstanding]
          | none => exact absurd rfl going

/-- What has come and is still to come is as it was, and trips are used up. -/
def Advances (cap : Nat) (c : Collecting) (so se : Bytes) (next : Collecting) : Prop :=
  ∃ so' se', Expects cap next so' se'
    ∧ next.stdout.items ++ so' = c.stdout.items ++ so
    ∧ next.stderr.items ++ se' = c.stderr.items ++ se
    ∧ remaining next so' se' ≤ remaining c so se - 1

/-- All that is reported is taken in. -/
theorem Collecting.take_may (expects : Expects cap c so se) (going : ¬ c.done = true)
    : may anyhow (c.take ⟨!c.exited, c.stdoutPipe.isSome, c.stderrPipe.isSome⟩ cap).run
        (fun result _ => ∃ next, result = .ok next ∧ Advances cap c so se next) () := by
  have exits : (if (!c.exited) = true then { c with exited := true } else c)
      = { c with exited := true } := by
    obtain ⟨exited, _⟩ := c
    cases exited <;> rfl
  have outs : may anyhow
      (if c.stdoutPipe.isSome then Collecting.drainStdout { c with exited := true } cap
        else pure { c with exited := true }).run
      (fun result _ => ∃ pipe into so',
        result = .ok { c with exited := true, stdoutPipe := pipe, stdout := into }
        ∧ Awaits .stdout cap pipe into so' ∧ into.items ++ so' = c.stdout.items ++ so
        ∧ outstanding pipe so' ≤ outstanding c.stdoutPipe so - 1) () := by
    split_ifs with opened
    · refine Fallible.may_bind.mpr (may_mono (drain_may expects.stdout) fun result _ drained => ?_)
      match result with
      | .ok (pipe, into) =>
          obtain ⟨so', awaits, items, fewer⟩ := drained
          exact ⟨pipe, into, so', rfl, awaits, items, fewer⟩
    · rw [Option.not_isSome_iff_eq_none] at opened
      refine ⟨c.stdoutPipe, c.stdout, so, rfl, expects.stdout, rfl, ?_⟩
      rw [opened]
      exact Nat.le_refl 0
  unfold take
  dsimp only
  rw [exits]
  refine Fallible.may_bind.mpr (may_mono outs ?_)
  rintro _ _ ⟨pipe, into, so', rfl, awaits, items, fewer⟩
  have advances {left : Option Handle} {err : Buffer UInt8} {se' : Bytes}
      (awaitsErr : Awaits .stderr stderrCap left err se')
      (itemsErr : err.items ++ se' = c.stderr.items ++ se)
      (fewerErr : outstanding left se' ≤ outstanding c.stderrPipe se - 1)
      : Advances cap c so se ⟨true, pipe, left, into, err⟩ := by
    refine ⟨so', se', ⟨awaits, awaitsErr⟩, items, itemsErr, ?_⟩
    change 0 + outstanding pipe so' + outstanding left se' ≤ remaining c so se - 1
    have used := remaining_pos going so se
    unfold remaining at used ⊢
    split_ifs at used ⊢ <;> omega
  dsimp only
  split_ifs with opened
  · refine Fallible.may_bind.mpr (may_mono (drain_may expects.stderr) fun result _ drained => ?_)
    match result with
    | .ok (left, err) =>
        obtain ⟨se', awaitsErr, itemsErr, fewerErr⟩ := drained
        exact ⟨_, rfl, advances awaitsErr itemsErr fewerErr⟩
  · rw [Option.not_isSome_iff_eq_none] at opened
    refine ⟨_, rfl, advances expects.stderr rfl ?_⟩
    rw [opened]
    exact Nat.le_refl 0

/-- A trip round the loop before the deadline. -/
theorem Collecting.turn_may (early : 0 < deadline) (expects : Expects cap c so se)
    (going : ¬ c.done = true)
    : may anyhow (c.turn deadline cap).run
        (fun result _ => ∃ next, result = .ok (some next) ∧ Advances cap c so se next) () := by
  refine Fallible.may_perform_bind (0 : Nat) rfl ?_
  dsimp only
  rw [if_neg (by omega)]
  refine Fallible.may_perform_bind (.ok fun _ => true) rfl ?_
  dsimp only
  rw [ready_all (expects.stdout.imp And.left And.left) (expects.stderr.imp And.left And.left)]
  refine Fallible.may_bind.mpr (may_mono (take_may expects going) ?_)
  rintro _ _ ⟨next, rfl, advances⟩
  exact ⟨next, rfl, advances⟩

/-- There are trips enough, by induction on them. -/
theorem Collecting.loop_may {trips : Nat} (early : 0 < deadline) (expects : Expects cap c so se)
    (enough : remaining c so se < trips)
    : may anyhow (loop deadline cap trips c).run
        (fun result _ => ∃ out err, result = .ok (some (out, err))
          ∧ out.items = c.stdout.items ++ so ∧ err.items = c.stderr.items ++ se) () := by
  induction trips generalizing c so se with
  | zero => exact absurd enough (Nat.not_lt_zero _)
  | succ trips ih =>
      rw [loop]
      split_ifs with finished
      · obtain ⟨_, outClosed, errClosed⟩ : c.exited = true ∧ c.stdoutPipe = none
            ∧ c.stderrPipe = none := by
          simpa [done, and_assoc] using finished
        obtain ⟨rfl, rfl⟩ := expects.nothing outClosed errClosed
        exact ⟨_, _, rfl, (List.append_nil _).symm, (List.append_nil _).symm⟩
      · refine Fallible.may_bind.mpr (may_mono (turn_may early expects finished) ?_)
        rintro _ _ ⟨next, rfl, so', se', onward, outs, errs, fewer⟩
        have positive := remaining_pos finished so se
        refine may_mono (ih onward (by omega)) ?_
        rintro _ _ ⟨out, err, rfl, out', err'⟩
        exact ⟨out, err, rfl, out'.trans outs, err'.trans errs⟩

/-- Every output that fits is one that the child can be answered with. -/
theorem run_may {trips : Nat} {out : Output} (early : 0 < timeout) (fits : cmd.Fits cap out)
    (enough : out.stdout.length + out.stderr.length + 3 < trips)
    : may anyhow (run cmd timeout cap trips) (fun result _ => result = .ok out) () := by
  obtain ⟨status, stdout, stderr⟩ := out
  have placed {handle : Handle} {limit : Nat} {data : Bytes} {piped : Bool}
      (fits : data.length ≤ if piped then limit else 0)
      : Awaits handle limit (if piped then some handle else none) (.withCapacity limit) data := by
    cases piped with
    | false => exact Or.inl ⟨rfl, List.length_eq_zero_iff.mp (Nat.le_zero.mp fits)⟩
    | true => exact Or.inr ⟨rfl, (Nat.zero_add _).trans_le fits⟩
  have counted {piped : Bool} {handle : Handle} {data : Bytes}
      : outstanding (if piped then some handle else none) data ≤ data.length + 1 := by
    cases piped with
    | false => exact Nat.zero_le _
    | true => exact Nat.le_refl _
  have collected : may anyhow (collect cmd 1 timeout cap trips).run
      (fun result _ => ∃ out err, result = .ok (some (out, err))
        ∧ out.items = stdout ∧ err.items = stderr) () := by
    refine Fallible.may_perform_bind (0 : Nat) rfl ?_
    dsimp only
    rw [if_neg Nat.one_ne_zero]
    refine Fallible.may_perform_bind (.ok ()) rfl ?_
    refine Collecting.loop_may (Nat.lt_add_left 0 early) ⟨placed fits.stdout, placed fits.stderr⟩ ?_
    refine Nat.lt_of_le_of_lt (Nat.add_le_add (Nat.add_le_add_left counted 1) counted) ?_
    dsimp only at enough
    omega
  refine may_perform_bind (.ok 1) rfl (may_bind.mpr (may_mono collected ?_))
  rintro _ _ ⟨out, err, rfl, rfl, rfl⟩
  exact may_perform_bind (.ok status) rfl rfl

-----------------------------------------------------------------------------------------
-- Nothing else
-----------------------------------------------------------------------------------------

/-- What is returned has this property. -/
def Gives {α : Type} (holds : α → Prop) : Except String α → Prop
  | .ok value => holds value
  | .error _ => True

/-- What was read from a stream, which is read only if it is piped, is within its limit. -/
structure Bounded (piped : Bool) (limit : Nat) (pipe : Option Handle) (into : Buffer UInt8)
    : Prop where
  short : into.length ≤ if piped then limit else 0
  opened : pipe ≠ none → piped = true

/-- A read keeps to the limit, whatever it returns. -/
theorem drain_bounded {piped : Bool} (bounded : Bounded piped cap pipe into)
    : wp anyhow (drain pipe into cap).run
        (fun result _ => Gives (fun value => Bounded piped cap value.1 value.2) result) () := by
  cases pipe with
  | none => exact bounded
  | some p =>
      have isPiped : piped = true := bounded.opened nofun
      subst isPiped
      have short : into.length ≤ cap := bounded.short
      have within {left : Option Handle} {now : Buffer UInt8} (le : now.length ≤ cap)
          : Bounded true cap left now :=
        ⟨le, fun _ => rfl⟩
      unfold drain
      dsimp only
      split_ifs with full
      · refine Fallible.wp_perform_bind.mpr ⟨trivial, fun answer _ _ => ?_⟩
        match answer with
        | .ok ⟨[], _⟩ => exact within short
        | .error .intr => exact within short
        | .ok ⟨_ :: _, _⟩ | .error .again | .error .noent | .error .exist | .error .pipe
        | .error .noprotoopt | .error (.other _) => trivial
      · refine Fallible.wp_perform_bind.mpr ⟨trivial, fun answer _ _ => ?_⟩
        have cut {b : Buffer UInt8} {len : Nat} (le : len ≤ cap) : (b.truncate len).length ≤ cap :=
          Nat.le_trans (List.length_take_le len b.items) le
        match answer with
        | .ok ⟨[], _⟩ => exact within (cut short)
        | .error .intr => exact within (cut short)
        | .ok ⟨x :: more, fits⟩ =>
            rw [Buffer.length_resize] at fits
            exact within (cut (by omega))
        | .error .again | .error .noent | .error .exist | .error .pipe | .error .noprotoopt
        | .error (.other _) => trivial

/-- What was collected is within the limits. -/
structure Collecting.Small (cmd : Command) (cap : Nat) (c : Collecting) : Prop where
  stdout : Bounded cmd.stdout cap c.stdoutPipe c.stdout
  stderr : Bounded cmd.stderr stderrCap c.stderrPipe c.stderr

namespace Collecting

theorem take_small {ready : Ready} (small : Small cmd cap c)
    : wp anyhow (c.take ready cap).run (fun result _ => Gives (Small cmd cap) result) () := by
  have noted : Small cmd cap (if ready.pid then { c with exited := true } else c) := by
    split_ifs
    · exact ⟨small.stdout, small.stderr⟩
    · exact small
  unfold take
  dsimp only
  generalize (if ready.pid then { c with exited := true } else c) = noticed at noted
  have outs : wp anyhow (if ready.stdout then noticed.drainStdout cap else pure noticed).run
      (fun result _ => Gives (Small cmd cap) result) () := by
    split_ifs
    · refine Fallible.wp_bind.mpr (wp_mono (drain_bounded noted.stdout) fun result _ bounded => ?_)
      cases result with
      | error e => trivial
      | ok value => exact ⟨bounded, noted.stderr⟩
    · exact noted
  refine Fallible.wp_bind.mpr (wp_mono outs fun result _ outs => ?_)
  cases result with
  | error e => trivial
  | ok next =>
      dsimp only
      split_ifs
      · refine Fallible.wp_bind.mpr (wp_mono (drain_bounded outs.stderr) fun result _ bounded => ?_)
        cases result with
        | error e => trivial
        | ok value => exact ⟨outs.stdout, bounded⟩
      · exact outs

theorem turn_small (small : Small cmd cap c)
    : wp anyhow (c.turn deadline cap).run
        (fun result _ => Gives (fun next => ∀ c, next = some c → Small cmd cap c) result) () := by
  refine Fallible.wp_perform_bind.mpr ⟨trivial, fun (now : Nat) _ _ => ?_⟩
  dsimp only
  split_ifs
  · exact nofun
  · refine Fallible.wp_perform_bind.mpr ⟨trivial, fun answer _ _ => ?_⟩
    match answer with
    | .error .intr =>
        rintro _ ⟨⟩
        exact small
    | .ok results =>
        refine Fallible.wp_bind.mpr (wp_mono (take_small small) fun result _ taken => ?_)
        cases result with
        | error e => trivial
        | ok next =>
            rintro _ ⟨⟩
            exact taken
    | .error .again | .error .noent | .error .exist | .error .pipe | .error .noprotoopt
    | .error (.other _) => trivial

/-- The output of a child is within the limits. -/
def Within (cmd : Command) (cap : Nat) : Option (Buffer UInt8 × Buffer UInt8) → Prop
  | some (out, err) => out.length ≤ (if cmd.stdout then cap else 0)
      ∧ err.length ≤ if cmd.stderr then stderrCap else 0
  | none => True

/-- By induction on the trips. -/
theorem loop_small {trips : Nat} (small : Small cmd cap c)
    : wp anyhow (loop deadline cap trips c).run
        (fun result _ => Gives (Within cmd cap) result) () := by
  induction trips generalizing c with
  | zero => trivial
  | succ trips ih =>
      rw [loop]
      by_cases finished : c.done = true
      · rw [if_pos finished]
        exact ⟨small.stdout.short, small.stderr.short⟩
      · rw [if_neg finished]
        refine Fallible.wp_bind.mpr (wp_mono (turn_small small) fun result _ turned => ?_)
        cases result with
        | error e => trivial
        | ok next =>
            cases next with
            | none => trivial
            | some next => exact ih (turned next rfl)

end Collecting

/-- Every output that a child is answered with fits. -/
theorem run_fits {trips : Nat}
    : wp anyhow (run cmd timeout cap trips) (fun result _ => Gives (cmd.Fits cap) result) () := by
  have placed {handle : Handle} {limit : Nat} {piped : Bool}
      : Bounded piped limit (if piped then some handle else none) (.withCapacity limit) := by
    cases piped with
    | false => exact ⟨Nat.zero_le _, fun opened => absurd rfl opened⟩
    | true => exact ⟨Nat.zero_le _, fun _ => rfl⟩
  have collected {pid : Nat} : wp anyhow (collect cmd pid timeout cap trips).run
      (fun result _ => Gives (Collecting.Within cmd cap) result) () := by
    refine Fallible.wp_perform_bind.mpr ⟨trivial, fun (now : Nat) _ _ => ?_⟩
    dsimp only
    by_cases nobody : pid = 0
    · rw [if_pos nobody]
      trivial
    · rw [if_neg nobody]
      refine Fallible.wp_perform_bind.mpr ⟨trivial, fun answer _ _ => ?_⟩
      cases answer with
      | error e => trivial
      | ok => exact Collecting.loop_small ⟨placed, placed⟩
  refine ⟨trivial, fun answer _ _ => ?_⟩
  cases answer with
  | error e => trivial
  | ok pid =>
      change wp anyhow ((collect cmd pid timeout cap trips).run >>= _) _ _
      refine Prog.wp_bind.mpr (wp_mono collected fun result _ small => ?_)
      match result with
      | .ok (some (out, err)) =>
          refine ⟨trivial, fun status _ _ => ?_⟩
          cases status with
          | error e => trivial
          | ok status =>
              obtain ⟨outs, errs⟩ := small
              exact ⟨outs, errs⟩
      | .ok none | .error _ => exact ⟨trivial, fun _ _ _ => ⟨trivial, fun _ _ _ => trivial⟩⟩

/-- A child can be answered with an output exactly if it fits into what is collected. -/
theorem attained_iff {out : Output} (early : 0 < timeout)
    : (∃ trips trace, (run cmd timeout cap trips).Runs trace (some (.ok out)))
      ↔ cmd.Fits cap out := by
  constructor
  · rintro ⟨trips, trace, run⟩
    obtain ⟨final, path⟩ : ∃ final, (anyhow : Monitor Answer Unit).Path () trace final :=
      ⟨_, Monitor.path_observing.mpr rfl⟩
    have fits := wp_post run_fits run path
    exact fits
  · intro fits
    obtain ⟨trace, _, _, run, _, rfl⟩ := exists_run_of_may (run_may early fits (Nat.lt_succ_self _))
    exact ⟨_, trace, run⟩

end Tpm2Autoenroll.Child
