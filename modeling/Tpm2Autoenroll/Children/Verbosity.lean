import Tpm2Autoenroll.Children.Collecting

/-! What a child writes to stderr, which is only logged, decides whether its run succeeds once it
is more than may be collected.
-/

namespace Tpm2Autoenroll.Child

open Interaction Prog Monitor
open Buffering (Buffer)
open Text (Bytes)

-----------------------------------------------------------------------------------------
-- Two runs
-----------------------------------------------------------------------------------------

/-- A run on a child that behaves like this came to this result. -/
def Ran (cmd : Command) (timeout cap : Nat) (b : Behaviour) (result : Except String Output)
    (after : Proc) : Prop :=
  ∃ trips trace, (run cmd timeout cap trips).Runs trace (some result)
    ∧ (watch b cap).Path (.fresh b) trace after

/-- Both runs failed, or both succeeded with one status and one stdout. -/
def Agree : Except String Output → Except String Output → Prop
  | .error _, .error _ => True
  | .ok one, .ok other => one.status = other.status ∧ one.stdout = other.stdout
  | _, _ => False

/-- The child writes more to a piped stderr than may be collected. -/
def Behaviour.Verbose (b : Behaviour) (cmd : Command) : Prop :=
  cmd.stderr = true ∧ stderrCap < b.stderr.length

/-- The runs differ only in what the child writes to stderr. A call that fails or a deadline that
passes in one does so in the other, unless that one was over before.
-/
structure AlikeButStderr (cmd : Command) (timeout cap : Nat) (one other : Behaviour)
    (oneEnd otherEnd : Proc) : Prop where
  stdout : one.stdout = other.stdout
  status : one.status = other.status
  left : oneEnd.Disturbed timeout → otherEnd.Disturbed timeout ∨ other.Overflows cmd cap
  right : otherEnd.Disturbed timeout → oneEnd.Disturbed timeout ∨ one.Overflows cmd cap

variable {cmd : Command} {timeout cap : Nat} {one other b : Behaviour}
  {oneResult otherResult result : Except String Output} {oneEnd otherEnd after s : Proc}
  {handle : Handle} {into : Buffer UInt8}

/-- A run succeeds unless there is a reason why not. -/
theorem Ran.finishes (ran : Ran cmd timeout cap b result after)
    : Finishes b cmd timeout cap result after := by
  obtain ⟨trips, trace, run, path⟩ := ran
  exact wp_post run_wp run path

/-- Two runs agree when both are cut or neither is. -/
theorem agree_iff (first : Ran cmd timeout cap one oneResult oneEnd)
    (second : Ran cmd timeout cap other otherResult otherEnd)
    (stdout : one.stdout = other.stdout) (status : one.status = other.status)
    : Agree oneResult otherResult
      ↔ (Cut one cmd timeout cap oneEnd ↔ Cut other cmd timeout cap otherEnd) := by
  have firstEnds := first.finishes
  have secondEnds := second.finishes
  cases oneResult with
  | error e =>
      have cut : Cut one cmd timeout cap oneEnd := firstEnds
      cases otherResult with
      | error e => exact iff_of_true trivial (iff_of_true cut secondEnds)
      | ok out => exact iff_of_false id fun same => secondEnds.1 (same.mp cut)
  | ok out =>
      obtain ⟨whole, oneStatus, oneStdout, _⟩ := firstEnds
      cases otherResult with
      | error e => exact iff_of_false id fun same => whole (same.mpr secondEnds)
      | ok out =>
          obtain ⟨alsoWhole, otherStatus, otherStdout, _⟩ := secondEnds
          refine iff_of_true ⟨?_, ?_⟩ (iff_of_false whole alsoWhole)
          · rw [oneStatus, otherStatus, status]
          · rw [oneStdout, otherStdout, stdout]

-----------------------------------------------------------------------------------------
-- A quiet child and a verbose one
-----------------------------------------------------------------------------------------

/-- How `systemd-cryptenroll` is run: only its stderr is piped. -/
def enrolling : Command := ⟨"systemd-cryptenroll", false, true⟩

/-- `ENROLL_TIMEOUT`, in nanoseconds. -/
def enrollTimeout : Nat := 120 * 1000000000

def success : ExitStatus := ⟨some 0, "exit status: 0"⟩

def quiet : Behaviour := ⟨[], [], success⟩

def verbose : Behaviour := ⟨[], List.replicate 65537 0x2e, success⟩

theorem not_disturbed {s : Proc} {timeout : Nat} {readings : List Nat} (failed : s.failed = false)
    (same : s.readings = 0 :: readings) (timely : ∀ reading ∈ readings, reading < timeout)
    : ¬ s.Disturbed timeout := by
  rintro (disturbed | late)
  · exact Bool.noConfusion (disturbed.symm.trans failed)
  · rw [same] at late
    obtain ⟨reading, member, passed⟩ := late
    have before := timely reading member
    omega

theorem quiet_may
    : may (watch quiet 0) (run enrolling enrollTimeout 0 2)
        (fun result after => result = .ok ⟨success, [], []⟩ ∧ ¬ after.Disturbed enrollTimeout)
        (.fresh quiet) := by
  refine ⟨.ok 7, _, ⟨false, id, Nat.succ_pos 6, rfl⟩, may_bind.mpr ?_⟩
  refine ⟨(0 : Nat), _, ⟨false, id, trivial, rfl⟩, .ok (), _, ⟨false, id, trivial, rfl⟩, ?_⟩
  refine ⟨(0 : Nat), _, ⟨false, id, trivial, rfl⟩, ?_⟩
  refine ⟨.ok fun _ => true, _, ⟨true, fun _ => rfl, fun _ _ _ => rfl, rfl⟩, ?_⟩
  refine ⟨.ok ⟨[], Nat.zero_le _⟩, _,
    ⟨true, fun _ => rfl, ⟨List.nil_prefix, fun _ _ => rfl⟩, rfl⟩, ?_⟩
  refine ⟨.ok success, _, ⟨true, fun _ => rfl, fun _ => rfl, rfl⟩, rfl, ?_⟩
  have timely : ∀ reading ∈ [0], reading < enrollTimeout := by simp [enrollTimeout]
  exact not_disturbed rfl rfl timely

/-- A drain can take what there is room for. -/
theorem drain_takes {total : Nat} {data more : Bytes} (left : s.left handle = data ++ more)
    (nonempty : data ≠ []) (short : data.length ≤ min (cap - into.length) chunk)
    : may (watch b total) (drain (some handle) into cap).run
        (fun result after => ∃ next, result = .ok (some handle, next)
          ∧ next.items = into.items ++ data ∧ Draws handle s after ∧ after.failed = s.failed
          ∧ after.left handle = more) s := by
  have positive : 0 < data.length := List.length_pos_iff.mpr nonempty
  have below : ¬ into.length = cap := by omega
  unfold drain
  dsimp only
  rw [if_neg below]
  have fits : data.length
      ≤ (into.resize (into.length + min (cap - into.length) chunk) 0).length - into.length := by
    rw [Buffer.length_resize]
    omega
  obtain ⟨x, rest, rfl⟩ := List.exists_cons_of_ne_nil nonempty
  refine ⟨.ok ⟨x :: rest, fits⟩, _, ⟨s.exited, id, ⟨⟨more, left.symm⟩, nofun⟩, rfl⟩, _, rfl, ?_, ?_⟩
  · exact Buffer.items_truncate_overwrite (by omega)
  · refine ⟨draws_receive id, rfl, ?_⟩
    change Function.update s.left handle ((s.left handle).drop (x :: rest).length) handle = more
    rw [Function.update_self, left, List.drop_left]

/-- A drain of a full buffer fails when more is there. -/
theorem drain_overflows {total : Nat} {x : UInt8} {more : Bytes} (left : s.left handle = x :: more)
    (full : into.length = cap)
    : may (watch b total) (drain (some handle) into cap).run
        (fun result after => (∃ e, result = .error e) ∧ Draws handle s after
          ∧ after.failed = s.failed) s := by
  unfold drain
  dsimp only
  rw [if_pos full]
  have reads : s.Reads handle 1 [x] := ⟨⟨more, left.symm⟩, nofun⟩
  exact ⟨.ok ⟨[x], le_rfl⟩, _, ⟨s.exited, id, reads, rfl⟩, ⟨_, rfl⟩, draws_receive id, rfl⟩

/-- A trip round the loop in which only stderr is reported. -/
theorem stderr_turn {total : Nat} {out err : Buffer UInt8} {deadline : Nat}
    {post : Except String (Option Collecting) → Proc → Prop} (early : 0 < deadline)
    (drains : may (watch b total) (drain (some .stderr) err stderrCap).run
      (fun result after =>
        post (result.map fun drained => some ⟨false, none, drained.1, out, drained.2⟩) after)
      { s with readings := s.readings ++ [0], due := [.stderr] })
    : may (watch b total)
        ((Collecting.mk false none (some .stderr) out err).turn deadline cap).run post s := by
  refine Fallible.may_perform_bind (0 : Nat) ⟨s.exited, id, trivial, rfl⟩ ?_
  dsimp only
  rw [if_neg (by omega)]
  refine Fallible.may_perform_bind (.ok fun i => i.val == 1) ⟨s.exited, id, ?_, rfl⟩ ?_
  · rintro ⟨i, bound⟩ pidfd second
    obtain rfl : i = 1 := of_decide_eq_true second
    cases pidfd
  · refine Fallible.may_bind.mpr (Fallible.may_bind.mpr (Fallible.may_bind.mpr ?_))
    refine may_mono drains fun result after ended => ?_
    cases result <;> exact ended

theorem verbose_collecting
    : may (watch verbose 0) (collect enrolling 7 enrollTimeout 0 2).run
        (fun result after => (∃ e, result = .error e) ∧ after.failed = false
          ∧ after.readings = [0, 0, 0])
        (.fresh verbose) := by
  have split : verbose.stderr = List.replicate stderrCap 0x2e ++ [0x2e] := List.replicate_succ'
  have filled : (List.replicate stderrCap (0x2e : UInt8)).length = stderrCap :=
    List.length_replicate
  have some : 0 < stderrCap := by decide
  unfold collect
  refine Fallible.may_perform_bind (0 : Nat) ⟨false, id, trivial, rfl⟩ ?_
  dsimp only
  rw [if_neg (by decide)]
  refine Fallible.may_perform_bind (.ok ()) ⟨false, id, trivial, rfl⟩ ?_
  refine Fallible.may_bind.mpr (stderr_turn (Nat.succ_pos _) ?_)
  refine may_mono (drain_takes split ?_ ?_) fun result after taken => ?_
  · exact List.ne_nil_of_length_pos (some.trans_eq filled.symm)
  · exact filled.le
  obtain ⟨full, rfl, items, draws, failed, left⟩ := taken
  have size : full.length = stderrCap := by
    rw [Buffer.length, items]
    exact filled
  refine Fallible.may_bind.mpr (stderr_turn (Nat.succ_pos _) ?_)
  refine may_mono (drain_overflows left size) fun result last failing => ?_
  obtain ⟨⟨e, rfl⟩, drawsAgain, alsoFailed⟩ := failing
  refine ⟨⟨e, rfl⟩, alsoFailed.trans failed, ?_⟩
  rw [drawsAgain.readings, draws.readings]
  rfl

theorem verbose_may
    : may (watch verbose 0) (run enrolling enrollTimeout 0 2)
        (fun result after => (∃ e, result = .error e) ∧ ¬ after.Disturbed enrollTimeout)
        (.fresh verbose) := by
  refine may_perform_bind (.ok 7) ⟨false, id, Nat.succ_pos 6, rfl⟩ (may_bind.mpr ?_)
  refine may_mono verbose_collecting fun result after failed => ?_
  obtain ⟨⟨e, rfl⟩, failed, readings⟩ := failed
  refine ⟨.ok (), _, ⟨after.exited, id, trivial, rfl⟩, ?_⟩
  refine ⟨.ok success, _, ⟨after.exited, id, nofun, rfl⟩, ⟨_, rfl⟩, ?_⟩
  exact not_disturbed failed readings (by simp [enrollTimeout])

theorem quiet_ran
    : ∃ after, Ran enrolling enrollTimeout 0 quiet (.ok ⟨success, [], []⟩) after
      ∧ ¬ after.Disturbed enrollTimeout := by
  obtain ⟨trace, _, after, ran, path, rfl, calm⟩ := exists_run_of_may quiet_may
  exact ⟨after, ⟨2, trace, ran, path⟩, calm⟩

theorem verbose_ran
    : ∃ e after, Ran enrolling enrollTimeout 0 verbose (.error e) after
      ∧ ¬ after.Disturbed enrollTimeout := by
  obtain ⟨trace, _, after, ran, path, ⟨e, rfl⟩, calm⟩ := exists_run_of_may verbose_may
  exact ⟨e, after, ⟨2, trace, ran, path⟩, calm⟩

theorem AlikeButStderr.of_calm (stdout : one.stdout = other.stdout)
    (status : one.status = other.status) (calm : ¬ oneEnd.Disturbed timeout)
    (alsoCalm : ¬ otherEnd.Disturbed timeout)
    : AlikeButStderr cmd timeout cap one other oneEnd otherEnd :=
  ⟨stdout, status, fun disturbed => absurd disturbed calm,
    fun disturbed => absurd disturbed alsoCalm⟩

-----------------------------------------------------------------------------------------
-- What stderr decides
-----------------------------------------------------------------------------------------

/-- What the child writes to stderr decides nothing but for this: of two runs that differ only in
that, one fails and the other succeeds exactly when one of the two writes more than is collected of
stderr and the other does not, and nothing else cuts them.
-/
theorem stderr_only_logged (first : Ran cmd timeout cap one oneResult oneEnd)
    (second : Ran cmd timeout cap other otherResult otherEnd)
    (alike : AlikeButStderr cmd timeout cap one other oneEnd otherEnd)
    : Agree oneResult otherResult
      ↔ oneEnd.Disturbed timeout ∨ otherEnd.Disturbed timeout
        ∨ cmd.stdout = true ∧ cap < one.stdout.length
        ∨ (one.Verbose cmd ↔ other.Verbose cmd) := by
  rw [agree_iff first second alike.stdout alike.status]
  by_cases tooMuch : cmd.stdout = true ∧ cap < one.stdout.length
  · have alsoTooMuch : cmd.stdout = true ∧ cap < other.stdout.length := alike.stdout ▸ tooMuch
    exact iff_of_true (iff_of_true (Or.inr (Or.inl tooMuch)) (Or.inr (Or.inl alsoTooMuch)))
      (Or.inr (Or.inr (Or.inl tooMuch)))
  · have verbose : one.Overflows cmd cap ↔ one.Verbose cmd := or_iff_right tooMuch
    have alsoVerbose : other.Overflows cmd cap ↔ other.Verbose cmd :=
      or_iff_right fun same => tooMuch (alike.stdout ▸ same)
    have left := alike.left
    have right := alike.right
    rw [Cut, Cut, verbose, alsoVerbose]
    rw [alsoVerbose] at left
    rw [verbose] at right
    by_cases disturbed : oneEnd.Disturbed timeout ∨ otherEnd.Disturbed timeout
    · have first := disturbed.elim Or.inl right
      have second := disturbed.elim left Or.inl
      exact iff_of_true (iff_of_true first second) (disturbed.imp_right Or.inl)
    · obtain ⟨calm, alsoCalm⟩ := not_or.mp disturbed
      rw [or_iff_right calm, or_iff_right alsoCalm, or_iff_right calm, or_iff_right alsoCalm,
        or_iff_right tooMuch]

/-- The quiet child and the verbose one do not agree. -/
theorem enrolling_disturbed_by_stderr
    : ∃ oneResult otherResult oneEnd otherEnd,
      Ran enrolling enrollTimeout 0 quiet oneResult oneEnd
      ∧ Ran enrolling enrollTimeout 0 verbose otherResult otherEnd
      ∧ ¬ Agree oneResult otherResult := by
  obtain ⟨oneEnd, ran, calm⟩ := quiet_ran
  obtain ⟨e, otherEnd, alsoRan, alsoCalm⟩ := verbose_ran
  refine ⟨_, _, oneEnd, otherEnd, ran, alsoRan, fun agree => ?_⟩
  have long : verbose.Verbose enrolling := by
    refine ⟨rfl, ?_⟩
    change stderrCap < (List.replicate 65537 (0x2e : UInt8)).length
    rw [List.length_replicate]
    decide
  have alike : AlikeButStderr enrolling enrollTimeout 0 quiet verbose oneEnd otherEnd :=
    .of_calm rfl rfl calm alsoCalm
  rcases (stderr_only_logged ran alsoRan alike).mp agree with disturbed | disturbed | piped | same
  · exact calm disturbed
  · exact alsoCalm disturbed
  · exact Bool.noConfusion piped.1
  · exact absurd (same.mpr long).2 (Nat.not_lt_zero _)

/-- So what the child writes to stderr is not only logged. -/
theorem stderr_not_only_logged
    : ¬ ∀ cmd timeout cap one other oneResult otherResult oneEnd otherEnd,
      Ran cmd timeout cap one oneResult oneEnd
      → Ran cmd timeout cap other otherResult otherEnd
      → AlikeButStderr cmd timeout cap one other oneEnd otherEnd
      → Agree oneResult otherResult := by
  intro always
  obtain ⟨oneEnd, ran, calm⟩ := quiet_ran
  obtain ⟨e, otherEnd, alsoRan, alsoCalm⟩ := verbose_ran
  exact always _ _ _ _ _ _ _ _ _ ran alsoRan (.of_calm rfl rfl calm alsoCalm)

end Tpm2Autoenroll.Child
