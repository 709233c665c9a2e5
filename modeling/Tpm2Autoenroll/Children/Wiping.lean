import Tpm2Autoenroll.Buffering.Places
import Tpm2Autoenroll.Model.KeyFile

/-! What is left of a passphrase in the memory of its memfd when that is let go of. -/

namespace Tpm2Autoenroll.KeyFile

open Interaction Prog Monitor
open Buffering
open Text (Bytes)

-----------------------------------------------------------------------------------------
-- The memory of a memfd
-----------------------------------------------------------------------------------------

/-- What stands at a place of the pages. -/
inductive Cell
  | untouched
  | secret (byte : UInt8)
  | overwritten (byte : UInt8)
  deriving DecidableEq

/-- The pages of a memfd, and what went wrong with it. -/
structure Pages where
  cells : Nat → Cell
  /-- How much of the passphrase was written. -/
  written : Nat
  /-- Whether a wiping `pwrite` failed or wrote nothing. -/
  refused : Bool
  /-- Whether writing failed after a part of the passphrase had been written. -/
  abandoned : Bool

namespace Pages

def fresh : Pages := ⟨fun _ => .untouched, 0, false, false⟩

/-- Writing failed. -/
def fail (m : Pages) : Pages := { m with abandoned := m.abandoned || decide (0 < m.written) }

/-- What a call does to the pages. Cutting the file off leaves them as they are. -/
def next (m : Pages) : Interaction.Event Answer → Pages
  | ⟨.write data, .ok n⟩ =>
      if n.val = 0 then m.fail
      else { m with
        cells := put m.cells m.written ((data.take n.val).map .secret)
        written := m.written + n.val }
  | ⟨.write _, .error .intr⟩ => m
  | ⟨.write _, .error _⟩ => m.fail
  | ⟨.flush, .error _⟩ => m.fail
  | ⟨.pwrite data start, .ok n⟩ =>
      { m with
        cells := put m.cells start ((data.take n.val).map .overwritten)
        refused := m.refused || n.val == 0 }
  | ⟨.pwrite _ _, .error _⟩ => { m with refused := true }
  | _ => m

/-- The pages after a run. -/
def after (trace : Interaction.Trace Answer) : Pages := trace.foldl next fresh

/-- Each byte of the passphrase that was written has been overwritten with zero, unless a wiping
`pwrite` failed or wrote nothing.
-/
def Settled (m : Pages) : Prop :=
  (∀ i < m.written, m.cells i = .overwritten 0) ∨ m.refused = true

instance (m : Pages) : Decidable m.Settled := inferInstanceAs (Decidable (_ ∨ _))

/-- What there is to know when the memfd is closed: the passphrase in it is settled or was
abandoned, and not both.
-/
def Accounted (m : Pages) : Prop := m.Settled ↔ m.abandoned = false

/-- The passphrase is being written and nothing went wrong yet. -/
structure Filling (m : Pages) : Prop where
  secret : ∀ i < m.written, ∃ byte, m.cells i = .secret byte
  refused : m.refused = false
  abandoned : m.abandoned = false

theorem filling_fresh : fresh.Filling :=
  ⟨fun i inside => absurd inside (Nat.not_lt_zero i), rfl, rfl⟩

variable {m : Pages}

/-- What was written is settled only if that was nothing. -/
theorem Filling.accounted_fail (filling : m.Filling) : m.fail.Accounted := by
  have abandoned : m.fail.abandoned = false ↔ m.written = 0 := by
    simp [fail, filling.abandoned]
  rw [Accounted, abandoned]
  constructor
  · rintro (wiped | refused)
    · by_contra some
      obtain ⟨byte, kept⟩ := filling.secret 0 (Nat.pos_of_ne_zero some)
      exact Cell.noConfusion (kept.symm.trans (wiped 0 (Nat.pos_of_ne_zero some)))
    · exact absurd (filling.refused.symm.trans refused) (by decide)
  · intro nothing
    exact Or.inl fun i inside => absurd (nothing ▸ inside) (Nat.not_lt_zero i)

/-- How much a write took. -/
theorem length_taken {data : Bytes} {n : Fin (data.length + 1)} (cell : UInt8 → Cell)
    : ((data.take n.val).map cell).length = n.val := by
  rw [List.length_map, List.length_take, Nat.min_eq_left (Nat.le_of_lt_succ n.isLt)]

/-- A write adds to what is filled. -/
theorem Filling.write (filling : m.Filling) {data : Bytes} {n : Fin (data.length + 1)}
    (moved : n.val ≠ 0)
    : (m.next ⟨.write data, .ok n⟩).Filling
      ∧ (m.next ⟨.write data, .ok n⟩).written = m.written + n.val := by
  have taken : ∀ cell ∈ (data.take n.val).map Cell.secret, ∃ byte, cell = .secret byte :=
    List.forall_mem_map.mpr fun byte _ => ⟨byte, rfl⟩
  have grown := forall_put (fun cell : Cell => ∃ byte, cell = .secret byte) filling.secret taken
  rw [length_taken] at grown
  have step : m.next ⟨.write data, .ok n⟩
      = { m with
          cells := put m.cells m.written ((data.take n.val).map .secret)
          written := m.written + n.val } :=
    if_neg moved
  rw [step]
  exact ⟨⟨grown, filling.refused, filling.abandoned⟩, rfl⟩

/-- What is known once `write_all` has returned. -/
def Wrote (m : Pages) (len : Nat) : Except Errno Unit → Prop
  | .ok _ => m.Filling ∧ m.written = len
  | .error _ => m.Accounted

/-- What is known once `new` has returned. -/
def Made (m : Pages) : Except String SecretFile → Prop
  | .ok key => m.Filling ∧ m.written = key.len
  | .error _ => True

/-- The passphrase was written, nothing went wrong and so much of it is wiped. -/
structure Emptying (m : Pages) (len start : Nat) : Prop where
  written : m.written = len
  erased : ∀ i < start, m.cells i = .overwritten 0
  abandoned : m.abandoned = false

theorem Filling.emptying (filling : m.Filling) : m.Emptying m.written 0 :=
  ⟨rfl, fun i inside => absurd inside (Nat.not_lt_zero i), filling.abandoned⟩

theorem Emptying.settled {len start : Nat} (emptying : m.Emptying len start) (all : len ≤ start)
    : m.Settled :=
  Or.inl fun i inside => emptying.erased i (Nat.lt_of_lt_of_le (emptying.written ▸ inside) all)

/-- A wiping write wipes what it says that it took. -/
theorem Emptying.pwrite {len start : Nat} (emptying : m.Emptying len start) {data : Bytes}
    {n : Fin (data.length + 1)} (blank : ∀ byte ∈ data, byte = 0)
    : (m.next ⟨.pwrite data start, .ok n⟩).Emptying len (start + n.val) := by
  have taken : ∀ cell ∈ (data.take n.val).map Cell.overwritten, cell = .overwritten 0 :=
    List.forall_mem_map.mpr fun byte member =>
      congrArg Cell.overwritten (blank byte (List.mem_of_mem_take member))
  have wiped := forall_put (fun cell : Cell => cell = .overwritten 0) emptying.erased taken
  rw [length_taken] at wiped
  exact ⟨emptying.written, wiped, emptying.abandoned⟩

theorem refused_pwrite {data : Bytes} {start : Nat} {n : Fin (data.length + 1)} (stuck : n.val = 0)
    : (m.next ⟨.pwrite data start, .ok n⟩).refused = true := by
  have nothing : (n.val == 0) = true := beq_iff_eq.mpr stuck
  exact Bool.or_eq_true_iff.mpr (Or.inr nothing)

end Pages

open Pages

-----------------------------------------------------------------------------------------
-- Letting go
-----------------------------------------------------------------------------------------

/-- The memfd is closed only when what is in it is accounted for. -/
def closing : Monitor Answer Pages :=
  observing (fun m op => op = .close → m.Accounted) Pages.next

variable {m : Pages}

/-- The rule of a call that is no close. -/
theorem wp_call {α : Type} {c : Call} {rest : Answer c → Steps α} {post : α → Pages → Prop}
    (holds : c ≠ .close) (later : ∀ answer, wp closing (rest answer) post (m.next ⟨c, answer⟩))
    : wp closing (call c >>= rest) post m := by
  refine ⟨fun same => absurd same holds, fun answer reached step => ?_⟩
  rw [observing_step.mp step]
  exact later answer

/-- The loop of `write_all` writes all of the passphrase or fails, by induction on its rounds. -/
theorem writeRounds_wp {rounds total : Nat} {buf : Bytes} (filling : m.Filling)
    (left : m.written + buf.length = total)
    : wp closing (writeRounds rounds buf) (fun result m' => m'.Wrote total result) m := by
  induction rounds generalizing buf m with
  | zero =>
      cases buf with
      | nil => exact ⟨filling, left⟩
      | cons next later => trivial
  | succ rounds ih =>
      cases buf with
      | nil => exact ⟨filling, left⟩
      | cons next later =>
          refine wp_call (by simp) fun answer => ?_
          cases answer with
          | error e =>
              cases e with
              | intr => exact ih filling left
              | again | noent | exist | pipe | noprotoopt | other =>
                  exact filling.accounted_fail
          | ok n =>
              dsimp only
              split_ifs with stuck
              · have step : m.next ⟨.write (next :: later), .ok n⟩ = m.fail := if_pos stuck
                rw [step]
                exact filling.accounted_fail
              · obtain ⟨filled, longer⟩ := filling.write stuck
                refine ih filled ?_
                rw [longer, List.length_drop, ← left]
                have fits := Nat.le_of_lt_succ n.isLt
                omega

theorem eq_zero_of_mem_zeros {byte : UInt8} {n : Nat} (member : byte ∈ zeros.take n) : byte = 0 :=
  List.eq_of_mem_replicate (List.mem_of_mem_take member)

/-- The loop of `drop` wipes all or is refused, by induction on how much is left. -/
theorem wipe_wp {len start : Nat} (emptying : m.Emptying len start)
    : wp closing (wipe len start) (fun _ m' => m'.Accounted) m := by
  induction left : len - start using Nat.strong_induction_on generalizing start m with
  | _ left ih =>
      rw [wipe]
      split_ifs with more
      · refine wp_call (by simp) fun answer => ?_
        cases answer with
        | error e => exact iff_of_true (Or.inr rfl) emptying.abandoned
        | ok n =>
            have wiped := emptying.pwrite (n := n) fun _ => eq_zero_of_mem_zeros
            dsimp only
            split_ifs with stuck
            · exact iff_of_true (Or.inr (refused_pwrite stuck)) wiped.abandoned
            · exact ih _ (by omega) wiped rfl
      · exact iff_of_true (emptying.settled (Nat.le_of_not_lt more)) emptying.abandoned

/-- The rule of a close. -/
theorem wp_close {α : Type} {rest : Steps α} {post : α → Pages → Prop} (accounted : m.Accounted)
    (later : wp closing rest post m)
    : wp closing (do let _ ← call .close; rest) post m := by
  refine ⟨fun _ => accounted, fun answer reached step => ?_⟩
  rw [observing_step.mp step]
  exact later

/-- `new` writes all of the passphrase or closes the memfd itself. -/
theorem new_wp {interruptions : Nat} {secret : Secret}
    : wp closing (new interruptions secret) (fun result m' => m'.Made result) fresh := by
  refine wp_call (by simp) fun created => ?_
  cases created with
  | error e => trivial
  | ok =>
      have wrote : wp closing (writeAll interruptions secret.bytes)
          (fun result m' => m'.Wrote secret.bytes.length result) fresh :=
        writeRounds_wp filling_fresh (Nat.zero_add _)
      refine Prog.wp_bind.mpr (wp_mono wrote fun result m' written => ?_)
      cases result with
      | error e => exact wp_close written trivial
      | ok =>
          obtain ⟨filling, whole⟩ := written
          refine wp_call (by simp) fun flushed => ?_
          cases flushed with
          | error e => exact wp_close filling.accounted_fail trivial
          | ok => exact ⟨filling, whole⟩

/-- `drop` wipes the memfd before it closes it. -/
theorem drop_wp {key : SecretFile} (filling : m.Filling) (whole : m.written = key.len)
    : wp closing key.drop (fun _ _ => True) m := by
  have emptying : m.Emptying key.len 0 := whole ▸ filling.emptying
  refine Prog.wp_bind.mpr (wp_mono (wipe_wp emptying) fun _ m' accounted => ?_)
  refine wp_call (by simp) fun cut => ?_
  exact wp_close accounted trivial

/-- A memfd is accounted for whenever it is closed. -/
theorem lend_wp {interruptions : Nat} {secret : Secret}
    : wp closing (lend interruptions secret) (fun _ _ => True) fresh := by
  refine Prog.wp_bind.mpr (wp_mono new_wp fun result m' made => ?_)
  cases result with
  | error e => trivial
  | ok key =>
      obtain ⟨filling, whole⟩ := made
      refine wp_call (by simp) fun out => ?_
      exact Prog.wp_bind.mpr (wp_mono (drop_wp filling whole) fun _ _ _ => trivial)

-----------------------------------------------------------------------------------------
-- An end of wiping
-----------------------------------------------------------------------------------------

/-- A write of zeros inside the file. -/
def Blanks (len : Nat) (op : Call) : Prop :=
  ∃ data start, op = .pwrite data start ∧ (∀ byte ∈ data, byte = 0) ∧ start + data.length ≤ len

/-- Wiping writes zeros and never past the end, by induction on how much is left. -/
theorem wipe_only {len start : Nat} : (wipe len start).Only (Blanks len) := by
  induction left : len - start using Nat.strong_induction_on generalizing start with
  | _ left ih =>
      rw [wipe]
      split_ifs with more
      · have inside : start + (zeros.take (min (len - start) zeros.length)).length ≤ len := by
          rw [List.length_take]
          omega
        refine ⟨⟨_, start, rfl, fun _ => eq_zero_of_mem_zeros, inside⟩, fun answer => ?_⟩
        cases answer with
        | error e => trivial
        | ok n =>
            change Only _ _ (if n.val = 0 then _ else _)
            split_ifs with stuck
            · trivial
            · exact ih _ (by omega) rfl
      · trivial

/-- Each write brings it nearer to its end, by induction on how much is left. -/
theorem wipe_counts {len start count limit : Nat} (room : count + (len - start) ≤ limit)
    : wp (counting limit) (wipe len start) (fun _ _ => True) count := by
  induction left : len - start using Nat.strong_induction_on generalizing start count with
  | _ left ih =>
      rw [wipe]
      split_ifs with more
      · refine ⟨Nat.lt_of_lt_of_le (by omega) room, fun answer after step => ?_⟩
        rw [counting_step.mp step]
        cases answer with
        | error e => trivial
        | ok n =>
            change wp _ (if n.val = 0 then _ else _) _ _
            split_ifs with stuck
            · trivial
            · exact ih _ (by omega) (by omega) rfl
      · trivial

-----------------------------------------------------------------------------------------
-- Whenever it is closed
-----------------------------------------------------------------------------------------

variable {interruptions : Nat} {secret : Secret} {past later : Interaction.Trace Answer}
  {outcome : Option (Except String Output)}

/-- A memfd that is closed has been wiped, unless wiping it was refused, exactly when writing the
passphrase to it was not abandoned halfway; and wiping comes to an end.
-/
theorem wiped_unless_abandoned
    (run : (lend interruptions secret).Runs (past ++ ⟨.close, ()⟩ :: later) outcome)
    : ((after past).Settled ↔ (after past).abandoned = false)
      ∧ (wipe secret.bytes.length 0).Only (Blanks secret.bytes.length)
      ∧ ∀ trace ended,
          (wipe secret.bytes.length 0).Runs trace ended → trace.length ≤ secret.bytes.length := by
  refine ⟨wp_allows lend_wp run (path_observing.mpr rfl) rfl, wipe_only, ?_⟩
  intro trace ended wiping
  exact length_le_of_wp (wipe_counts (Nat.le_of_eq (Nat.zero_add _))) wiping

/-- A write that takes a part of what is left. -/
theorem runs_wipe_more {len start : Nat} {data : Bytes} {n : Fin (data.length + 1)}
    {trace : Interaction.Trace Answer} (more : start < len)
    (given : List.replicate (min (len - start) 4096) 0 = data) (moved : n.val ≠ 0)
    (rest : (wipe len (start + n.val)).Runs trace (some ()))
    : (wipe len start).Runs (⟨.pwrite data start, .ok n⟩ :: trace) (some ()) := by
  have taken : zeros.take (min (len - start) zeros.length) = data := by
    rw [← given, zeros, List.length_replicate, List.take_replicate,
      Nat.min_eq_left (Nat.min_le_right _ _)]
  subst taken
  rw [wipe, if_pos more]
  refine .call _ ?_
  change Runs (if n.val = 0 then _ else _) _ _
  rw [if_neg moved]
  exact rest

theorem runs_wipe_done {len start : Nat} (done : len ≤ start)
    : (wipe len start).Runs [] (some ()) := by
  rw [wipe, if_neg (Nat.not_lt_of_le done)]
  exact .ret ()

/-- A child that went well and wrote nothing. -/
def silent : Output := ⟨⟨some 0, "exit status: 0"⟩, [], []⟩

/-- Writing and wiping a byte at a time. -/
def bytewise : Interaction.Trace Answer := [
  ⟨.memfdCreate, .ok ()⟩, ⟨.write [1, 2], .ok 1⟩, ⟨.write [2], .ok 1⟩, ⟨.flush, .ok ()⟩,
  ⟨.run, .ok silent⟩, ⟨.pwrite [0, 0] 0, .ok 1⟩, ⟨.pwrite [0] 1, .ok 1⟩, ⟨.ftruncate 0, .ok ()⟩
]

/-- After such a run nothing of the passphrase is left. -/
theorem bytewise_settled
    : (lend 0 ⟨[1, 2]⟩).Runs (bytewise ++ [⟨.close, ()⟩]) (some (.ok silent))
      ∧ (after bytewise).Settled := by
  have wiped : (wipe 2 0).Runs [⟨.pwrite [0, 0] 0, .ok 1⟩, ⟨.pwrite [0] 1, .ok 1⟩] (some ()) := by
    refine runs_wipe_more (by decide) rfl (by decide) ?_
    refine runs_wipe_more (by decide) rfl (by decide) ?_
    exact runs_wipe_done (by decide)
  have dropped : (SecretFile.drop ⟨2⟩).Runs
      [⟨.pwrite [0, 0] 0, .ok 1⟩, ⟨.pwrite [0] 1, .ok 1⟩, ⟨.ftruncate 0, .ok ()⟩, ⟨.close, ()⟩]
      (some ()) :=
    runs_bind_some.mpr ⟨(), _, _, rfl, wiped, .call _ (.call _ (.ret _))⟩
  have run : (lend 0 ⟨[1, 2]⟩).Runs (bytewise ++ [⟨.close, ()⟩]) (some (.ok silent)) := by
    refine .call _ (.call _ (.call _ (.call _ (.call _ ?_))))
    change Runs (SecretFile.drop ⟨2⟩ >>= fun _ => pure _) _ _
    exact runs_bind_some.mpr ⟨(), _, _, (List.append_nil _).symm, dropped, .ret _⟩
  exact ⟨run, (wiped_unless_abandoned run).1.mpr rfl⟩

/-- A byte of the passphrase is written, and the next write fails. -/
def halfway : Interaction.Trace Answer := [
  ⟨.memfdCreate, .ok ()⟩, ⟨.write [1, 2], .ok 1⟩,
  ⟨.write [2], .error (.other "Cannot allocate memory (os error 12)")⟩
]

/-- The memfd is closed with the byte that was written. -/
theorem halfway_not_settled
    : ¬ ∀ interruptions secret past later outcome,
        (lend interruptions secret).Runs (past ++ ⟨.close, ()⟩ :: later) outcome
          → (after past).Settled := by
  intro settled
  have run : (lend 0 ⟨[1, 2]⟩).Runs (halfway ++ [⟨.close, ()⟩])
      (some (.error
        "writing the key to a memfd: Cannot allocate memory (os error 12)")) :=
    .call _ (.call _ (.call _ (.call _ (.ret _))))
  exact absurd (settled _ _ _ _ _ run) (by decide)

end Tpm2Autoenroll.KeyFile
