import Mathlib.Data.List.Nodup
import Tpm2Autoenroll.Exchanges.Commands
import Tpm2Autoenroll.Exchanges.PcrReads
import Tpm2Autoenroll.Interaction.Driving
import Tpm2Autoenroll.Serving.Footprints
import Tpm2Autoenroll.Serving.Outcomes

/-! Reading registers in rounds from a TPM that may answer anything: how many rounds there are,
what a reading that succeeds holds, and which answers make it fail.
-/

namespace Tpm2Autoenroll.Tpm2

open Interaction Prog Fallible
open Text (Bytes)

-----------------------------------------------------------------------------------------
-- One answer
-----------------------------------------------------------------------------------------

/-- What a response to PCR_Read says. -/
def round (buf : Bytes) : Except String PcrRead := (responsePayload buf).bind parsePcrRead

/-- The registers that an answer names. -/
def named : Event → List UInt8
  | ⟨.tpm _ _, .response buf⟩ => ((round buf).toOption.map Prod.fst).getD []
  | _ => []

/-- The registers of an answer with their digests, by position. -/
def answered : Event → List (UInt8 × Bytes)
  | ⟨.tpm _ _, .response buf⟩ =>
      ((round buf).toOption.map fun told => told.1.zip told.2).getD []
  | _ => []

/-- An answer to PCR_Read that says something, with a digest for every register. -/
structure Answers (tpm : Tpm) (bank : Bank) (event : Event) : Prop where
  asked : ∃ asked answer,
    event = ⟨.tpm tpm.fd (command ccPcrRead (putPcrSelection bank asked)), .response answer⟩
    ∧ ∃ digests, round answer = .ok (named event, digests)
      ∧ digests.length = (named event).length
      ∧ answered event = (named event).zip digests
  nonempty : named event ≠ []

/-- What a round has to say to be taken, and what is left then. -/
theorem absorb_ok {remaining left returned : List UInt8} {out gathered : List (UInt8 × Bytes)}
    {digests : List Bytes} (taken : absorb remaining out (returned, digests) = .ok (left, gathered))
    : returned ≠ [] ∧ digests.length = returned.length
      ∧ (∀ pcr ∈ returned, pcr ∈ remaining)
      ∧ left = remaining.filter (fun pcr => !returned.contains pcr)
      ∧ gathered = out ++ returned.zip digests := by
  simp only [absorb] at taken
  split_ifs at taken with uneven repeated
  have even := not_or.mp uneven
  split at taken
  · cases taken
  next outstanding =>
    cases taken
    refine ⟨even.1, by simpa using even.2, fun pcr member => ?_, rfl, rfl⟩
    simpa using List.find?_eq_none.mp outstanding pcr member

/-- A response names registers in ascending order. -/
theorem round_ascending {buf : Bytes} {returned : List UInt8} {digests : List Bytes}
    (told : round buf = .ok (returned, digests))
    : returned.Pairwise (· < ·) := by
  cases good : responsePayload buf with
  | error e => simp [round, good, Except.bind] at told
  | ok payload =>
      rw [round, good] at told
      exact (pcrRead_ascending told).1

/-- What was outstanding is what was answered and what is left. -/
theorem perm_remaining {returned remaining : List UInt8} (distinct : remaining.Nodup)
    (once : returned.Nodup) (among : ∀ pcr ∈ returned, pcr ∈ remaining)
    : (returned ++ remaining.filter fun pcr => !returned.contains pcr).Perm remaining := by
  have answered : (remaining.filter fun pcr => returned.contains pcr).Perm returned := by
    refine (List.perm_ext_iff_of_nodup (distinct.filter _) once).mpr fun pcr => ?_
    simp only [List.mem_filter, List.contains_eq_mem, decide_eq_true_eq]
    exact ⟨And.right, fun member => ⟨among pcr member, member⟩⟩
  exact (answered.symm.append_right _).trans (List.filter_append_perm _ remaining)

-----------------------------------------------------------------------------------------
-- All rounds
-----------------------------------------------------------------------------------------

variable {tpm : Tpm} {bank : Bank}

/-- Rounds that succeed have answered for exactly what was outstanding; by induction on the
rounds.
-/
theorem readPcrRounds_ok {rounds : Nat} {outstanding : List UInt8}
    {out final : List (UInt8 × Bytes)} {trace : Trace} (distinct : outstanding.Nodup)
    (run : (tpm.readPcrRounds bank rounds outstanding out).run.Runs trace (some (.ok final)))
    : (trace.flatMap named).Perm outstanding
      ∧ final = out ++ trace.flatMap answered
      ∧ ∀ event ∈ trace, Answers tpm bank event := by
  induction rounds generalizing outstanding out trace with
  | zero =>
      cases outstanding with
      | nil =>
          cases run
          exact ⟨.nil, by simp, fun _ member => nomatch member⟩
      | cons pcr more => cases run
  | succ rounds ih =>
      cases outstanding with
      | nil =>
          cases run
          exact ⟨.nil, by simp, fun _ member => nomatch member⟩
      | cons pcr more =>
          obtain ⟨payload, first, second, rfl, asked, later⟩ := runs_bind_ok.mp run
          obtain ⟨buf, rfl, good⟩ := Tpm.transact_ok asked
          obtain ⟨⟨left, gathered⟩, third, rest, rfl, judged, remaining⟩ := runs_bind_ok.mp later
          obtain ⟨rfl, taken⟩ := Tpm.runs_ofResult.mp judged
          cases parsed : parsePcrRead payload with
          | error e => simp [parsed, Except.bind] at taken
          | ok told =>
              obtain ⟨returned, digests⟩ := told
              rw [parsed] at taken
              obtain ⟨nonempty, even, among, rfl, rfl⟩ := absorb_ok taken
              have said : round buf = .ok (returned, digests) := by
                rw [round, good]
                exact parsed
              have ascending : returned.Pairwise (· < ·) :=
                (pcrRead_ascending parsed).1
              have once : returned.Nodup := Sorting.nodup_of_ascending ascending
              obtain ⟨perm, collected, answers⟩ := ih (distinct.filter _) remaining
              have names : named ⟨.tpm tpm.fd (command ccPcrRead
                  (putPcrSelection bank (pcr :: more))), .response buf⟩ = returned := by
                simp [named, said, Except.toOption]
              have pairs : answered ⟨.tpm tpm.fd (command ccPcrRead
                  (putPcrSelection bank (pcr :: more))), .response buf⟩
                  = returned.zip digests := by
                simp [answered, said, Except.toOption]
              simp only [List.singleton_append, List.nil_append, List.flatMap_cons, names, pairs,
                List.forall_mem_cons]
              refine ⟨(perm.append_left _).trans (perm_remaining distinct once among), ?_, ?_,
                answers⟩
              · rw [collected, List.append_assoc]
              · refine ⟨⟨_, buf, rfl, digests, ?_⟩, ?_⟩ <;> rw [names]
                · exact ⟨said, even, pairs⟩
                · exact nonempty

/-- There are no more rounds than registers outstanding; by induction on the rounds. -/
theorem readPcrRounds_counted {rounds limit count : Nat} {outstanding : List UInt8}
    {out : List (UInt8 × Bytes)} (enough : outstanding.length ≤ rounds)
    (within : count + outstanding.length ≤ limit)
    : wp (Monitor.counting limit) (tpm.readPcrRounds bank rounds outstanding out).run
        (fun _ _ => True) count := by
  induction rounds generalizing outstanding out count with
  | zero =>
      rw [List.eq_nil_of_length_eq_zero (Nat.le_zero.mp enough)]
      trivial
  | succ rounds ih =>
      cases outstanding with
      | nil => trivial
      | cons pcr more =>
          rw [List.length_cons] at enough within
          have room : count < limit := by omega
          refine Fallible.wp_bind.mpr (Tpm.transact_wp room fun answer result after step same => ?_)
          obtain rfl : after = count + 1 := step
          cases result with
          | error e => trivial
          | ok payload =>
              refine Fallible.wp_bind.mpr ?_
              cases taken : (parsePcrRead payload).bind fun round =>
                  absorb (pcr :: more) out round with
              | error e => trivial
              | ok progress =>
                  obtain ⟨left, gathered⟩ := progress
                  have fewer : left.length < more.length + 1 := by
                    cases parsed : parsePcrRead payload with
                    | error e => simp [parsed, Except.bind] at taken
                    | ok round =>
                        rw [parsed] at taken
                        exact absorb_length taken
                  exact ih (by omega) (by omega)

theorem readPcrs_counted {indices : List UInt8}
    : wp (Monitor.counting (Sorting.sortDedup indices).length) (tpm.readPcrs bank indices).run
        (fun _ _ => True) 0 := by
  have counted : 0 + (Sorting.sortDedup indices).length ≤ (Sorting.sortDedup indices).length := by
    omega
  refine Fallible.wp_bind.mpr (wp_mono (readPcrRounds_counted le_rfl counted) ?_)
  intro result after _
  cases result <;> trivial

/-- A reading that succeeds lists the registers asked for, each with what its answer says. -/
theorem readPcrs_ok {indices : List UInt8} {final : List (UInt8 × Bytes)} {trace : Trace}
    (run : (tpm.readPcrs bank indices).run.Runs trace (some (.ok final)))
    : (trace.flatMap named).Perm (Sorting.sortDedup indices)
      ∧ final.Perm (trace.flatMap answered)
      ∧ final.map Prod.fst = Sorting.sortDedup indices
      ∧ ∀ event ∈ trace, Answers tpm bank event := by
  obtain ⟨out, first, second, rfl, gathering, returning⟩ := runs_bind_ok.mp run
  obtain ⟨rfl, same⟩ := runs_pure_some.mp returning
  cases same
  have ascending := Sorting.sortDedup_ascending indices
  obtain ⟨perm, rfl, answers⟩ := readPcrRounds_ok (Sorting.nodup_of_ascending ascending) gathering
  rw [List.append_nil, List.nil_append] at *
  have sorted := List.perm_insertionSort (fun a b : UInt8 × Bytes => a.1 ≤ b.1)
    (first.flatMap answered)
  have keys : (first.flatMap answered).map Prod.fst = first.flatMap named := by
    rw [List.map_flatMap]
    refine List.flatMap_congr fun event member => ?_
    obtain ⟨⟨_, _, _, _, _, even, pairs⟩, _⟩ := answers event member
    rw [pairs, List.map_fst_zip (by omega)]
  refine ⟨perm, sorted, ?_, answers⟩
  have listed : (((first.flatMap answered).insertionSort fun a b => a.1 ≤ b.1).map Prod.fst).Perm
      (Sorting.sortDedup indices) := by
    have keyed := sorted.map Prod.fst
    rw [keys] at keyed
    exact keyed.trans perm
  have distinct : ((first.flatMap answered).map Prod.fst).Nodup := by
    rw [keys, perm.nodup_iff]
    exact Sorting.nodup_of_ascending ascending
  have strict := List.pairwise_map.mpr (Sorting.ascending_insertionSort distinct)
  exact Sorting.eq_of_ascending strict ascending fun pcr => listed.mem_iff

/-- An answer that is taken is the only one of its registers. -/
theorem named_once {indices : List UInt8} {final : List (UInt8 × Bytes)} {past later : Trace}
    {event other : Event} {pcr : UInt8}
    (run : (tpm.readPcrs bank indices).run.Runs (past ++ event :: later) (some (.ok final)))
    (here : pcr ∈ named event) (elsewhere : other ∈ past ++ later)
    : pcr ∉ named other := by
  obtain ⟨perm, _⟩ := readPcrs_ok run
  have once : ((past ++ event :: later).flatMap named).Nodup :=
    perm.nodup_iff.mpr (Sorting.nodup_of_ascending (Sorting.sortDedup_ascending indices))
  have moved : (past ++ event :: later).Perm (event :: (past ++ later)) := List.perm_middle
  rw [(moved.flatMap_right named).nodup_iff, List.flatMap_cons] at once
  intro there
  exact (List.disjoint_of_nodup_append once) here (List.mem_flatMap.mpr ⟨other, elsewhere, there⟩)

/-- Reading registers from any TPM. It finishes, after at most as many rounds as there are
distinct registers, each a PCR_Read. If it succeeds, it lists exactly the distinct registers in
ascending order, each with the digest at its position in the one response that named it. A
response that names no register, a register that was not asked for or was answered before, or
another number of registers than it has digests makes it fail.
-/
theorem readPcrs_rounds {tpm : Tpm} {bank : Bank} {indices : List UInt8}
    : (∀ (σ : Type) (machine : Machine Res σ) (state : σ), ∃ result,
        ((tpm.readPcrs bank indices).run.drive machine state).outcome = some result)
      ∧ (∀ trace outcome, (tpm.readPcrs bank indices).run.Runs trace outcome
        → trace.length ≤ (Sorting.sortDedup indices).length
          ∧ ∀ event ∈ trace, ∃ asked,
            event.op = .tpm tpm.fd (command ccPcrRead (putPcrSelection bank asked)))
      ∧ (∀ trace final, (tpm.readPcrs bank indices).run.Runs trace (some (.ok final))
        → final.map Prod.fst = Sorting.sortDedup indices
          ∧ ∀ pcr digest, (pcr, digest) ∈ final
            → ∃ past fd cmd buf later returned digests, ∃ position : Nat,
              trace = past ++ ⟨.tpm fd cmd, .response buf⟩ :: later
              ∧ round buf = .ok (returned, digests)
              ∧ returned.Pairwise (· < ·)
              ∧ returned[position]? = some pcr
              ∧ digests[position]? = some digest
              ∧ ∀ other ∈ past ++ later, pcr ∉ named other)
      ∧ ∀ past fd cmd buf later result returned digests,
        (tpm.readPcrs bank indices).run.Runs (past ++ ⟨.tpm fd cmd, .response buf⟩ :: later)
          (some result)
        → round buf = .ok (returned, digests)
        → returned = [] ∨ digests.length ≠ returned.length
          ∨ (∃ pcr ∈ returned, pcr ∉ indices ∨ ∃ earlier ∈ past, pcr ∈ named earlier)
        → ∃ e, result = .error e := by
  refine ⟨?_, ?_, ?_, ?_⟩
  · intro σ machine state
    have only : (tpm.readPcrs bank indices).run.Only fun _ => True :=
      Tpm.readPcrs_only fun _ _ => trivial
    exact drive_completes only machine state
  · intro trace outcome run
    constructor
    · exact length_le_of_wp readPcrs_counted run
    · intro event member
      have only : (tpm.readPcrs bank indices).run.Only fun op =>
          ∃ asked, op = .tpm tpm.fd (command ccPcrRead (putPcrSelection bank asked)) :=
        Tpm.readPcrs_only fun asked _ => ⟨asked, rfl⟩
      exact only.mem run member
  · intro trace final run
    obtain ⟨_, gathered, listed, answers⟩ := readPcrs_ok run
    refine ⟨listed, fun pcr digest member => ?_⟩
    obtain ⟨event, inside, pair⟩ := List.mem_flatMap.mp (gathered.mem_iff.mp member)
    obtain ⟨past, later, rfl⟩ := List.append_of_mem inside
    obtain ⟨⟨asked, buf, rfl, digests, told, even, pairs⟩, _⟩ := answers event inside
    rw [pairs] at pair
    obtain ⟨position, found⟩ := List.mem_iff_getElem?.mp pair
    obtain ⟨left, right⟩ := List.getElem?_zip_eq_some.mp found
    refine ⟨past, _, _, buf, later, _, digests, position, rfl, told, ?_, left, right, ?_⟩
    · exact round_ascending told
    · intro other elsewhere
      exact named_once run (List.mem_of_getElem? left) elsewhere
  · intro past fd cmd buf later result returned digests run told bad
    cases result with
    | error e => exact ⟨e, rfl⟩
    | ok final =>
        exfalso
        obtain ⟨perm, _, _, answers⟩ := readPcrs_ok run
        have inside : (⟨.tpm fd cmd, .response buf⟩ : Event)
            ∈ past ++ ⟨.tpm fd cmd, .response buf⟩ :: later := by simp
        have names : named ⟨.tpm fd cmd, .response buf⟩ = returned := by
          simp [named, told, Except.toOption]
        obtain ⟨⟨asked, answer, same, others, said, even, _⟩, nonempty⟩ := answers _ inside
        cases same
        obtain ⟨_, rfl⟩ : named _ = returned ∧ others = digests := by simpa [told] using said.symm
        rcases bad with nothing | uneven | ⟨pcr, member, unasked | ⟨earlier, before, again⟩⟩
        · exact nonempty (names.trans nothing)
        · exact uneven (even.trans (congrArg List.length names))
        · have listed := perm.mem_iff.mp
            (List.mem_flatMap.mpr ⟨_, inside, names.symm ▸ member⟩)
          exact unasked (Sorting.mem_sortDedup.mp listed)
        · have elsewhere : earlier ∈ past ++ later := List.mem_append_left later before
          exact named_once run (names.symm ▸ member) elsewhere again

end Tpm2Autoenroll.Tpm2
