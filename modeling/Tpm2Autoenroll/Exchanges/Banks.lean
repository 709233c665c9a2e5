import Tpm2Autoenroll.Exchanges.Rounds

/-! Which bank the digests of a reading are from. The response says, and nobody looks. -/

namespace Tpm2Autoenroll.Tpm2

open Interaction Prog Fallible
open Text (Bytes)

/-- The bank of the first selection in a response: two bytes after the update counter and the
number of selections.
-/
def namedBank : Event → Option UInt16
  | ⟨.tpm _ _, .response buf⟩ =>
      match (responsePayload buf).toOption.map (List.drop 8) with
      | some (hi :: lo :: _) => some (UInt16.ofNat (hi.toNat * 256 + lo.toNat))
      | _ => none
  | _ => none

/-- Every register of an answer comes with a digest. -/
theorem Answers.exists_pair {tpm : Tpm} {bank : Bank} {event : Event}
    (answers : Answers tpm bank event)
    : ∃ pcr digest, (pcr, digest) ∈ answered event := by
  obtain ⟨⟨_, _, _, digests, _, even, pairs⟩, nonempty⟩ := answers
  obtain ⟨pcr, more, listed⟩ := List.exists_cons_of_ne_nil nonempty
  rw [listed, List.length_cons] at even
  obtain ⟨digest, others, rfl⟩ := List.exists_cons_of_length_eq_add_one even
  exact ⟨pcr, digest, by simp [pairs, listed]⟩

theorem Answers.named_of_answered {tpm : Tpm} {bank : Bank} {event : Event} {pcr : UInt8}
    {digest : Bytes} (answers : Answers tpm bank event) (pair : (pcr, digest) ∈ answered event)
    : pcr ∈ named event := by
  obtain ⟨⟨_, _, _, _, _, _, pairs⟩, _⟩ := answers
  rw [pairs] at pair
  exact (List.of_mem_zip pair).1

/-- Every digest of a reading is from a response for the bank that was asked for exactly when the
reading failed or the TPM named that bank in every response.
-/
theorem pcr_banks {tpm : Tpm} {bank : Bank} {indices : List UInt8} {trace : Trace}
    {result : Except String (List (UInt8 × Bytes))}
    (run : (tpm.readPcrs bank indices).run.Runs trace (some result))
    : (∀ final, result = .ok final → ∀ pcr digest, (pcr, digest) ∈ final
        → ∃ event ∈ trace, (pcr, digest) ∈ answered event ∧ namedBank event = some bank.id)
      ↔ (∃ e, result = .error e) ∨ ∀ event ∈ trace, namedBank event = some bank.id := by
  cases result with
  | error e => exact ⟨fun _ => Or.inl ⟨e, rfl⟩, fun _ _ same => nomatch same⟩
  | ok final =>
      obtain ⟨_, gathered, _, answers⟩ := readPcrs_ok run
      constructor
      · intro sourced
        refine Or.inr fun event member => ?_
        obtain ⟨pcr, digest, pair⟩ := (answers event member).exists_pair
        have listed := gathered.mem_iff.mpr (List.mem_flatMap.mpr ⟨event, member, pair⟩)
        obtain ⟨other, among, same_pair, bank_named⟩ := sourced final rfl pcr digest listed
        have there := (answers other among).named_of_answered same_pair
        have here := (answers event member).named_of_answered pair
        obtain ⟨past, later, rfl⟩ := List.append_of_mem member
        rcases List.mem_cons.mp (List.perm_middle.mem_iff.mp among) with rfl | elsewhere
        · exact bank_named
        · exact absurd there (named_once run here elsewhere)
      · rintro (⟨e, failed⟩ | every) _ ⟨⟩ pcr digest listed
        · cases failed
        · obtain ⟨event, member, pair⟩ := List.mem_flatMap.mp (gathered.mem_iff.mp listed)
          exact ⟨event, member, pair, every event member⟩

-----------------------------------------------------------------------------------------
-- A response for another bank
-----------------------------------------------------------------------------------------

/-- A response for PCR 7 of this bank, with a digest of twenty bytes. -/
private def onePcr (hash : UInt16) : Bytes :=
  let payload := pcrReadPayload 0 hash [0x80, 0, 0] [List.replicate 20 0xaa]
  putU16 stNoSessions ++ putU32 (UInt32.ofNat (10 + payload.length)) ++ putU32 0 ++ payload

/-- The exchange in which it is the answer to the question for PCR 7 of the bank sha256. -/
private def exchange (hash : UInt16) : Event :=
  ⟨.tpm 4 (command ccPcrRead (putPcrSelection .sha256 [7])), .response (onePcr hash)⟩

/-- A reading of PCR 7 succeeds with the digest of such a response, whatever its bank. -/
private theorem runs_exchange (hash : UInt16) (known : hash = 0x0004 ∨ hash = 0x000b)
    : (Tpm.readPcrs ⟨4⟩ .sha256 [7]).run.Runs [exchange hash]
        (some (.ok [(7, List.replicate 20 0xaa)])) := by
  have good : responsePayload (onePcr hash)
      = .ok (pcrReadPayload 0 hash [0x80, 0, 0] [List.replicate 20 0xaa]) := by
    rcases known with rfl | rfl <;> decide +kernel
  have taken : ((parsePcrRead (pcrReadPayload 0 hash [0x80, 0, 0] [List.replicate 20 0xaa])).bind
      fun round => absorb [7] [] round) = .ok ([], [(7, List.replicate 20 0xaa)]) := by
    rcases known with rfl | rfl <;> decide +kernel
  have answer : (Tpm.transact ⟨4⟩ ccPcrRead (putPcrSelection .sha256 [7])).run.Runs
      [exchange hash] (some (.ok _)) :=
    Tpm.transact_runs good
  have absorbed : (ofResult ((parsePcrRead (pcrReadPayload 0 hash [0x80, 0, 0]
      [List.replicate 20 0xaa])).bind fun round => absorb [7] [] round)).run.Runs []
      (some (.ok ([], [(7, List.replicate 20 0xaa)]))) :=
    Tpm.runs_ofResult.mpr ⟨rfl, taken⟩
  have rounds : (Tpm.readPcrRounds ⟨4⟩ .sha256 1 [7] []).run.Runs [exchange hash]
      (some (.ok [(7, List.replicate 20 0xaa)])) :=
    runs_bind_ok.mpr ⟨_, [exchange hash], [], rfl, answer,
      runs_bind_ok.mpr ⟨_, [], [], rfl, absorbed, .ret _⟩⟩
  exact runs_bind_ok.mpr ⟨_, [exchange hash], [], rfl, rounds, .ret _⟩

/-- A digest from the bank sha1 is reported as one of the bank sha256. -/
theorem wrong_bank_read
    : ∃ event final pcr digest,
        (Tpm.readPcrs ⟨4⟩ .sha256 [7]).run.Runs [event] (some (.ok final))
        ∧ (pcr, digest) ∈ final
        ∧ (pcr, digest) ∈ answered event
        ∧ namedBank event = some 0x0004 := by
  refine ⟨exchange 0x0004, _, 7, List.replicate 20 0xaa, runs_exchange _ (Or.inl rfl), ?_, ?_, ?_⟩
  · simp
  · decide +kernel
  · decide +kernel

/-- A reading whose one response is for the bank that was asked for. -/
theorem pcr_banks_sha256
    : ∃ event ∈ [exchange 0x000b],
        ((7 : UInt8), List.replicate 20 (0xaa : UInt8)) ∈ answered event
        ∧ namedBank event = some Bank.sha256.id := by
  refine (pcr_banks (runs_exchange 0x000b (Or.inr rfl))).mpr (Or.inr ?_) _ rfl 7 _ (by simp)
  intro event member
  rw [List.mem_singleton.mp member]
  decide +kernel

end Tpm2Autoenroll.Tpm2
