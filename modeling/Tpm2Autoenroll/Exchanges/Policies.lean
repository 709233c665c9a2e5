import Tpm2Autoenroll.Serving.Footprints
import Tpm2Autoenroll.Surroundings.Selections

/-! A volume's selection in each of the forms it is passed on in: the argument of
systemd-cryptenroll and the commands that the TPM gets.
-/

namespace Tpm2Autoenroll

open Interaction Prog
open Token (Tpm2Token)
open Tpm2 (Bank Tpm)

variable {volume : Volume}

/-- Any part of a configured selection is written as a selection of that part. -/
theorem PcrSelection.selected_sublist {bank : Bank} {pcrs : PcrSelection} {asked : List UInt8}
    (part : asked.Sublist pcrs.list)
    : Tpm2.selected (Tpm2.putPcrSelection bank asked) = some (bank.id, asked) :=
  Tpm2.selected_putPcrSelection (pcrs.ascending.sublist part)
    fun pcr member => pcrs.inRange pcr (part.mem member)

/-- A configured selection is sorted and without repeats already. -/
theorem PcrSelection.sorted (pcrs : PcrSelection)
    : (pcrs.list.insertionSort (· ≤ ·)).destutter (· ≠ ·) = pcrs.list :=
  Token.sortDedup_of_ascending pcrs.ascending

/-- The only child of an enrollment is told the configured selection. -/
theorem enroll_selects {device : Device} {secret : Secret}
    : (Enroll.run device volume.tpm2Device volume.pcrs.list volume.bank secret).Only fun op =>
        ∀ process, op = .child process
          → Cryptenroll.selection process.args = some (volume.pcrs.list, volume.bank) := by
  unfold Enroll.run
  rw [if_neg volume.pcrs.nonempty]
  refine only_ask nofun fun created => ?_
  cases created with
  | error e => trivial
  | ok fd =>
      refine only_ask ?_ fun output => ?_
      · intro process same
        cases same
        exact Cryptenroll.selection_args volume.pcrs.ascending volume.pcrs.inRange
          volume.pcrs.nonempty
      · cases output with
        | error e => trivial
        | ok out =>
            dsimp only
            split_ifs <;> trivial

/-- A drift check extends its session by the configured selection. -/
theorem drift_selects {tpm : Tpm} {token : Tpm2Token}
    : (Drift.check tpm token volume.pcrs.list volume.bank).Only fun op =>
        ∀ fd cmd, op = .tpm fd cmd → Tpm2.commandCode cmd = Tpm2.putU32 Tpm2.ccPolicyPcr
          → Tpm2.selected (cmd.drop 16) = some (volume.bank.id, volume.pcrs.list) := by
  have extends_session (session : UInt32) : Tpm2.selected
      ((Tpm2.command Tpm2.ccPolicyPcr
        (Tpm.policyPcrBody session volume.bank volume.pcrs.list)).drop 16)
      = some (volume.bank.id, volume.pcrs.list) :=
    PcrSelection.selected_sublist (List.Sublist.refl _)
  refine Drift.check_requests (Tpm.pcrPolicyDigest_only ?_ ?_ ?_ ?_ (fun _ _ => nofun))
  · rintro _ _ ⟨⟩ code
    exact absurd code (by decide)
  · rintro session _ _ ⟨⟩ _
    exact extends_session session
  · rintro session _ _ ⟨⟩ code
    exact absurd code (show Tpm2.putU32 Tpm2.ccPolicyGetDigest ≠ _ by decide)
  · rintro session _ _ ⟨⟩ code
    exact absurd code (show Tpm2.putU32 Tpm2.ccFlushContext ≠ _ by decide)

/-- Reading the registers asks for all of the configured ones first. -/
theorem readPcrs_first {tpm : Tpm} {event : Event} {rest : Trace}
    {outcome : Option (Except String (List (UInt8 × Text.Bytes)))}
    (run : (tpm.readPcrs volume.bank volume.pcrs.list).run.Runs (event :: rest) outcome)
    : event.op = .tpm tpm.fd
        (Tpm2.command Tpm2.ccPcrRead (Tpm2.putPcrSelection volume.bank volume.pcrs.list)) := by
  have shape : ∃ next, (tpm.readPcrs volume.bank volume.pcrs.list).run
      = .call (.tpm tpm.fd (Tpm2.command Tpm2.ccPcrRead
          (Tpm2.putPcrSelection volume.bank volume.pcrs.list))) next := by
    obtain ⟨pcr, more, listed⟩ := List.exists_cons_of_ne_nil volume.pcrs.nonempty
    unfold Tpm.readPcrs
    rw [volume.pcrs.sorted, listed]
    exact ⟨_, rfl⟩
  obtain ⟨next, shape⟩ := shape
  rw [shape] at run
  cases run
  rfl

/-- Every form of a volume's policy names the same registers. The `--tpm2-pcrs=` argument that
systemd-cryptenroll gets reads as exactly the configured registers, each with the configured
bank's name; what PolicyPCR gets in a drift check, and what PCR_Read gets first, decodes to the
same registers under the id that stands for that name; and what PCR_Read gets in a later round,
to some of them.
-/
theorem policy_selections (volume : Volume)
    : (∀ device secret,
        (Enroll.run device volume.tpm2Device volume.pcrs.list volume.bank secret).Only fun op =>
          ∀ process, op = .child process
            → Cryptenroll.selection process.args = some (volume.pcrs.list, volume.bank))
      ∧ Bank.fromName volume.bank.name = some volume.bank
      ∧ (∀ tpm token,
        (Drift.check tpm token volume.pcrs.list volume.bank).Only fun op =>
          ∀ fd cmd, op = .tpm fd cmd → Tpm2.commandCode cmd = Tpm2.putU32 Tpm2.ccPolicyPcr
            → Tpm2.selected (cmd.drop 16) = some (volume.bank.id, volume.pcrs.list))
      ∧ (∀ tpm event rest outcome,
        (Tpm.readPcrs tpm volume.bank volume.pcrs.list).run.Runs (event :: rest) outcome
          → ∃ fd cmd, event.op = .tpm fd cmd
            ∧ Tpm2.commandCode cmd = Tpm2.putU32 Tpm2.ccPcrRead
            ∧ Tpm2.selected (cmd.drop 10) = some (volume.bank.id, volume.pcrs.list))
      ∧ ∀ tpm, (Tpm.readPcrs tpm volume.bank volume.pcrs.list).run.Only fun op =>
          ∃ fd cmd asked, op = .tpm fd cmd
            ∧ asked.Sublist volume.pcrs.list
            ∧ Tpm2.selected (cmd.drop 10) = some (volume.bank.id, asked) := by
  refine ⟨fun _ _ => enroll_selects, Cryptenroll.fromName_name volume.bank,
    fun _ _ => drift_selects, ?_, ?_⟩
  · intro tpm event rest outcome run
    refine ⟨tpm.fd, _, readPcrs_first run, rfl, ?_⟩
    exact PcrSelection.selected_sublist (List.Sublist.refl _)
  · intro tpm
    refine Tpm.readPcrs_only fun asked part => ?_
    rw [volume.pcrs.sorted] at part
    exact ⟨tpm.fd, _, asked, rfl, part, PcrSelection.selected_sublist part⟩

end Tpm2Autoenroll
