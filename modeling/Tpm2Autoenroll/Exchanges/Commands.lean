import Tpm2Autoenroll.Exchanges.Readings
import Tpm2Autoenroll.Model.TpmDevice
import Tpm2Autoenroll.Serving.Requests

/-! One command to the TPM and what its answer amounts to. -/

namespace Tpm2Autoenroll

open Interaction Prog
open Text (Bytes)

/-- What the TPM says when it has done what it was told. -/
def TpmAnswer.payload : TpmAnswer → Option Bytes
  | .response buf => (Tpm2.responsePayload buf).toOption
  | _ => none

theorem TpmAnswer.payload_response (buf : Bytes)
    : (TpmAnswer.response buf).payload = (Tpm2.responsePayload buf).toOption :=
  rfl

namespace Tpm2

/-- A response with this code and payload. -/
def response (code : UInt32) (payload : Bytes) : Bytes :=
  putU16 stNoSessions ++ putU32 (UInt32.ofNat (10 + payload.length)) ++ putU32 code ++ payload

/-- What a response was written with is read from it. -/
theorem responsePayload_response {code : UInt32} {payload : Bytes}
    (room : 10 + payload.length < 2 ^ 32)
    : responsePayload (response code payload)
      = if code ≠ 0 then .error s!"the TPM returned {describeRc code}" else .ok payload := by
  simp only [response, putU16, putU32, List.cons_append, List.nil_append, responsePayload,
    ofNat_putU32, List.length_cons]
  rw [if_neg]
  simp only [UInt8.toNat_ofNat', UInt32.toNat_ofNat'] at *
  omega

end Tpm2

/-- The rule of one command: it succeeds with the payload of its answer, and fails when there is
none.
-/
theorem Tpm2.Tpm.transact_wp {σ : Type} {monitor : Monitor Res σ} {tpm : Tpm2.Tpm} {cc : UInt32}
    {body : Bytes} {post : Except String Bytes → σ → Prop} {s : σ}
    (allowed : monitor.allows s (.tpm tpm.fd (Tpm2.command cc body)))
    (completed : ∀ answer result after,
      monitor.step s ⟨.tpm tpm.fd (Tpm2.command cc body), answer⟩ after
      → answer.payload = result.toOption → post result after)
    : wp monitor (tpm.transact cc body).run post s := by
  refine Fallible.wp_bind.mpr ⟨allowed, fun answer after step => ?_⟩
  cases answer with
  | response buf =>
      refine completed _ _ after step ?_
      cases read : Tpm2.responsePayload buf <;> simp [TpmAnswer.payload, read] <;> rfl
  | _ => exact completed _ (.error _) after step rfl

/-- A command is one exchange, and it succeeds with the payload of the answer. -/
theorem Tpm2.Tpm.transact_answer {tpm : Tpm2.Tpm} {cc : UInt32} {body : Bytes} {trace : Trace}
    {result : Except String Bytes} (run : (tpm.transact cc body).run.Runs trace (some result))
    : ∃ answer, trace = [⟨.tpm tpm.fd (Tpm2.command cc body), answer⟩]
        ∧ answer.payload = result.toOption := by
  have specified : wp (Monitor.history fun _ _ => True) (tpm.transact cc body).run
      (fun result past => ∃ answer, past = [⟨.tpm tpm.fd (Tpm2.command cc body), answer⟩]
        ∧ answer.payload = result.toOption)
      [] := by
    refine transact_wp trivial fun answer result after step same => ⟨answer, ?_, same⟩
    exact Monitor.history_step.mp step
  exact wp_post specified run (Monitor.path_history.mpr rfl)

end Tpm2Autoenroll
