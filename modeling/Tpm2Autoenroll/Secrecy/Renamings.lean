import Mathlib.Logic.Equiv.Basic
import Tpm2Autoenroll.Cutting.Separators
import Tpm2Autoenroll.Interaction.Mirroring
import Tpm2Autoenroll.Model.Connection

/-! Exchanging the passphrases of a run for others: which requests and answers carry one, what
becomes of these, and what is left of a request when its passphrase is blotted out.
-/

namespace Tpm2Autoenroll

open Text (Bytes)

-----------------------------------------------------------------------------------------
-- Renamings
-----------------------------------------------------------------------------------------

/-- A one-to-one exchange of passphrases for others of the same length. The line feed, which
separates what a prompt returns, gets into none of them.
-/
structure Renaming where
  rename : Bytes → Bytes
  injective : Function.Injective rename
  length_eq : ∀ bytes, (rename bytes).length = bytes.length
  unbroken : ∀ bytes, 0x0a ∉ bytes → 0x0a ∉ rename bytes

namespace Renaming

variable (ρ : Renaming)

def secret (secret : Secret) : Secret := ⟨ρ.rename secret.bytes⟩

def key (key : SecretFile) : SecretFile := ⟨key.fd, ρ.secret key.secret⟩

/-- What a prompt returns, each of its lines exchanged. -/
def typed (stdout : Bytes) : Bytes :=
  List.intercalate [0x0a] ((stdout.splitOn 0x0a).map ρ.rename)

/-- The answer of a prompt for a passphrase. -/
def offered (answer : Except String Output) : Except String Output :=
  answer.map fun out => { out with stdout := ρ.typed out.stdout }

theorem secret_injective : Function.Injective ρ.secret := by
  intro first second same
  have bytes : ρ.rename first.bytes = ρ.rename second.bytes := congrArg Secret.bytes same
  cases first
  cases second
  exact congrArg Secret.mk (ρ.injective bytes)

theorem length_secret (secret : Secret) : (ρ.secret secret).bytes.length = secret.bytes.length :=
  ρ.length_eq secret.bytes

/-- The lines of an exchanged output are the exchanged lines. -/
theorem splitOn_typed (stdout : Bytes)
    : (ρ.typed stdout).splitOn 0x0a = (stdout.splitOn 0x0a).map ρ.rename := by
  refine List.splitOn_intercalate 0x0a ?_ ?_
  · intro line member
    obtain ⟨original, among, rfl⟩ := List.mem_map.mp member
    exact ρ.unbroken original (Cutting.notMem_of_mem_splitOn among)
  · exact fun empty => List.splitOn_ne_nil 0x0a stdout (List.map_eq_nil_iff.mp empty)

/-- The candidates of an exchanged output are the exchanged candidates. -/
theorem parseCandidates_typed (stdout : Bytes)
    : Askpw.parseCandidates (ρ.typed stdout)
      = (Askpw.parseCandidates stdout).map ρ.secret := by
  have kept : ∀ line : Bytes, (ρ.rename line).isEmpty = line.isEmpty := by
    intro line
    rw [Bool.eq_iff_iff, List.isEmpty_iff_length_eq_zero, List.isEmpty_iff_length_eq_zero,
      ρ.length_eq]
  rw [Askpw.parseCandidates, splitOn_typed, Askpw.parseCandidates, List.map_take,
    List.map_map, List.filter_map, List.filter_map, List.map_map]
  simp only [Function.comp_def, kept]
  rfl

end Renaming

/-- One passphrase for another. -/
def Renaming.swap (first second : Bytes) (length : first.length = second.length)
    (whole : 0x0a ∉ first) (unbroken : 0x0a ∉ second)
    : Renaming where
  rename := Equiv.swap first second
  injective := (Equiv.swap first second).injective
  length_eq bytes := by
    rw [Equiv.swap_apply_def]
    split_ifs with same other
    · rw [same, length]
    · rw [other, length]
    · rfl
  unbroken bytes clean := by
    rw [Equiv.swap_apply_def]
    split_ifs
    · exact unbroken
    · exact whole
    · exact clean

-----------------------------------------------------------------------------------------
-- Requests that carry a passphrase
-----------------------------------------------------------------------------------------

/-- The requests that neither carry a passphrase nor are answered with one. -/
@[simp]
def Op.plain : Op → Prop
  | .secretFile _ | .write _ _ => False
  | .child (.testPassphrase _ _) | .child (.askPassword _ _ _) => False
  | .child (.cryptenroll _ _ _ _ _) => False
  | _ => True

/-- Events that differ in their passphrases only, which are exchanged. A write sends what is left
of one after some of it has been sent.
-/
inductive Exchanged (ρ : Renaming) : Event → Event → Prop
  | plain {op : Op} (answer : Res op) (plain : op.plain) : Exchanged ρ ⟨op, answer⟩ ⟨op, answer⟩
  | secretFile (secret : Secret) (answer : Except String Fd)
    : Exchanged ρ ⟨.secretFile secret, answer⟩ ⟨.secretFile (ρ.secret secret), answer⟩
  | testPassphrase (device : Device) (key : SecretFile) (answer : Except String Output)
    : Exchanged ρ ⟨.child (.testPassphrase device key), answer⟩
        ⟨.child (.testPassphrase device (ρ.key key)), answer⟩
  | askPassword (volume device : String) (attempt : Attempt) (answer : Except String Output)
    : Exchanged ρ ⟨.child (.askPassword volume device attempt), answer⟩
        ⟨.child (.askPassword volume device attempt), ρ.offered answer⟩
  | cryptenroll (device : Device) (tpm2Device : String) (pcrs : List UInt8) (bank : Tpm2.Bank)
    (key : SecretFile) (answer : Except String Output)
    : Exchanged ρ ⟨.child (.cryptenroll device tpm2Device pcrs bank key), answer⟩
        ⟨.child (.cryptenroll device tpm2Device pcrs bank (ρ.key key)), answer⟩
  | wrote (conn : Fd) (secret : Secret) (sent : Nat) {buf mirrored : Bytes}
    (rest : buf = secret.bytes.drop sent) (exchanged : mirrored = (ρ.secret secret).bytes.drop sent)
    (count : Fin (buf.length + 1)) (same : Fin (mirrored.length + 1)) (counted : count.val = same.val)
    : Exchanged ρ ⟨.write conn buf, .ok count⟩ ⟨.write conn mirrored, .ok same⟩
  | writeFailed (conn : Fd) (secret : Secret) (sent : Nat) {buf mirrored : Bytes}
    (rest : buf = secret.bytes.drop sent) (exchanged : mirrored = (ρ.secret secret).bytes.drop sent)
    (error : Errno)
    : Exchanged ρ ⟨.write conn buf, .error error⟩ ⟨.write conn mirrored, .error error⟩

-----------------------------------------------------------------------------------------
-- Requests without their passphrases
-----------------------------------------------------------------------------------------

/-- Nothing but the length. -/
def blotted (bytes : Bytes) : Bytes := List.replicate bytes.length 0

def Child.redacted : Child → Child
  | .testPassphrase device key => .testPassphrase device ⟨key.fd, ⟨blotted key.secret.bytes⟩⟩
  | .cryptenroll device tpm2Device pcrs bank key =>
      .cryptenroll device tpm2Device pcrs bank ⟨key.fd, ⟨blotted key.secret.bytes⟩⟩
  | process => process

/-- A request with its passphrase blotted out: what memfds and connections do not hide of it. -/
def Op.redacted : Op → Op
  | .secretFile secret => .secretFile ⟨blotted secret.bytes⟩
  | .write conn buf => .write conn (blotted buf)
  | .child process => .child process.redacted
  | op => op

/-- A command line has no passphrase that could be blotted out of it. -/
theorem Child.args_redacted (process : Child) : process.redacted.args = process.args := by
  cases process <;> rfl

theorem Renaming.blotted_secret (ρ : Renaming) (secret : Secret)
    : blotted (ρ.secret secret).bytes = blotted secret.bytes := by
  rw [blotted, ρ.length_secret, blotted]

/-- Requests whose passphrases are exchanged are the same without them. -/
theorem Exchanged.redacted {ρ : Renaming} {event mirrored : Event}
    (exchanged : Exchanged ρ event mirrored)
    : mirrored.op.redacted = event.op.redacted := by
  cases exchanged with
  | plain | askPassword => rfl
  | secretFile | testPassphrase | cryptenroll =>
      simp only [Op.redacted, Child.redacted, Renaming.key, ρ.blotted_secret]
  | wrote conn secret sent rest mirror | writeFailed conn secret sent rest mirror =>
      subst rest mirror
      simp only [Op.redacted, blotted, List.length_drop, ρ.length_secret]

/-- Runs whose passphrases are exchanged make the same requests without them, by induction on the
first one.
-/
theorem Exchanged.redacted_trace {ρ : Renaming} {trace mirrored : Trace}
    (exchanged : List.Forall₂ (Exchanged ρ) trace mirrored)
    : mirrored.map (fun event => event.op.redacted)
      = trace.map fun event => event.op.redacted := by
  induction exchanged with
  | nil => rfl
  | cons event _ ih => rw [List.map_cons, List.map_cons, event.redacted, ih]

/-- Every event has its counterpart, by induction on the trace. -/
theorem Exchanged.exists_counterpart {ρ : Renaming} {trace mirrored : Trace}
    (exchanged : List.Forall₂ (Exchanged ρ) trace mirrored) {event : Event} (member : event ∈ trace)
    : ∃ other ∈ mirrored, Exchanged ρ event other := by
  induction exchanged with
  | nil => cases member
  | cons here _ ih =>
      rcases List.mem_cons.mp member with rfl | later
      · exact ⟨_, List.mem_cons_self, here⟩
      · obtain ⟨other, among, counterpart⟩ := ih later
        exact ⟨other, List.mem_cons_of_mem _ among, counterpart⟩

end Tpm2Autoenroll
