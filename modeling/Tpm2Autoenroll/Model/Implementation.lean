import Tpm2Autoenroll.Interaction.Handling
import Tpm2Autoenroll.Model.ChildRun
import Tpm2Autoenroll.Model.KeyFile

/-! The two requests that are programs of their own: making a memfd for a passphrase and running a
child. Here they are carried out, each as the place that makes it has it done.
-/

namespace Tpm2Autoenroll

open Interaction Prog

namespace Child

/-- The command of a child and which of its streams its place pipes. -/
def command (process : Child) : Command :=
  match process with
  | .luksDump _ => ⟨"cryptsetup", true, true⟩
  | .testPassphrase _ _ | .testUnseal _ _ => ⟨"cryptsetup", false, true⟩
  | .askPassword _ _ _ | .askConsent _ _ _ _ => ⟨"systemd-ask-password", true, false⟩
  | .cryptenroll _ _ _ _ _ => ⟨"systemd-cryptenroll", false, true⟩

/-- `TIMEOUT`, `ENROLL_TIMEOUT`, `UNSEAL_TIMEOUT`, and `PROMPT_TIMEOUT` with `PROMPT_GRACE`; in
nanoseconds.
-/
def timeout : Child → Nat
  | .luksDump _ => 30 * 1000000000
  | .testPassphrase _ _ | .testUnseal _ _ => 60 * 1000000000
  | .askPassword _ _ _ | .askConsent _ _ _ _ => (90 + 30) * 1000000000
  | .cryptenroll _ _ _ _ _ => 120 * 1000000000

/-- `MAX_JSON`, `MAX_OUTPUT` and the other bounds on what a child may write to its output. -/
def stdoutCap : Child → Nat
  | .luksDump _ => 16 * 1024 * 1024
  | .askPassword _ _ _ => 64 * 1024
  | .askConsent _ _ _ _ => 4096
  | .testPassphrase _ _ | .testUnseal _ _ | .cryptenroll _ _ _ _ _ => 0

/-- The memfd that its place attaches to a child, and lets go of after it. -/
def key : Child → Option SecretFile
  | .testPassphrase _ key | .cryptenroll _ _ _ _ key => some key
  | .luksDump _ | .askPassword _ _ _ | .askConsent _ _ _ _ | .testUnseal _ _ => none

end Child

/-- What the daemon does when its memfds and children are carried out. -/
inductive Action
  /-- Any other request. -/
  | request (op : Op)
  /-- A call on the memfd at hand. -/
  | memfd (made : KeyFile.Call)
  /-- The number of its descriptor. -/
  | fileno
  /-- A call made of a child. -/
  | child (process : Child) (made : Child.Call)

def Outcome : Action → Type
  | .request op => Res op
  | .memfd made => KeyFile.Answer made
  | .fileno => Fd
  | .child _ made => Child.Answer made

def act (action : Action) : Prog Outcome (Outcome action) := perform action

def onMemfd : Handler KeyFile.Answer Outcome := fun made => act (.memfd made)

def ofChild (process : Child) : Handler Child.Answer Outcome := fun made =>
  act (.child process made)

/-- How long the loops of one request are observed: over how many interrupted writes, and over how
many trips while a child runs.
-/
structure Patience where
  interruptions : Nat
  trips : Nat

/-- `child::run` as the place of this child calls it. -/
def Child.ran (process : Child) (patience : Patience) : Child.Steps (Except String Output) :=
  Child.run process.command process.timeout process.stdoutCap patience.trips

/-- The memfd of a child that is done with is let go of. -/
def Child.letGo (process : Child) : Prog Outcome Unit :=
  match process.key with
  | none => return ()
  | some key => (KeyFile.SecretFile.drop ⟨key.secret.bytes.length⟩).interpret onMemfd

/-- How each request is carried out. -/
def carryOutOp (patience : Patience) : Handler Res Outcome
  | .secretFile secret => do
      match ← (KeyFile.new patience.interruptions secret).interpret onMemfd with
      | .error e => return .error e
      | .ok _ =>
          let fd : Fd ← act .fileno
          return .ok fd
  | .child process => do
      let out ← (process.ran patience).interpret (ofChild process)
      process.letGo
      return out
  | op => act (.request op)

/-- A program of the daemon with its memfds and children carried out. -/
def implemented {α : Type} (patience : Patience) (program : Sys α) : Prog Outcome α :=
  program.interpret (carryOutOp patience)

end Tpm2Autoenroll
