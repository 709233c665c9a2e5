import Tpm2Autoenroll.Interaction.Fallible
import Tpm2Autoenroll.Model.System

/-! How a passphrase is handed to a child (`memfd.rs`): it is written to a memfd, which is wiped
before it is let go. The calls are those that the daemon makes on one memfd; to the rest of the
daemon making it is one request.
-/

namespace Tpm2Autoenroll.KeyFile

open Interaction
open Text (Bytes)

-----------------------------------------------------------------------------------------
-- The calls
-----------------------------------------------------------------------------------------

/-- A call that is made on a memfd, or with it. -/
inductive Call
  | memfdCreate
  /-- A write where the last one ended. -/
  | write (data : Bytes)
  | flush
  /-- A child that has inherited the memfd is run. -/
  | run
  /-- A write at a place of its own. -/
  | pwrite (data : Bytes) (start : Nat)
  | ftruncate (len : Nat)
  | close

/-- What a call is answered with. A write tells how much of what it was given it took. -/
def Answer : Call → Type
  | .memfdCreate => Except Errno Unit
  | .write data => Except Errno (Fin (data.length + 1))
  | .flush => Except Errno Unit
  | .run => Except String Output
  | .pwrite data _ => Except Errno (Fin (data.length + 1))
  | .ftruncate _ => Except Errno Unit
  | .close => Unit

abbrev Steps := Prog Answer

def call (c : Call) : Steps (Answer c) := Prog.perform c

-----------------------------------------------------------------------------------------
-- Writing
-----------------------------------------------------------------------------------------

/-- The loop of `write_all`. A round writes something or is interrupted. -/
def writeRounds : Nat → Bytes → Steps (Except Errno Unit)
  | _, [] => return .ok ()
  | 0, _ :: _ => .pending
  | rounds + 1, next :: later => do
      match ← call (.write (next :: later)) with
      | .ok n =>
          if n.val = 0 then return .error (.other "failed to write whole buffer")
          else writeRounds rounds ((next :: later).drop n.val)
      | .error .intr => writeRounds rounds (next :: later)
      | .error e => return .error e

/-- `write_all`, observed up to the given number of interruptions. -/
def writeAll (interruptions : Nat) (buf : Bytes) : Steps (Except Errno Unit) :=
  writeRounds (interruptions + buf.length) buf

/-- The `SecretFile` over the memfd: how much of it is to be wiped. -/
structure SecretFile where
  len : Nat

/-- `SecretFile::new`. The value that wipes the memfd is there only after all was written; before
that an error lets go of a plain file.
-/
def new (interruptions : Nat) (secret : Secret) : Steps (Except String SecretFile) := do
  match ← call .memfdCreate with
  | .error e => return .error s!"memfd_create: {e.display}"
  | .ok () =>
      match ← writeAll interruptions secret.bytes with
      | .error e =>
          let _ ← call .close
          return .error s!"writing the key to a memfd: {e.display}"
      | .ok () =>
          match ← call .flush with
          | .error e =>
              let _ ← call .close
              return .error s!"flushing the key to a memfd: {e.display}"
          | .ok () => return .ok ⟨secret.bytes.length⟩

-----------------------------------------------------------------------------------------
-- Wiping
-----------------------------------------------------------------------------------------

/-- What is written at a time. -/
def zeros : Bytes := List.replicate 4096 0

/-- The loop of `drop`, from a place on. -/
def wipe (len start : Nat) : Steps Unit := do
  if start < len then
    let n := min (len - start) zeros.length
    match ← call (.pwrite (zeros.take n) start) with
    | .error _ => return ()
    | .ok written =>
        if written.val = 0 then return ()
        else wipe len (start + written.val)
  else return ()
termination_by len - start

/-- `drop`, and the descriptor that is closed after it. -/
def SecretFile.drop (key : SecretFile) : Steps Unit := do
  wipe key.len 0
  let _ ← call (.ftruncate 0)
  let _ ← call .close

/-- What `test_passphrase` and `enroll::run` do with a passphrase: run a child with its memfd and
let go of that, whatever came of the child.
-/
def lend (interruptions : Nat) (secret : Secret) : Steps (Except String Output) := do
  match ← new interruptions secret with
  | .error e => return .error e
  | .ok key =>
      let out ← call .run
      key.drop
      return out

end Tpm2Autoenroll.KeyFile
