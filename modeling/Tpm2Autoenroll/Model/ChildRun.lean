import Tpm2Autoenroll.Buffering.Buffers
import Tpm2Autoenroll.Interaction.Fallible
import Tpm2Autoenroll.Model.System

/-! How a child process is run (`child.rs`): its output is collected while it runs, and it is
killed when its deadline passes or it writes too much. The calls are those that the daemon makes
of one child; to the rest of the daemon they are one request.
-/

namespace Tpm2Autoenroll.Child

open Interaction
open Buffering (Buffer)
open Text (Bytes)

-----------------------------------------------------------------------------------------
-- The calls
-----------------------------------------------------------------------------------------

/-- What can be polled: the child itself and its pipes. -/
inductive Handle
  | pidfd
  | stdout
  | stderr
  deriving DecidableEq

/-- A call that is made while a child is run. -/
inductive Call
  | spawn
  | now
  | pidfdOpen (pid : Nat)
  | poll (fds : List Handle) (left : Nat)
  /-- A read into a buffer from a position on. -/
  | read (pipe : Handle) (into : Buffer UInt8) (start : Nat)
  /-- A read into a single byte of its own. -/
  | probe (pipe : Handle)
  | kill
  | wait

/-- What a call is answered with. A poll reports on exactly the descriptors it was given, and a
read gives no more than there is room for.
-/
def Answer : Call → Type
  | .spawn => Except Errno Nat
  | .now => Nat
  | .pidfdOpen _ => Except Errno Unit
  | .poll fds _ => Except Errno (Fin fds.length → Bool)
  | .read _ into start => Except Errno { data : Bytes // data.length ≤ into.length - start }
  | .probe _ => Except Errno { data : Bytes // data.length ≤ 1 }
  | .kill => Except Errno Unit
  | .wait => Except Errno ExitStatus

abbrev Steps := Prog Answer

/-- Steps that can fail the way a `Result<_, String>` does. -/
abbrev StepsE := Fallible Answer String

def call (c : Call) : Steps (Answer c) := Prog.perform c

/-- The command: its program, and which of its streams are piped. -/
structure Command where
  program : String
  stdout : Bool
  stderr : Bool

-----------------------------------------------------------------------------------------
-- Collecting
-----------------------------------------------------------------------------------------

/-- `STDERR_CAP`. -/
def stderrCap : Nat := 64 * 1024

/-- `CHUNK`. -/
def chunk : Nat := 64 * 1024

/-- `drain`: one read's worth. End of file closes the pipe. -/
def drain (pipe : Option Handle) (into : Buffer UInt8) (cap : Nat)
    : StepsE (Option Handle × Buffer UInt8) :=
  match pipe with
  | none => return (none, into)
  | some p => do
      let start := into.length
      if start = cap then
        -- Full, so any more is too much.
        match ← call (.probe p) with
        | .ok ⟨[], _⟩ => return (none, into)
        | .ok _ => throw s!"wrote more than {cap} bytes"
        | .error .intr => return (some p, into)
        | .error e => throw s!"reading from the child: {e.display}"
      else
        let into := into.resize (start + min (cap - start) chunk) 0
        match ← call (.read p into start) with
        | .ok ⟨[], _⟩ => return (none, into.truncate start)
        | .ok ⟨data, _⟩ => return (some p, (into.overwrite start data).truncate (start + data.length))
        | .error .intr => return (some p, into.truncate start)
        | .error e => throw s!"reading from the child: {e.display}"

/-- The variables of `collect`. -/
structure Collecting where
  exited : Bool
  stdoutPipe : Option Handle
  stderrPipe : Option Handle
  stdout : Buffer UInt8
  stderr : Buffer UInt8

namespace Collecting

/-- The descriptors that are polled. -/
def fds (c : Collecting) : List Handle :=
  (if c.exited then [] else [.pidfd]) ++ c.stdoutPipe.toList ++ c.stderrPipe.toList

/-- The next result, for a descriptor that was pushed, and those after it. -/
def next (pushed : Bool) (results : List Bool) : Bool × List Bool :=
  if pushed then (results.head? == some true, results.tail) else (false, results)

/-- What a poll reported on. -/
structure Ready where
  pid : Bool
  stdout : Bool
  stderr : Bool

/-- The results are walked in the order pushed, skipping whatever was not pushed. -/
def ready (c : Collecting) (results : Fin c.fds.length → Bool) : Ready :=
  let (pid, results) := next (!c.exited) (List.ofFn results)
  let (stdout, results) := next c.stdoutPipe.isSome results
  let (stderr, _) := next c.stderrPipe.isSome results
  { pid, stdout, stderr }

/-- Whether the loop is over. -/
def done (c : Collecting) : Bool := c.exited && c.stdoutPipe.isNone && c.stderrPipe.isNone

def drainStdout (c : Collecting) (cap : Nat) : StepsE Collecting := do
  let (stdoutPipe, stdout) ← drain c.stdoutPipe c.stdout cap
  return { c with stdoutPipe, stdout }

def drainStderr (c : Collecting) : StepsE Collecting := do
  let (stderrPipe, stderr) ← drain c.stderrPipe c.stderr stderrCap
  return { c with stderrPipe, stderr }

/-- Take in what was reported. -/
def take (c : Collecting) (ready : Ready) (cap : Nat) : StepsE Collecting := do
  let c := if ready.pid then { c with exited := true } else c
  let c ← (if ready.stdout then c.drainStdout cap else pure c)
  (if ready.stderr then c.drainStderr else pure c)

/-- One trip round the loop; `none` when the deadline has passed. -/
def turn (c : Collecting) (deadline cap : Nat) : StepsE (Option Collecting) := do
  let now : Nat ← call .now
  let left := deadline - now
  if left = 0 then
    return none
  else
    match ← call (.poll c.fds left) with
    | .error .intr => return some c
    | .error e => throw s!"poll: {e.display}"
    | .ok results => return some (← c.take (c.ready results) cap)

/-- The loop over a number of trips, as many as one likes. -/
def loop (deadline cap : Nat) : Nat → Collecting → StepsE (Option (Buffer UInt8 × Buffer UInt8))
  | 0, _ => ExceptT.mk .pending
  | trips + 1, c => do
      if c.done then
        return some (c.stdout, c.stderr)
      else
        match ← c.turn deadline cap with
        | none => return none
        | some c => loop deadline cap trips c

end Collecting

/-- `collect`: the output, or `none` when the deadline passed first. -/
def collect (cmd : Command) (pid timeout cap trips : Nat)
    : StepsE (Option (Buffer UInt8 × Buffer UInt8)) := do
  let now : Nat ← call .now
  let deadline := now + timeout
  if pid = 0 then
    throw "the child has no pid"
  else
    match ← call (.pidfdOpen pid) with
    | .error e => throw s!"pidfd_open: {e.display}"
    | .ok () =>
        Collecting.loop deadline cap trips {
          exited := false
          stdoutPipe := if cmd.stdout then some .stdout else none
          stderrPipe := if cmd.stderr then some .stderr else none
          stdout := .withCapacity cap
          stderr := .withCapacity stderrCap
        }

/-- `run`: spawn, collect what is piped, and kill what does not finish. -/
def run (cmd : Command) (timeout cap trips : Nat) : Steps (Except String Output) := do
  match ← call .spawn with
  | .error e => return .error s!"could not run {cmd.program}: {e.display}"
  | .ok pid =>
      match ← (collect cmd pid timeout cap trips).run with
      | .ok (some (stdout, stderr)) =>
          match ← call .wait with
          | .ok status => return .ok ⟨status, stdout.items, stderr.items⟩
          | .error e => return .error s!"waiting for {cmd.program}: {e.display}"
      | .ok none =>
          let _ ← call .kill
          let _ ← call .wait
          return .error <| s!"{cmd.program} did not finish within "
            ++ s!"{timeout / 1000000000} seconds, so it was killed"
      | .error e =>
          let _ ← call .kill
          let _ ← call .wait
          return .error s!"{cmd.program}: {e}"

end Tpm2Autoenroll.Child
