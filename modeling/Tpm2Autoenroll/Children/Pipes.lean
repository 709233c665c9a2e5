import Tpm2Autoenroll.Model.ChildRun

/-! A child process as its parent sees it: what it writes to each stream, how much of that was
read, and which calls the system answers how. Nothing is assumed of when it writes, of how much a
read returns or of what a poll reports.
-/

namespace Tpm2Autoenroll.Child

open Interaction Prog
open Buffering (Buffer)
open Text (Bytes)

/-- Everything that a child writes and how it exits, unless it is killed. -/
structure Behaviour where
  stdout : Bytes
  stderr : Bytes
  status : ExitStatus

def Behaviour.writes (b : Behaviour) : Handle → Bytes
  | .stdout => b.stdout
  | .stderr => b.stderr
  | .pidfd => []

/-- How much may be collected from each pipe. -/
def limit (cap : Nat) : Handle → Nat
  | .stdout => cap
  | .stderr => stderrCap
  | .pidfd => 0

/-- What became of a child so far. -/
structure Proc where
  /-- What has not been read yet. -/
  left : Handle → Bytes
  /-- Where end of file was reached. -/
  ended : Handle → Bool
  exited : Bool
  killed : Bool
  /-- The pipes that the last poll reported and that were not read since. -/
  due : List Handle
  /-- Whether a call failed that was not just interrupted. -/
  failed : Bool
  /-- The clock readings, the last one at the end. -/
  readings : List Nat

/-- The pipes that a poll reports. -/
def reported {fds : List Handle} (results : Fin fds.length → Bool) : List Handle :=
  [.stdout, .stderr].filter fun pipe => ∃ i, fds.get i = pipe ∧ results i = true

namespace Proc

/-- A child that nothing was read from. -/
def fresh (b : Behaviour) : Proc := ⟨b.writes, fun _ => false, false, false, [], false, []⟩

/-- A read of at most `room` bytes returned these. -/
def receive (s : Proc) (pipe : Handle) (room : Nat) (data : Bytes) : Proc where
  __ := s
  left := Function.update s.left pipe ((s.left pipe).drop data.length)
  ended := if data = [] ∧ 0 < room then Function.update s.ended pipe true else s.ended
  due := s.due.erase pipe

/-- A read failed. -/
def fail (s : Proc) (pipe : Handle) (e : Errno) : Proc where
  __ := s
  due := s.due.erase pipe
  failed := s.failed || e != .intr

/-- What there is to note of an event. -/
def note (s : Proc) : Interaction.Event Answer → Proc
  | ⟨.now, (reading : Nat)⟩ => { s with readings := s.readings ++ [reading] }
  | ⟨.poll _ _, .ok results⟩ => { s with due := reported results }
  | ⟨.read pipe into start, .ok data⟩ => s.receive pipe (into.length - start) data
  | ⟨.probe pipe, .ok data⟩ => s.receive pipe 1 data
  | ⟨.read pipe _ _, .error e⟩ => s.fail pipe e
  | ⟨.probe pipe, .error e⟩ => s.fail pipe e
  | ⟨.poll _ _, .error e⟩ => { s with failed := s.failed || e != .intr }
  | ⟨.spawn, .error _⟩ => { s with failed := true }
  | ⟨.pidfdOpen _, .error _⟩ => { s with failed := true }
  | ⟨.kill, _⟩ => { s with killed := true }
  | ⟨.wait, .error _⟩ => { s with failed := s.failed || !s.killed }
  | _ => s

/-- A read returns what comes next and nothing only at the end of file. -/
def Reads (s : Proc) (pipe : Handle) (room : Nat) (data : Bytes) : Prop :=
  data <+: s.left pipe ∧ (data = [] → 0 < room → s.left pipe = [])

/-- How the system answers, of a child that exits no later than now or has not exited. -/
def Truthful (b : Behaviour) (s : Proc) (exited : Bool) : Interaction.Event Answer → Prop
  | ⟨.spawn, .ok pid⟩ => 0 < pid
  | ⟨.poll fds _, .ok results⟩ => ∀ i, fds.get i = .pidfd → results i = true → exited = true
  | ⟨.read pipe into start, .ok data⟩ => s.Reads pipe (into.length - start) data
  | ⟨.probe pipe, .ok data⟩ => s.Reads pipe 1 data
  | ⟨.wait, .ok status⟩ => s.killed = false → status = b.status
  | _ => True

/-- Where a pipe is read. Each pipe that a poll reports is read before the next poll and no other,
and a buffer is as large as what may be collected.
-/
def Allows (cap : Nat) (s : Proc) : Call → Prop
  | .poll _ _ => s.due = []
  | .read pipe into _ => pipe ∈ s.due ∧ into.capacity = limit cap pipe
  | .probe pipe => pipe ∈ s.due
  | _ => True

end Proc

/-- The calls of one child, however they are answered. -/
def watch (b : Behaviour) (cap : Nat) : Monitor Answer Proc where
  allows s made := s.Allows cap made
  step s event after :=
    ∃ exited, (s.exited = true → exited = true) ∧ s.Truthful b exited event
      ∧ after = { s.note event with exited }

end Tpm2Autoenroll.Child
