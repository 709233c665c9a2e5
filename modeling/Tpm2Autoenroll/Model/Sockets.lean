import Tpm2Autoenroll.Model.System

/-! The key sockets' place in the filesystem (`sockets.rs`) and whether a volume is already
open (`dm.rs`).
-/

namespace Tpm2Autoenroll

namespace Sockets

def defaultDir : String := "/run/cryptsetup-keys.d"

def backlog : Nat := 16

def path (dir volume : String) : String := s!"{dir}/{volume}.key"

/-- `check_existing`: a real directory, owned by `owner` and writable by nobody else. -/
def checkExisting (dir : String) (owner : Nat) : Sys (Except String Unit) := do
  match ← ask (.lstat dir) with
  | .error e => return .error s!"stat {dir}: {e.display}"
  | .ok stat =>
      if stat.fileType ≠ .directory then
        return .error s!"{dir} exists and is not a directory"
      else if stat.uid ≠ owner then
        return .error s!"{dir} is owned by uid {stat.uid}, expected {owner}"
      else if stat.mode &&& 0o022 ≠ 0 then
        let octal := String.ofList (Nat.toDigits 8 (stat.mode &&& 0o7777))
        return .error s!"{dir} has mode {octal}, which lets others write to it"
      else
        return .ok ()

def ensureDir (dir : String) : Sys (Except String Unit) := do
  match ← ask (.mkdir dir 0o700) with
  | .ok () =>
      -- mkdir's mode is masked by the umask.
      match ← ask (.chmod dir 0o700) with
      | .ok () => return .ok ()
      | .error e => return .error s!"chmod {dir}: {e.display}"
  | .error .exist => checkExisting dir 0
  | .error e => return .error s!"mkdir {dir}: {e.display}"

/-- What was at the path before `clear` ran. -/
inductive Cleared
  | absent
  | removed
  | kept
  deriving DecidableEq

/-- Only ever unlinks a socket. -/
def clear (path : String) : Sys (Except String Cleared) := do
  match ← ask (.lstat path) with
  | .error .noent => return .ok .absent
  | .error e => return .error s!"stat {path}: {e.display}"
  | .ok stat =>
      if stat.fileType ≠ .socket then
        return .ok .kept
      else
        match ← ask (.unlink path) with
        | .error e => return .error s!"unlink {path}: {e.display}"
        | .ok () => return .ok .removed

/-- The steps of `bind` once there is a socket; an early return drops it. -/
def bindAndListen (fd : Fd) (path : String) : Sys (Except String Fd) := do
  match ← ask (.bind fd path) with
  | .error e =>
      ask (.close fd)
      return .error s!"bind {path}: {e.display}"
  | .ok () =>
      match ← ask (.chmod path 0o600) with
      | .error e =>
          ask (.close fd)
          return .error s!"chmod {path}: {e.display}"
      | .ok () =>
          match ← ask (.listen fd backlog) with
          | .error e =>
              ask (.close fd)
              return .error s!"listen {path}: {e.display}"
          | .ok () => return .ok fd

/-- The steps of `bind` once nothing is in the way. -/
def create (path : String) : Sys (Except String Fd) := do
  match ← ask (.socketAddr path) with
  | .error e => return .error s!"{path}: {e.display}"
  | .ok () =>
      match ← ask .socket with
      | .error e => return .error s!"socket: {e.display}"
      | .ok fd => bindAndListen fd path

def bind (path : String) : Sys (Except String Fd) := do
  match ← clear path with
  | .error e => return .error e
  | .ok .kept => return .error s!"{path} exists and is not a socket; leaving it alone"
  | .ok _ => create path

end Sockets

namespace Dm

def sysBlock : String := "/sys/block"

/-- `trim_end_matches('\n')`. -/
def trimEndNewlines (text : List Char) : List Char :=
  (text.reverse.dropWhile (· == '\n')).reverse

/-- What a file holds, nothing when it cannot be read. -/
def readOrEmpty (path : String) : Sys (List Char) := do
  match ← ask (.readFile path) with
  | .ok text => return text.toList
  | .error _ => return []

/-- The scan of `is_active` over directory entries. -/
def anyActive (sysBlock volume : String) : List String → Sys Bool
  | [] => return false
  | entry :: rest => do
      if entry.toList.take 3 ≠ "dm-".toList then
        anyActive sysBlock volume rest
      else
        let name ← readOrEmpty s!"{sysBlock}/{entry}/dm/name"
        let uuid ← readOrEmpty s!"{sysBlock}/{entry}/dm/uuid"
        if trimEndNewlines name = volume.toList
            ∧ uuid.take 12 = "CRYPT-LUKS2-".toList then
          return true
        else
          anyActive sysBlock volume rest

/-- Whether a LUKS2 mapping of the volume's name exists. -/
def isActive (sysBlock volume : String) : Sys Bool := do
  match ← ask (.readDir sysBlock) with
  | .error _ => return false
  | .ok entries => anyActive sysBlock volume entries

end Dm

end Tpm2Autoenroll
