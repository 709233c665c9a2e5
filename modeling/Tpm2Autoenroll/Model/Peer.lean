import Tpm2Autoenroll.Model.System

/-! Who is on the other end of a connection: the abstract name systemd-cryptsetup binds
(`bindname.rs`) and the process behind it (`peer.rs`).
-/

namespace Tpm2Autoenroll

open Text (Bytes)

-----------------------------------------------------------------------------------------
-- Bind names
-----------------------------------------------------------------------------------------

namespace Bindname

/-- Which phase of systemd-cryptsetup's retry loop a connection belongs to. -/
inductive Phase
  | plain
  | tpm2
  | fido2Salt
  | pkcs11
  | unknown
  deriving DecidableEq

def Phase.asStr : Phase → String
  | .plain => "plain"
  | .tpm2 => "tpm2"
  | .fido2Salt => "fido2-salt"
  | .pkcs11 => "pkcs11"
  | .unknown => "unknown"

/-- The documented infixes, in the order they are tried. -/
def infixes : List (Bytes × Phase) :=
  [(Text.asBytes "/cryptsetup/", .plain), (Text.asBytes "/cryptsetup-tpm2/", .tpm2),
    (Text.asBytes "/cryptsetup-fido2-salt/", .fido2Salt),
    (Text.asBytes "/cryptsetup-pkcs11/", .pkcs11)]

structure PeerName where
  phase : Phase
  volume : Bytes
  deriving DecidableEq

/-- `u8::is_ascii_alphanumeric`. -/
def isAsciiAlphanumeric (b : UInt8) : Bool :=
  (0x30 ≤ b && b ≤ 0x39) || (0x41 ≤ b && b ≤ 0x5a) || (0x61 ≤ b && b ≤ 0x7a)

/-- The first documented infix that `rest` begins with, and what follows it. -/
def matchInfix (rest : Bytes) : List (Bytes × Phase) → Option (Phase × Bytes)
  | [] => none
  | (bytes, phase) :: more =>
      match rest.dropPrefix? bytes with
      | some volume => some (phase, volume)
      | none => matchInfix rest more

/-- Parse an abstract socket name without its leading NUL byte. -/
def parse (name : Bytes) : Option PeerName :=
  let random := name.takeWhile (· != 0x2f)
  let rest := name.dropWhile (· != 0x2f)
  if rest = [] then none
  else if random = [] ∨ ¬ random.all isAsciiAlphanumeric then none
  else
    match matchInfix rest infixes with
    | some (phase, volume) => if volume = [] then none else some ⟨phase, volume⟩
    | none =>
        -- The last component, for the log line.
        let volume := (rest.reverse.takeWhile (· != 0x2f)).reverse
        if volume = [] then none else some ⟨.unknown, volume⟩

end Bindname

-----------------------------------------------------------------------------------------
-- Peers
-----------------------------------------------------------------------------------------

namespace Peer

/-- `str::strip_prefix` over characters. -/
def stripStart (line start : List Char) : Option (List Char) :=
  line.dropPrefix? start

/-- The pid behind a pidfd, from its fdinfo. -/
def pidfdPid (fd : Fd) : Sys (Except String Int) := do
  let path := s!"/proc/self/fdinfo/{fd}"
  match ← ask (.readFile path) with
  | .error e => return .error s!"{path}: {e}"
  | .ok info =>
      let line := (Text.charLines info.toList).findSome? fun l => stripStart l "Pid:".toList
      match line.bind fun v => Text.parseI32 (Text.trimChars v) with
      | none => return .error s!"{path} has no Pid: line"
      | some pid =>
          if pid ≤ 0 then return .error "the peer has exited" else return .ok pid

/-- `peer_pidfd`: `none` on a kernel without SO_PEERPIDFD. -/
def peerPidfd (conn : Fd) : Sys (Except String (Option Fd)) := do
  match ← ask (.peerPidfd conn) with
  | .ok fd => return .ok (some fd)
  | .error .noprotoopt => return .ok none
  | .error e => return .error s!"SO_PEERPIDFD: {e.display}"

def alive (fd : Fd) : Sys (Except String Unit) := do
  match ← ask (.pidfdSignal fd) with
  | .ok () => return .ok ()
  | .error e => return .error s!"the peer is gone ({e.display})"

/-- The components of a path as `Path` compares them: separators do not count, nor do
`.` components after the first.
-/
def pathComponents (path : String) : List (List Char) :=
  match path.toList.splitOn '/' with
  | [] => []
  | first :: rest =>
      (if first = [] then (if rest = [] then [] else [['/']]) else [first])
        ++ rest.filter fun component => component ≠ [] ∧ component ≠ ['.']

/-- Whether a `/proc/<pid>/exe` link target is the binary we expect. -/
def isExpectedExe (expected link : String) : Bool :=
  pathComponents link = pathComponents expected

/-- Whether the unified-hierarchy line of a `/proc/<pid>/cgroup` ends in `unit`. -/
def inUnit (cgroup unit : String) : Bool :=
  match (Text.charLines cgroup.toList).findSome? fun l => stripStart l "0::".toList with
  | none => false
  | some path => (path.splitOn '/').getLast? == some unit.toList

/-- One byte of `unit_escape` after the first. -/
def unitEscapeByte (b : UInt8) : List Char :=
  if b = 0x2f then ['-']
  else if b = 0x2d ∨ b = 0x5c then ['\\', 'x'] ++ Text.hexByte b
  else if Bindname.isAsciiAlphanumeric b ∨ b = 0x3a ∨ b = 0x5f ∨ b = 0x2e then
    [Char.ofNat b.toNat]
  else ['\\', 'x'] ++ Text.hexByte b

/-- systemd's `unit_name_escape()`; a leading dot would make a hidden unit name. -/
def unitEscapeBytes : Bytes → List Char
  | [] => []
  | first :: rest =>
      (if first = 0x2e then ['\\', 'x', '2', 'e'] else unitEscapeByte first)
        ++ rest.flatMap unitEscapeByte

def unitEscape (s : String) : String := String.ofList (unitEscapeBytes (Text.asBytes s))

/-- The unit systemd runs for a volume. -/
def unitFor (volume : String) : String := s!"systemd-cryptsetup@{unitEscape volume}.service"

/-- The pid `check` judges: the pinned one where there is a pidfd. -/
def judgedPid (pidfd : Option Fd) (cred : Ucred) : Sys (Except String Int) :=
  match pidfd with
  | some fd => pidfdPid fd
  | none => return .ok cred.pid

/-- What `check` reads by pid: the cgroup has to be the volume's unit and the executable
systemd-cryptsetup.
-/
def judge (expected volume : String) (pid : Int) : Sys (Except String Unit) := do
  let cgroupPath := s!"/proc/{pid}/cgroup"
  match ← ask (.readFile cgroupPath) with
  | .error e => return .error s!"{cgroupPath}: {e}"
  | .ok cgroup =>
      if !inUnit cgroup (unitFor volume) then
        return .error s!"the peer (pid {pid}) is not in {unitFor volume}"
      else
        let exePath := s!"/proc/{pid}/exe"
        match ← ask (.readLink exePath) with
        | .error e => return .error s!"{exePath}: {e}"
        | .ok exe =>
            if !isExpectedExe expected exe then
              return .error s!"the peer (pid {pid}) runs {exe}, expected {expected}"
            else
              return .ok ()

/-- `peer::check`: the peer of `conn` is systemd-cryptsetup working on `volume`. -/
def check (expected : String) (conn : Fd) (volume : String) : Sys (Except String Unit) := do
  match ← ask (.peercred conn) with
  | .error e => return .error s!"SO_PEERCRED: {e.display}"
  | .ok cred =>
      if cred.uid ≠ 0 then
        return .error s!"the peer runs as uid {cred.uid}"
      else
        match ← peerPidfd conn with
        | .error e => return .error e
        | .ok pidfd =>
            match ← judgedPid pidfd cred with
            | .error e => return .error e
            | .ok pid =>
                match ← judge expected volume pid with
                | .error e => return .error e
                | .ok () =>
                    -- A live process behind the pidfd: its pid was not recycled meanwhile.
                    match pidfd with
                    | some fd => alive fd
                    | none => return .ok ()

example : unitEscape "luks-3f2a" = "luks\\x2d3f2a" := by decide +kernel

end Peer

end Tpm2Autoenroll
