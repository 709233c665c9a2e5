import Tpm2Autoenroll.Interaction.Programs
import Tpm2Autoenroll.Model.TpmWire

/-! Everything the daemon can ask of the machine it runs on: system calls, child processes,
TPM exchanges, the clock, the stop flag and the log. Each call is answered arbitrarily.
-/

namespace Tpm2Autoenroll

open Text (Bytes)

abbrev Fd := Nat

/-- The error codes the daemon distinguishes, and the text of any other. -/
inductive Errno
  | intr
  | again
  | noent
  | exist
  | pipe
  | noprotoopt
  | other (text : String)
  deriving DecidableEq

/-- How an error is displayed. -/
def Errno.display : Errno → String
  | .intr => "Interrupted system call (os error 4)"
  | .again => "Resource temporarily unavailable (os error 11)"
  | .noent => "No such file or directory (os error 2)"
  | .exist => "File exists (os error 17)"
  | .pipe => "Broken pipe (os error 32)"
  | .noprotoopt => "Protocol not available (os error 92)"
  | .other text => text

inductive FileType
  | directory
  | socket
  | blockDevice
  | characterDevice
  | other
  deriving DecidableEq

structure Stat where
  fileType : FileType
  uid : Nat
  mode : Nat
  deriving DecidableEq

/-- What `getpeername` reports: an abstract AF_UNIX name without its leading NUL, another
AF_UNIX address, or an address of another family.
-/
inductive PeerAddress
  | abstractName (name : Bytes)
  | unix
  | foreign
  deriving DecidableEq

structure Ucred where
  uid : Nat
  pid : Int
  deriving DecidableEq

/-- A passphrase. -/
structure Secret where
  bytes : Bytes
  deriving DecidableEq

/-- The backing device, opened once per plain-phase connection. -/
structure Device where
  fd : Fd
  /-- The configured path, for messages. Never handed to a child. -/
  name : String
  deriving DecidableEq

/-- A memfd holding a secret. -/
structure SecretFile where
  fd : Fd
  secret : Secret
  deriving DecidableEq

/-- A retry must not accept cached passphrases. -/
inductive Attempt
  | first
  | retry
  deriving DecidableEq

/-- `child::fd_path`. -/
def fdPath (fd : Fd) : String := s!"/proc/self/fd/{fd}"

/-- The child processes the daemon runs, by the place that runs them and what its command
line is built from. `Child.argv` is that command line.
-/
inductive Child
  /-- `token::read`. -/
  | luksDump (device : Device)
  /-- `luks::test_passphrase`. -/
  | testPassphrase (device : Device) (key : SecretFile)
  /-- `askpw::ask`. -/
  | askPassword (volume device : String) (attempt : Attempt)
  /-- `consent::ask`. -/
  | askConsent (volume device : String) (pcrs : List UInt8) (bank : Tpm2.Bank)
  /-- `enroll::run`. -/
  | cryptenroll (device : Device) (tpm2Device : String) (pcrs : List UInt8) (bank : Tpm2.Bank)
    (key : SecretFile)
  /-- `enroll::test_unseal`. -/
  | testUnseal (device : Device) (tokenIndex : UInt32)
  deriving DecidableEq

/-- `std::process::ExitStatus`: the exit code unless a signal ended the process, and how
the status is displayed.
-/
structure ExitStatus where
  code : Option Int
  display : String
  deriving DecidableEq

def ExitStatus.success (status : ExitStatus) : Bool := status.code == some 0

/-- `child::Output`. -/
structure Output where
  status : ExitStatus
  stdout : Bytes
  stderr : Bytes
  deriving DecidableEq

/-- One command written to the TPM device and what came back. -/
inductive TpmAnswer
  | writeFailed (error : String)
  | timeout
  | pollFailed (error : String)
  | readFailed (error : String)
  | response (buf : Bytes)
  deriving DecidableEq

/-- The log lines, each by its message and the values it is formatted from. -/
inductive LogLine
  -- Starting and stopping.
  | failed (error : String)
  | volumeRejected (why : String)
  | noUsableVolumes (config : String)
  | validVolume (volume device pcrs bank tpm2Device : String)
  | serving (volume device path : String)
  | couldNotListen (volume path error : String)
  | notOurSocket (path : String)
  | couldNotRemove (path error volume : String)
  | removedLeftover (path : String)
  | finished (why : String)
  | askedToStop
  | pollFailed (error : Errno)
  | acceptFailed (volume : String) (error : Errno)
  -- Connections.
  | unnamedPeer (volume : String)
  | getpeernameFailed (volume : String) (error : Errno)
  | notUnixPeer (volume : String)
  | notAbstractPeer (volume : String)
  | unparseablePeer (volume : String) (name : Bytes)
  | otherVolume (volume : String) (asked : Bytes)
  | peerRefused (volume why : String)
  | phaseDeclined (volume phase : String)
  | plainPhase (volume : String)
  | cannotOpenDevice (volume error : String)
  | noPassphrase (volume : String)
  | returned (volume : String)
  | couldNotWrite (volume : String) (error : Errno)
  -- Passphrases.
  | tryingCached (volume : String) (count : Nat)
  | stoppedBeforeCached (volume : String)
  | answeredFromCache (volume : String)
  | cannotCheck (volume path why : String)
  | stoppedBeforePrompt (volume : String)
  | couldNotAcquire (volume error : String)
  | stoppedBeforeCandidate (volume : String)
  | didNotUnlock (volume path : String) (attempt : Nat)
  -- Re-enrollment.
  | leavingHeader (volume why : String)
  | tpmResponsive (volume : String) (counter maxAuthFail : UInt32)
  | noBindingYet (volume : String)
  | bindingStale (volume enrolled state : String)
  | pcrIsNow (volume : String) (pcr : UInt8) (hex : String)
  | couldNotReadPcrs (volume error : String)
  | consentExited (volume : String) (status : ExitStatus)
  | consentFailed (volume error : String)
  | alwaysReenroll (volume : String)
  | enrollmentFailed (volume error : String)
  | headerNotReread (volume error : String)
  | newTokenUnidentified (volume : String)
  | enrolledWrongly (volume : String) (index : UInt32) (why : String)
  | verifiedByUnsealing (volume : String) (index : UInt32)
  | noUnsealAvailable (volume error : String)
  | verifiedByPolicy (volume : String) (index : UInt32)
  | policyNotVerified (volume : String) (index : UInt32) (why : String)
  | couldNotFlush (session : UInt32) (error : String)
  deriving DecidableEq

/-- One request to the machine. -/
inductive Op
  -- The process itself.
  | terminating
  | now
  | log (line : LogLine)
  | lockMemory
  | setUndumpable
  | catchSigterm
  | notifyReady
  -- Files.
  | readFile (path : String)
  | readLink (path : String)
  | readDir (path : String)
  | symlinkMetadata (path : String)
  | openFile (path : String) (write : Bool)
  | fstat (fd : Fd)
  | mkdir (path : String) (mode : Nat)
  | chmod (path : String) (mode : Nat)
  | lstat (path : String)
  | unlink (path : String)
  -- Sockets.
  | socketAddr (path : String)
  | socket
  | bind (fd : Fd) (path : String)
  | listen (fd : Fd) (backlog : Nat)
  | poll (fds : List Fd)
  | accept (fd : Fd)
  | getpeername (fd : Fd)
  | peercred (fd : Fd)
  | peerPidfd (fd : Fd)
  | pidfdSignal (fd : Fd)
  | write (fd : Fd) (buf : Bytes)
  | close (fd : Fd)
  -- Secrets, children and the TPM.
  | secretFile (secret : Secret)
  | child (process : Child)
  | tpm (fd : Fd) (cmd : Bytes)
  deriving DecidableEq

/-- What each request is answered with. A write accepts at most what it was given, and a
poll reports on exactly the descriptors it was given.
-/
def Res : Op → Type
  | .terminating => Bool
  | .now => Nat
  | .log _ | .lockMemory | .setUndumpable | .catchSigterm | .notifyReady | .close _ => Unit
  | .readFile _ | .readLink _ => Except String String
  | .readDir _ => Except String (List String)
  | .symlinkMetadata _ => Bool
  | .openFile _ _ => Except String Fd
  | .fstat _ => Except String FileType
  | .mkdir _ _ | .chmod _ _ | .unlink _ | .socketAddr _ | .bind _ _ | .listen _ _
  | .pidfdSignal _ => Except Errno Unit
  | .lstat _ => Except Errno Stat
  | .socket | .accept _ | .peerPidfd _ => Except Errno Fd
  | .poll fds => Except Errno (Fin fds.length → Bool)
  | .getpeername _ => Except Errno (Option PeerAddress)
  | .peercred _ => Except Errno Ucred
  | .write _ buf => Except Errno (Fin (buf.length + 1))
  | .secretFile _ => Except String Fd
  | .child _ => Except String Output
  | .tpm _ _ => TpmAnswer

/-- A program of the daemon. -/
abbrev Sys := Interaction.Prog Res

abbrev Event := Interaction.Event Res

abbrev Trace := Interaction.Trace Res

/-- A program that can fail the way a `Result<_, String>` does. -/
abbrev SysE := ExceptT String Sys

/-- Issue one request. -/
def ask (op : Op) : Sys (Res op) := Interaction.Prog.perform op

def log (line : LogLine) : Sys Unit := ask (.log line)

/-- Whether a stop has been asked for. -/
def terminating : Sys Bool := ask .terminating

@[simp]
theorem ask_eq (op : Op) : ask op = .call op pure := rfl

@[simp]
theorem log_eq (line : LogLine) : log line = .call (.log line) pure := rfl

@[simp]
theorem terminating_eq : terminating = .call .terminating pure := rfl

end Tpm2Autoenroll
