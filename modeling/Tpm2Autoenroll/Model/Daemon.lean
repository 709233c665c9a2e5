import Tpm2Autoenroll.Model.Connection
import Tpm2Autoenroll.Model.Sockets

/-! The daemon of `main.rs`: its start, the accept loop and the ways it takes its sockets
away again, with the two subcommands.
-/

namespace Tpm2Autoenroll

-----------------------------------------------------------------------------------------
-- Configuration
-----------------------------------------------------------------------------------------

/-- One line for each item. -/
def logEach {α : Type} (line : α → LogLine) : List α → Sys Unit
  | [] => return
  | item :: rest => do
      log (line item)
      logEach line rest

namespace Config

/-- `config::read`. -/
def read (fromStr : Json.Reader) (path : String) : Sys (Except String Loaded) := do
  match ← ask (.readFile path) with
  | .error e => return .error s!"{path}: {e}"
  | .ok text => return (parse fromStr text).mapError fun e => s!"{path}: {e}"

/-- `config::load`: every volume that passed validation. -/
def load (fromStr : Json.Reader) (path : String) : Sys (Except String (List Volume)) := do
  match ← read fromStr path with
  | .error e => return .error e
  | .ok loaded =>
      logEach .volumeRejected loaded.rejected
      return .ok loaded.volumes

end Config

-----------------------------------------------------------------------------------------
-- Listening
-----------------------------------------------------------------------------------------

structure Listener where
  fd : Fd
  path : String
  volume : Volume

inductive ExitCode
  | success
  | failure
  deriving DecidableEq

/-- The loop of `listen`: a volume whose socket cannot be created is dropped. -/
def listenAll (dir : String) : List Volume → Sys (List Listener)
  | [] => return []
  | volume :: rest => do
      let path := Sockets.path dir volume.name
      match ← Sockets.bind path with
      | .ok fd => return ⟨fd, path, volume⟩ :: (← listenAll dir rest)
      | .error e =>
          log (.couldNotListen volume.name path e)
          listenAll dir rest

/-- `listen`: bind one socket per volume. -/
def listen (dir : String) (volumes : List Volume) : Sys (Except String (List Listener)) := do
  match ← Sockets.ensureDir dir with
  | .error e => return .error e
  | .ok () =>
      let listeners ← listenAll dir volumes
      if listeners.length = 0 then
        return .error "no usable listening sockets"
      else
        return .ok listeners

/-- `shutdown`: take the sockets back out of the filesystem. -/
def shutdown : List Listener → Sys Unit
  | [] => return
  | l :: rest => do
      match ← Sockets.clear l.path with
      | .ok .kept => log (.notOurSocket l.path)
      | .ok _ => pure ()
      | .error e => log (.couldNotRemove l.path e l.volume.name)
      shutdown rest

/-- The loop of `clear_sockets`, with whether a socket was stuck so far. -/
def clearAll (dir : String) : List Volume → Bool → Sys Bool
  | [], stuck => return stuck
  | volume :: rest, stuck => do
      let path := Sockets.path dir volume.name
      match ← Sockets.clear path with
      | .ok .absent => clearAll dir rest stuck
      | .ok .removed =>
          log (.removedLeftover path)
          clearAll dir rest stuck
      | .ok .kept =>
          log (.notOurSocket path)
          clearAll dir rest stuck
      | .error e =>
          log (.couldNotRemove path e volume.name)
          clearAll dir rest true

/-- `clear_sockets`: `shutdown` for a daemon that did not get to run it. -/
def clearSockets (fromStr : Json.Reader) (config dir : String) : Sys ExitCode := do
  match ← Config.read fromStr config with
  | .error e =>
      log (.failed e)
      return .failure
  | .ok loaded =>
      if ← clearAll dir loaded.volumes false then return .failure else return .success

-----------------------------------------------------------------------------------------
-- Serving
-----------------------------------------------------------------------------------------

/-- The variables of `serve`. -/
structure ServeState where
  memory : Memory
  served : Finset String
  lastContact : Nat

namespace Serve

/-- `IDLE_LIMIT`, in nanoseconds as the clock is read. -/
def idleLimit : Nat := 300 * 1000000000

/-- Whether every volume has been answered or is open, asking about the next one only
while the answer is yes.
-/
def allDone (served : Finset String) : List String → Sys Bool
  | [] => return true
  | volume :: rest => do
      if volume ∈ served then
        allDone served rest
      else
        let opened ← Dm.isActive Dm.sysBlock volume
        if opened then allDone served rest else return false

/-- `finished`: why the daemon can stop, if it can. -/
def finished (volumes : List String) (served : Finset String) (idle : Nat)
    : Sys (Option String) := do
  if ← allDone served volumes then
    return some "every configured volume is open or has been answered"
  else if idle ≥ idleLimit then
    return some "no connection for 300 seconds"
  else
    return none

/-- The listeners that a poll reported on, in order. -/
def ready (listeners : List Listener) (woken : Fin (listeners.map Listener.fd).length → Bool)
    : List Listener :=
  ((List.finRange listeners.length).filter fun i => woken (i.cast (by simp))).map listeners.get

/-- Accept one connection and answer it. -/
def acceptOne (setup : Setup) (l : Listener) (state : ServeState) : Sys ServeState := do
  match ← ask (.accept l.fd) with
  | .ok conn =>
      let (counted, memory) ← handle setup conn l.volume state.memory
      if counted then
        let lastContact ← ask .now
        return { memory, served := insert l.volume.name state.served, lastContact }
      else
        return { state with memory }
  | .error .intr => return state
  | .error .again => return state
  | .error e =>
      log (.acceptFailed l.volume.name e)
      return state

/-- The loop over the ready listeners. -/
def serveReady (setup : Setup) : List Listener → ServeState → Sys (ServeState × Option ExitCode)
  | [], state => return (state, none)
  | l :: more, state => do
      let state ← acceptOne setup l state
      if ← terminating then
        log .askedToStop
        return (state, some .success)
      else
        serveReady setup more state

/-- One trip round the accept loop, and the exit code if it was the last. -/
def serveRound (setup : Setup) (listeners : List Listener) (state : ServeState)
    : Sys (ServeState × Option ExitCode) := do
  let now : Nat ← ask .now
  let names := listeners.map fun l => l.volume.name
  match ← finished names state.served (now - state.lastContact) with
  | some why =>
      log (.finished why)
      return (state, some .success)
  | none =>
      let woken ← ask (.poll (listeners.map Listener.fd))
      if ← terminating then
        log .askedToStop
        return (state, some .success)
      else
        match woken with
        | .error .intr => return (state, none)
        | .error e =>
            log (.pollFailed e)
            return (state, some .failure)
        | .ok bits => serveReady setup (ready listeners bits) state

/-- The accept loop over a number of trips; `none` while it is still serving. -/
def serveLoop (setup : Setup) (listeners : List Listener)
    : Nat → ServeState → Sys (ServeState × Option ExitCode)
  | 0, state => return (state, none)
  | rounds + 1, state => do
      match ← serveRound setup listeners state with
      | (state, some code) => return (state, some code)
      | (state, none) => serveLoop setup listeners rounds state

end Serve

/-- `serve`: accept and answer connections until `finished` says the daemon is no longer
needed. The loop is observed for a number of trips, as many as one likes.
-/
def serve (setup : Setup) (rounds : Nat) (listeners : List Listener) : Sys ExitCode := do
  let lastContact ← ask .now
  match ← Serve.serveLoop setup listeners rounds ⟨.new, ∅, lastContact⟩ with
  | (_, some code) => return code
  | (_, none) => .pending

-----------------------------------------------------------------------------------------
-- The process
-----------------------------------------------------------------------------------------

inductive Mode
  | serve
  | checkConfig
  | clearSockets
  deriving DecidableEq

structure Args where
  mode : Mode
  config : String
  socketDir : String
  deriving DecidableEq

namespace Args

/-- The loop of `parse_from` over the flags. -/
def addFlags (args : Args) : List String → Except String Args
  | [] => .ok args
  | arg :: rest =>
      let name := arg.toList.takeWhile (· != '=')
      match arg.toList.dropWhile (· != '=') with
      | [] => .error s!"unrecognised argument {Text.debug arg}"
      | _ :: value =>
          if value = [] then .error s!"{String.ofList name}= needs a path"
          else if name = "--config".toList then
            { args with config := String.ofList value }.addFlags rest
          else if name = "--socket-dir".toList then
            if args.mode ≠ .checkConfig then
              { args with socketDir := String.ofList value }.addFlags rest
            else .error "check-config takes only --config="
          else .error s!"unrecognised argument {Text.debug arg}"

/-- `parse_from`: a leading word rather than a flag is a subcommand. -/
def parseFrom (argv : List String) : Except String Args :=
  let start : Args := ⟨.serve, Config.defaultPath, Sockets.defaultDir⟩
  match argv with
  | [] => .ok start
  | first :: flags =>
      if Text.startsWith first '-' then start.addFlags argv
      else if first = "check-config" then { start with mode := .checkConfig }.addFlags flags
      else if first = "clear-sockets" then { start with mode := .clearSockets }.addFlags flags
      else .error s!"unrecognised subcommand {Text.debug first}"

end Args

/-- `check_config`: validate a config file and say what it amounts to. -/
def checkConfig (fromStr : Json.Reader) (path : String) : Sys ExitCode := do
  match ← Config.read fromStr path with
  | .error e =>
      log (.failed e)
      return .failure
  | .ok loaded =>
      logEach (fun why => .failed s!"{path}: {why}") loaded.rejected
      if loaded.rejected ≠ [] then
        return .failure
      else if loaded.volumes = [] then
        log (.failed s!"{path}: no volumes, so the daemon would have nothing to serve")
        return .failure
      else
        logEach
          (fun v =>
            .validVolume v.name v.device (Config.pcrList v.pcrs.list) v.bank.name v.tpm2Device)
          loaded.volumes
        return .success

/-- The serve mode of `main` up to its listeners, or the exit code it ends with. -/
def start (fromStr : Json.Reader) (config socketDir : String)
    : Sys (Except ExitCode (List Listener)) := do
  ask .lockMemory
  ask .setUndumpable
  ask .catchSigterm
  match ← Config.load fromStr config with
  | .error e =>
      log (.failed e)
      return .error .failure
  | .ok volumes =>
      if volumes = [] then
        log (.noUsableVolumes config)
        ask .notifyReady
        return .error .success
      else
        match ← listen socketDir volumes with
        | .error e =>
            log (.failed e)
            return .error .failure
        | .ok listeners =>
            logEach (fun l => .serving l.volume.name l.volume.device l.path) listeners
            ask .notifyReady
            return .ok listeners

/-- The serve mode of `main`. -/
def daemon (setup : Setup) (rounds : Nat) (config socketDir : String) : Sys ExitCode := do
  match ← start setup.fromStr config socketDir with
  | .error code => return code
  | .ok listeners =>
      let code ← serve setup rounds listeners
      shutdown listeners
      return code

/-- `main`. Printing the version touches nothing else. -/
def main (setup : Setup) (rounds : Nat) (argv : List String) : Sys ExitCode :=
  if argv.contains "--version" then
    return .success
  else
    match Args.parseFrom argv with
    | .error e => do
        log (.failed e)
        return .failure
    | .ok args =>
        match args.mode with
        | .checkConfig => checkConfig setup.fromStr args.config
        | .clearSockets => clearSockets setup.fromStr args.config args.socketDir
        | .serve => daemon setup rounds args.config args.socketDir

example : Args.parseFrom ["clear-sockets", "--config=/tmp/x.json"]
    = .ok ⟨.clearSockets, "/tmp/x.json", Sockets.defaultDir⟩ := by decide

end Tpm2Autoenroll
