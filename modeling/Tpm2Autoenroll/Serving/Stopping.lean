import Tpm2Autoenroll.Interaction.Driving
import Tpm2Autoenroll.Serving.Rules

/-! Stopping: what the daemon still does once the stop flag is set, wherever that happens, and
that it then comes to an end.
-/

namespace Tpm2Autoenroll

open Interaction Prog Monitor
open Text (Bytes)

/-- The stop flag and the connection being answered: its descriptor, what is still to be written
of a passphrase whose trial the flag overtook, and how often a write was interrupted.
-/
structure StopState where
  stopped : Bool
  conn : Option Fd
  owed : Option Bytes
  interrupted : Nat

namespace StopState

def start : StopState := ⟨false, none, none, 0⟩

/-- What is owed when that much is left of a passphrase. -/
def owe (rest : Bytes) : Option Bytes := if rest = [] then none else some rest

/-- The flag may be set in the meantime. -/
def Waits (s after : StopState) : Prop := after = s ∨ after = { s with stopped := true }

/-- The trial that was running when the flag was set. -/
def overtaken (s : StopState) (secret : Secret) (out : Output) : StopState where
  stopped := true
  conn := s.conn
  owed := if Luks.verdict out = .correct then owe secret.bytes else s.owed
  interrupted := s.interrupted

/-- The flag is set while the daemon waits for something outside, and never cleared. A write
that is refused settles what was owed as one that is complete does.
-/
def Step (s : StopState) (event : Event) (after : StopState) : Prop :=
  match event with
  | ⟨.terminating, answer⟩ => answer = s.stopped ∧ after = s
  | ⟨.poll _, _⟩ => s.Waits after
  | ⟨.tpm _ _, _⟩ => s.Waits after
  | ⟨.child (.testPassphrase _ key), .ok out⟩ =>
      after = s ∨ s.stopped = false ∧ after = s.overtaken key.secret out
  | ⟨.child _, _⟩ => s.Waits after
  | ⟨.accept _, .ok conn⟩ => after = ⟨s.stopped, some conn, none, 0⟩
  | ⟨.write _ _, .ok n⟩ =>
      after = { s with owed := if n.val = 0 then none else s.owed.bind (owe <| ·.drop n.val) }
  | ⟨.write _ _, .error .intr⟩ => after = { s with interrupted := s.interrupted + 1 }
  | ⟨.write _ _, .error _⟩ => after = { s with owed := none }
  | _ => after = s

end StopState

/-- What must not be started once the flag is set. -/
def Op.starts : Op → Prop
  | .poll _ | .accept _ => True
  | .child (.askPassword _ _ _) | .child (.testPassphrase _ _) => True
  | .child (.askConsent _ _ _ _) | .child (.cryptenroll _ _ _ _ _) => True
  | _ => False

namespace Stopping

/-- Once the flag is set nothing is started; what is owed is what is written to the connection,
and it is settled before that is closed. The daemon is left pending only without the flag, or
after more interrupted writes than are observed.
-/
def watch (interruptions : Nat) : Monitor Res StopState where
  allows s op :=
    (op.starts → s.stopped = false)
    ∧ match op with
      | .write fd buf => ∀ rest, s.owed = some rest → s.conn = some fd ∧ buf = rest
      | .close _ => s.owed = none
      | _ => True
  step := StopState.Step
  stalls s := s.stopped = false ∨ interruptions < s.interrupted

/-- Requests that neither start anything nor touch what is owed. -/
@[simp]
def calm : Op → Prop
  | .write _ _ | .close _ => False
  | op => ¬ op.starts

/-- Inside a connection, with that much owed and no write made yet. -/
structure At (conn : Fd) (owed : Option Bytes) (s : StopState) : Prop where
  conn : s.conn = some conn
  owed : s.owed = owed
  interrupted : s.interrupted = 0

variable {interruptions : Nat} {conn : Fd} {owed : Option Bytes} {s : StopState}

theorem At.waits {after : StopState} (here : At conn owed s) (waits : s.Waits after)
    : At conn owed after := by
  rcases waits with same | same
  · rw [same]
    exact here
  · rw [same]
    exact ⟨here.conn, here.owed, here.interrupted⟩

theorem allows_of_calm {op : Op} (quiet : calm op) : (watch interruptions).allows s op := by
  cases op with
  | write fd buf => exact quiet.elim
  | close fd => exact quiet.elim
  | _ => exact ⟨fun starts => absurd starts quiet, trivial⟩

theorem At.step {op : Op} {answer : Res op} {after : StopState} (here : At conn owed s)
    (quiet : calm op) (step : s.Step ⟨op, answer⟩ after)
    : At conn owed after := by
  cases op with
  | terminating =>
      rw [show after = s from step.2]
      exact here
  | poll fds => exact absurd trivial quiet
  | accept fd => exact absurd trivial quiet
  | write fd buf => exact quiet.elim
  | close fd => exact quiet.elim
  | tpm fd cmd => exact here.waits step
  | child process =>
      cases process with
      | luksDump device => exact here.waits step
      | testUnseal device index => exact here.waits step
      | _ => exact absurd trivial quiet
  | _ =>
      rw [show after = s from step]
      exact here

/-- A log line, and what follows it. -/
theorem logged_wp {α : Type} {line : LogLine} {next : Unit → Sys α}
    {post : α → StopState → Prop} (goOn : wp (watch interruptions) (next ()) post s)
    : wp (watch interruptions) (.call (.log line) next) post s := by
  refine wp_ask ⟨nofun, trivial⟩ fun _ after step => ?_
  rw [show after = s from step]
  exact goOn

/-- A part that neither starts anything nor writes. -/
theorem calm_wp {α : Type} {program : Sys α} (only : program.Only calm)
    (here : At conn owed s)
    : wp (watch interruptions) program (fun _ after => At conn owed after) s :=
  wp_invariant only nofun (fun _ _ quiet _ => allows_of_calm quiet)
    (fun _ _ _ _ quiet here step => here.step quiet step) here

/-- A stop check: what follows a no starts from a state without the flag. -/
theorem check_wp {α : Type} {stop go : Sys α} {post : α → StopState → Prop}
    (stopping : wp (watch interruptions) stop post s)
    (going : s.stopped = false → wp (watch interruptions) go post s)
    : wp (watch interruptions) (do if ← terminating then stop else go) post s := by
  refine wp_ask ⟨nofun, trivial⟩ fun answer after step => ?_
  obtain ⟨shown, same⟩ := step
  rw [same]
  cases answer with
  | true => exact stopping
  | false => exact going shown.symm

-----------------------------------------------------------------------------------------
-- Finding a passphrase
-----------------------------------------------------------------------------------------

/-- What a trial of a secret leaves owed. -/
def Tried (conn : Fd) (secret : Secret) (after : StopState) : Luks.Verdict → Prop
  | .correct => At conn none after ∨ At conn (StopState.owe secret.bytes) after
  | _ => At conn none after

theorem Tried.waits {secret : Secret} {out : Output} {after : StopState}
    (here : At conn none s)
    (step : after = s ∨ s.stopped = false ∧ after = s.overtaken secret out)
    : Tried conn secret after (Luks.verdict out) := by
  rcases step with same | ⟨_, same⟩
  · rw [same]
    cases Luks.verdict out with
    | correct => exact Or.inl here
    | wrong | unusable => exact here
  · rw [same]
    have owed := here.owed
    cases verdict : Luks.verdict out with
    | correct => exact Or.inr ⟨here.conn, by simp [StopState.overtaken, verdict], here.interrupted⟩
    | wrong | unusable =>
        exact ⟨here.conn, by simp [StopState.overtaken, verdict, owed], here.interrupted⟩

/-- A passphrase is tried only without the flag. -/
theorem testPassphrase_wp {device : Device} {secret : Secret} (here : At conn none s)
    (going : s.stopped = false)
    : wp (watch interruptions) (Luks.testPassphrase device secret)
        (fun verdict after => Tried conn secret after verdict) s := by
  refine wp_ask ⟨nofun, trivial⟩ fun made after step => ?_
  obtain rfl : after = s := step
  cases made with
  | error e => exact here
  | ok fd =>
      refine wp_ask ⟨fun _ => going, trivial⟩ fun output last step => ?_
      cases output with
      | error e => exact here.waits step
      | ok out => exact Tried.waits here step

/-- What a stretch of trials leaves owed. -/
def Settles (conn : Fd) (result : Trials) (after : StopState) : Prop :=
  match result with
  | .found secret => At conn none after ∨ At conn (StopState.owe secret.bytes) after
  | _ => At conn none after

/-- Every trial comes after a stop check, by induction on the passphrases. -/
theorem tryEach_wp {config : Volume} {device : Device} {stopped : LogLine}
    {answered : Option LogLine} {secrets : List Secret} (here : At conn none s)
    : wp (watch interruptions) (Acquire.tryEach config device stopped answered secrets)
        (Settles conn) s := by
  induction secrets generalizing s with
  | nil => exact here
  | cons secret rest ih =>
      refine check_wp ?_ fun going => ?_
      · exact logged_wp here
      · refine wp_then (testPassphrase_wp here going) fun verdict after tried => ?_
        cases verdict with
        | correct =>
            cases answered with
            | none => exact tried
            | some line => exact logged_wp tried
        | wrong => exact ih tried
        | unusable why => exact logged_wp tried

/-- Every prompt comes after a stop check, by induction on the attempts. -/
theorem tryPrompts_wp {config : Volume} {device : Device} {attempts : List Nat}
    (here : At conn none s)
    : wp (watch interruptions) (Acquire.tryPrompts config device attempts) (Settles conn) s := by
  induction attempts generalizing s with
  | nil => exact here
  | cons attempt more ih =>
      refine check_wp (logged_wp here) fun going => ?_
      have asked : wp (watch interruptions)
          (Askpw.ask config.name config.device
            (if attempt = 0 then .first else .retry))
          (fun _ after => At conn none after) s := by
        refine wp_ask ⟨fun _ => going, trivial⟩ fun output after step => ?_
        have still := here.waits step
        cases output with
        | error e => exact still
        | ok out =>
            dsimp only
            split_ifs <;> exact still
      refine wp_then asked fun result after still => ?_
      cases result with
      | error e => exact logged_wp still
      | ok candidates =>
          refine wp_then (tryEach_wp still) fun trials last settles => ?_
          cases trials with
          | found secret => exact settles
          | abandoned => exact settles
          | exhausted => exact logged_wp (ih settles)

/-- What `acquire` leaves owed. -/
def Acquired (conn : Fd) (result : Option Secret × Cache) (after : StopState) : Prop :=
  match result.1 with
  | some secret => At conn none after ∨ At conn (StopState.owe secret.bytes) after
  | none => At conn none after

theorem acquire_wp {config : Volume} {device : Device} {cache : Cache} (here : At conn none s)
    : wp (watch interruptions) (acquire config device cache) (Acquired conn) s := by
  have searching {now : StopState} (here : At conn none now)
      : wp (watch interruptions) (Acquire.search config device cache) (Acquired conn) now := by
    refine wp_then (tryEach_wp here) fun trials after settles => ?_
    cases trials with
    | found secret => exact settles
    | abandoned => exact settles
    | exhausted =>
        refine wp_then (tryPrompts_wp settles) fun trials last settles => ?_
        cases trials with
        | found secret => exact settles
        | abandoned => exact settles
        | exhausted => exact settles
  unfold acquire
  split_ifs
  · exact logged_wp (searching here)
  · exact searching here

-----------------------------------------------------------------------------------------
-- Repairing
-----------------------------------------------------------------------------------------

theorem calm_of_inspecting {op : Op} (inspecting : op.inspecting) : calm op := by
  unfold Op.inspecting at inspecting
  split at inspecting
  all_goals first | exact inspecting.elim | exact id

theorem calm_of_verifying {op : Op} (verifying : op.verifying) : calm op := by
  unfold Op.verifying at verifying
  split at verifying
  all_goals first | exact id | exact calm_of_inspecting verifying

/-- Consent is asked for only without the flag. -/
theorem seekConsent_wp {config : Volume} {plan : Preflight.Plan} {decided : Consent.Decisions}
    (here : At conn owed s)
    : wp (watch interruptions) (seekConsent config plan decided)
        (fun _ after => At conn owed after) s := by
  unfold seekConsent
  split
  · exact here
  · refine check_wp (logged_wp here) fun going => ?_
    have asked : wp (watch interruptions)
        (Consent.ask config.name config.device config.pcrs.list config.bank)
        (fun _ after => At conn owed after) s := by
      refine wp_ask ⟨fun _ => going, trivial⟩ fun output after step => ?_
      have still := here.waits step
      cases output with
      | error e => exact logged_wp still
      | ok out =>
          dsimp only
          split_ifs
          · exact still
          · exact logged_wp still
    refine wp_then asked fun answer after still => ?_
    cases answer with
    | no => exact logged_wp still
    | always => exact logged_wp still
    | yes => exact still

/-- The header is written only without the flag. -/
theorem enrollAndVerify_wp {fromStr : Json.Reader} {config : Volume} {device : Device}
    {secret : Secret} {tpm : Tpm2.Tpm} {plan : Preflight.Plan} (here : At conn owed s)
    : wp (watch interruptions) (enrollAndVerify fromStr config device secret tpm plan)
        (fun _ after => At conn owed after) s := by
  refine check_wp (logged_wp here) fun going => ?_
  have enrolled : wp (watch interruptions)
      (Enroll.run device config.tpm2Device config.pcrs.list config.bank secret)
      (fun _ after => At conn owed after) s := by
    unfold Enroll.run
    split_ifs
    · exact here
    · refine wp_ask ⟨nofun, trivial⟩ fun made after step => ?_
      obtain rfl : after = s := step
      cases made with
      | error e => exact here
      | ok fd =>
          refine wp_ask ⟨fun _ => going, trivial⟩ fun output last step => ?_
          have still := here.waits step
          cases output with
          | error e => exact still
          | ok out =>
              dsimp only
              split_ifs <;> exact still
  refine wp_then enrolled fun result after still => ?_
  cases result with
  | error e => exact logged_wp still
  | ok => exact calm_wp (verify_only.mono fun _ => calm_of_verifying) still

/-- What is owed stays owed throughout the repair. -/
theorem maybeReenroll_wp {fromStr : Json.Reader} {config : Volume} {device : Device}
    {secret : Secret} {decided : Consent.Decisions} (here : At conn owed s)
    : wp (watch interruptions) (maybeReenroll fromStr config device secret decided)
        (fun _ after => At conn owed after) s := by
  have inspected {α : Type} {program : Sys α} {now : StopState}
      (only : program.Only Op.inspecting) (here : At conn owed now)
      : wp (watch interruptions) program (fun _ after => At conn owed after) now :=
    calm_wp (only.mono fun _ => calm_of_inspecting) here
  refine check_wp (logged_wp here) fun _ => ?_
  refine wp_then (inspected Tpm2.Tpm.open_only here) fun opened after still => ?_
  cases opened with
  | error e => exact logged_wp still
  | ok tpm =>
      refine wp_then (inspected Preflight.check_only still) fun decision later still => ?_
      cases decision with
      | leave why => exact logged_wp still
      | reenroll plan =>
          refine wp_then (inspected announce_inspecting still) fun _ last still => ?_
          split_ifs
          · exact logged_wp still
          · refine wp_then (seekConsent_wp still) fun consent final still => ?_
            dsimp only
            split_ifs
            · exact wp_then (enrollAndVerify_wp still) fun _ _ still => still
            · exact still

-----------------------------------------------------------------------------------------
-- Replying
-----------------------------------------------------------------------------------------

/-- While a reply is written: what is left of it is owed or nothing is, and so many rounds
are left that only interruptions can use them up.
-/
structure Writing (interruptions : Nat) (conn : Fd) (rounds : Nat) (rest : Bytes)
    (s : StopState) : Prop where
  conn : s.conn = some conn
  owed : s.owed = none ∨ s.owed = StopState.owe rest
  enough : interruptions + rest.length ≤ rounds + s.interrupted

/-- A write that takes something leaves the rest owed. -/
theorem Writing.taken {rounds : Nat} {rest : Bytes} {n : Nat} {after : StopState}
    (writing : Writing interruptions conn (rounds + 1) rest s) (some_taken : n ≠ 0)
    (within : n ≤ rest.length)
    (step : after
      = { s with owed := if n = 0 then none else s.owed.bind (StopState.owe <| ·.drop n) })
    : Writing interruptions conn rounds (rest.drop n) after := by
  rw [step, if_neg some_taken]
  refine ⟨writing.conn, ?_, ?_⟩
  · rcases writing.owed with settled | owes
    · exact Or.inl (by simp [settled])
    · cases rest with
      | nil => exact Or.inl (by simp [owes, StopState.owe])
      | cons next later => exact Or.inr (by simp [owes, StopState.owe])
  · have enough := writing.enough
    simp only [List.length_drop]
    omega

/-- With nothing left nothing is owed. -/
theorem Writing.finished {rounds : Nat} (writing : Writing interruptions conn rounds [] s)
    : s.owed = none := by
  simpa [StopState.owe] using writing.owed

/-- What is owed is settled by the reply, by induction on the rounds. -/
theorem writeRounds_wp {rounds : Nat} {rest : Bytes}
    (writing : Writing interruptions conn rounds rest s)
    : wp (watch interruptions) (writeRounds conn rounds rest) (fun _ after => after.owed = none)
        s := by
  induction rounds generalizing rest s with
  | zero =>
      cases rest with
      | nil => exact writing.finished
      | cons next later =>
          have enough := writing.enough
          refine Or.inr ?_
          simp only [List.length_cons] at enough
          omega
  | succ rounds ih =>
      cases rest with
      | nil => exact writing.finished
      | cons next later =>
          refine wp_ask ⟨nofun, fun due owed => ?_⟩ fun written after step => ?_
          · rcases writing.owed with settled | owes
            · exact absurd (owed.symm.trans settled) nofun
            · exact ⟨writing.conn, Option.some.inj (owes.symm.trans owed)⟩
          · match written with
            | .ok n =>
                dsimp only
                split_ifs with refused
                · rw [show after = _ from step]
                  exact if_pos refused
                · exact ih (writing.taken refused (Nat.lt_succ_iff.mp n.isLt) step)
            | .error .intr =>
                obtain rfl : after = _ := step
                refine ih ⟨writing.conn, writing.owed, ?_⟩
                have enough := writing.enough
                dsimp only
                omega
            | .error .again | .error .noent | .error .exist | .error .pipe
            | .error .noprotoopt | .error (.other _) =>
                rw [show after = _ from step]
                rfl

/-- A reply that starts with that passphrase owed, or nothing, leaves nothing owed. -/
theorem reply_wp {volume : String} {secret : Secret}
    (owes : At conn none s ∨ At conn (StopState.owe secret.bytes) s)
    : wp (watch interruptions) (reply interruptions conn volume secret)
        (fun _ after => after.owed = none) s := by
  have writing : Writing interruptions conn (interruptions + secret.bytes.length) secret.bytes
      s := by
    rcases owes with here | here
    · exact ⟨here.conn, Or.inl here.owed, by omega⟩
    · exact ⟨here.conn, Or.inr here.owed, by omega⟩
  refine wp_then (writeRounds_wp writing) fun result after settled => ?_
  cases result <;> exact logged_wp settled

-----------------------------------------------------------------------------------------
-- Connections
-----------------------------------------------------------------------------------------

/-- The plain phase leaves nothing owed. -/
theorem servePassphrase_wp {setup : Setup} {config : Volume} {memory : Memory}
    (here : At conn none s)
    : wp (watch setup.interruptions) (servePassphrase setup conn config memory)
        (fun _ after => after.owed = none) s := by
  have opened : wp (watch setup.interruptions) (Device.open config.device)
      (fun _ after => At conn none after) s := by
    refine wp_ask ⟨nofun, trivial⟩ fun opened after step => ?_
    obtain rfl : after = s := step
    cases opened with
    | error e => exact here
    | ok fd =>
        refine wp_ask ⟨nofun, trivial⟩ fun fileType last step => ?_
        obtain rfl : last = after := step
        cases fileType with
        | error e => exact here
        | ok fileType =>
            dsimp only
            split_ifs <;> exact here
  refine wp_ask ⟨nofun, trivial⟩ fun _ now step => ?_
  obtain rfl : now = s := step
  refine wp_then opened fun device after still => ?_
  cases device with
  | error e => exact logged_wp still.owed
  | ok device =>
      refine wp_then (acquire_wp still) fun result last acquired => ?_
      match result with
      | (none, cache) => exact logged_wp (At.owed acquired)
      | (some secret, cache) =>
          rcases acquired with clear | owes
          · refine wp_then (maybeReenroll_wp clear) fun decided final still => ?_
            exact wp_then (reply_wp (Or.inl still)) fun _ _ settled => settled
          · refine wp_then (maybeReenroll_wp owes) fun decided final still => ?_
            exact wp_then (reply_wp (Or.inr still)) fun _ _ settled => settled

theorem calm_of_identifying {op : Op} (identifying : op.identifying) : calm op := by
  cases op <;> first | exact id | exact identifying.elim

/-- A connection is closed with nothing owed. -/
theorem handle_wp {setup : Setup} {managed : Volume} {memory : Memory} (here : At conn none s)
    : wp (watch setup.interruptions) (handle setup conn managed memory)
        (fun _ after => after.owed = none) s := by
  refine Tpm2Autoenroll.handle_wp (At conn none) (fun _ after => after.owed = none)
    (fun _ after => after.owed = none) ?_ ?_ At.owed servePassphrase_wp ?_ ?_ here
  · exact fun _ identifying => allows_of_calm (calm_of_identifying identifying)
  · exact fun step identifying here => here.step (calm_of_identifying identifying) step
  · exact fun settled => ⟨nofun, settled⟩
  · intro memory state answer next step settled
    rw [show next = state from step]
    exact settled

-----------------------------------------------------------------------------------------
-- The daemon
-----------------------------------------------------------------------------------------

/-- Requests that neither start anything, wait for anything nor write. -/
theorem unchanged {op : Op} {answer : Res op} {after : StopState}
    (instant : op.bookkeeping ∨ op.starting) (step : s.Step ⟨op, answer⟩ after)
    : after = s := by
  cases op <;> first | exact step | exact (instant.elim False.elim False.elim)

/-- Between connections nothing is owed, and none is accepted with the flag set. -/
theorem serveInvariant {setup : Setup} {listeners : List Listener}
    : ServeInvariant (watch setup.interruptions) setup listeners
        (fun _ s => s.owed = none) (fun _ s => s.stopped = false ∧ s.owed = none) where
  relax := And.right
  rests := fun held => Or.inl held.1
  quiet := fun _ small => allows_of_calm (by revert small; cases ‹Op› <;> simp [Op.starts])
  kept := fun step small held => unchanged (.inl small) step ▸ held
  keptArmed := fun step small held => unchanged (.inl small) step ▸ held
  polls := fun held => ⟨fun _ => held.1, trivial⟩
  polled := by
    intro memory state fds answer after step held
    rcases step with same | same
    · rw [same]
      exact held.2
    · rw [same]
      exact held.2
  checks := fun _ => ⟨nofun, trivial⟩
  checked := by
    intro memory state after answer step held
    obtain ⟨shown, same⟩ := step
    rw [same]
    exact ⟨held, fun unset => ⟨shown.symm.trans unset, held⟩⟩
  accepts := fun _ held => ⟨fun _ => held.1, trivial⟩
  refused := by
    intro l memory state error after member step held
    rw [show after = state from step]
    exact held.2
  handled := by
    intro l memory state conn after member step held
    obtain rfl : after = _ := step
    exact handle_wp ⟨rfl, rfl, rfl⟩

/-- The whole daemon keeps to the watch. -/
theorem daemon_wp {setup : Setup} {rounds : Nat} {config socketDir : String}
    : wp (watch setup.interruptions) (daemon setup rounds config socketDir) (fun _ _ => True)
        .start := by
  have ready : wp (watch setup.interruptions) (start setup.fromStr config socketDir)
      (fun _ after => after = .start) .start := by
    refine wp_invariant start_only nofun ?_ ?_ rfl
    · intro state op starting fresh
      rw [fresh]
      refine ⟨fun _ => rfl, ?_⟩
      cases op <;> trivial
    · intro state op answer after starting fresh step
      exact (unchanged (.inr starting) step).trans fresh
  refine Tpm2Autoenroll.daemon_wp (fun _ after => after = .start) ?_ ?_
  · exact wp_mono ready fun _ _ fresh _ _ => fresh
  · intro listeners after fresh
    refine ⟨_, _, serveInvariant, ?_, fun memory final settled => ?_⟩
    · rw [fresh]
      exact ⟨rfl, rfl⟩
    · refine shutdown_wp fun state op clearing => allows_of_calm ?_
      cases op <;> first | exact id | exact clearing.elim

end Stopping

open Stopping in
/-- Let the stop flag be set during any wait of a run of the daemon. From then on no prompt,
no trial, no consent prompt, no enrollment, no poll and no accept is started; a connection is
closed only when the passphrase whose trial the flag overtook has been written to it, as far
as the peer took it; and the daemon returns, unless one reply is interrupted more often than
the run is observed for.
-/
theorem stopping (setup : Setup) (rounds : Nat) (config socketDir : String)
    : (∀ before event after outcome s,
        (daemon setup rounds config socketDir).Runs (before ++ event :: after) outcome
          → (watch setup.interruptions).Path .start before s
          → (s.stopped = true → ¬ event.op.starts)
            ∧ ∀ fd,
              (event.op = .close fd → s.owed = none)
              ∧ ∀ buf rest,
                event.op = .write fd buf → s.owed = some rest → s.conn = some fd ∧ buf = rest)
      ∧ ∀ (σ : Type) (machine : Machine Res σ) (view : σ → StopState) (state : σ),
        (∀ state op, (view state).Step ⟨op, (machine state op).1⟩ (view (machine state op).2))
          → view state = .start
          → let driven := (daemon setup rounds config socketDir).drive machine state
            (view driven.final).stopped = true
              → (view driven.final).interrupted ≤ setup.interruptions
              → driven.outcome ≠ none := by
  constructor
  · intro before event after outcome s run path
    have allowed := wp_allows Stopping.daemon_wp run path
    obtain ⟨op, answer⟩ := event
    refine ⟨fun set starts => ?_, fun fd => ⟨?_, ?_⟩⟩
    · exact absurd (set.symm.trans (allowed.1 starts)) nofun
    · rintro rfl
      exact allowed.2
    · rintro buf rest rfl owed
      exact allowed.2 rest owed
  · intro σ machine view state follows fresh driven set within unfinished
    have path : (watch setup.interruptions).Path (view state) driven.trace (view driven.final) :=
      path_drive follows (daemon setup rounds config socketDir) state
    rw [fresh] at path
    rcases wp_stalls Stopping.daemon_wp (stalls_drive unfinished) path with unset | exceeded
    · exact absurd (set.symm.trans unset) nofun
    · exact absurd within (Nat.not_le.mpr exceeded)

end Tpm2Autoenroll
