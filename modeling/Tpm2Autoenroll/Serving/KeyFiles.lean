import Tpm2Autoenroll.Children.Lending
import Tpm2Autoenroll.Interaction.Keeping
import Tpm2Autoenroll.Serving.Levels
import Tpm2Autoenroll.Serving.Rules

/-! The memfds of the daemon, as what is done with them one call after the other: whenever one is
there it is the one of the child that comes next, it holds what that child is to read, and it is
wiped and closed before anything else is done.
-/

namespace Tpm2Autoenroll

open Interaction Prog
open Tpm2 (Tpm)

-----------------------------------------------------------------------------------------
-- Requests
-----------------------------------------------------------------------------------------

namespace Lending

/-- The memfd that was made for the next child. -/
def observe : Option SecretFile → Event → Option SecretFile
  | _, ⟨.secretFile secret, .ok fd⟩ => some ⟨fd, secret⟩
  | _, ⟨.child _, _⟩ => none
  | lent, _ => lent

/-- A memfd is made when there is none; a child is given the one there is or none, as it takes one
or not; and everything else is asked when there is none.
-/
def allows (lent : Option SecretFile) : Op → Prop
  | .child process => process.key = lent
  | _ => lent = none

def watch : Monitor Res (Option SecretFile) := .observing allows observe

variable {lent : Option SecretFile}

/-- Requests that have nothing to do with memfds. -/
def apart : Op → Prop
  | .secretFile _ => False
  | .child process => process.key = none
  | _ => True

theorem apart_of_inspecting {op : Op} (inspecting : op.inspecting) : apart op := by
  cases op with
  | child process =>
      cases process with
      | luksDump => rfl
      | _ => exact inspecting.elim
  | _ => trivial

theorem apart_of_verifying {op : Op} (verifying : op.verifying) : apart op := by
  cases op with
  | child process =>
      cases process with
      | luksDump | testUnseal => rfl
      | _ => exact verifying.elim
  | _ => trivial

theorem apart_of_consenting {op : Op} (consenting : op.consenting) : apart op := by
  cases op with
  | child process =>
      cases process with
      | askConsent => rfl
      | _ => exact consenting.elim
  | _ => trivial

theorem apart_of_replying {op : Op} (replying : op.replying) : apart op := by
  cases op <;> trivial

theorem apart_of_identifying {op : Op} (identifying : op.identifying) : apart op := by
  cases op <;> trivial

theorem apart_of_starting {op : Op} (starting : op.starting) : apart op := by
  cases op <;> trivial

theorem apart_of_clearing {op : Op} (clearing : op.clearing) : apart op := by
  cases op <;> trivial

theorem apart_of_serving {op : Op} (serving : op.serving) : apart op := by
  cases op <;> trivial

theorem allows_of_apart {op : Op} (alone : apart op) (none : lent = .none) : allows lent op := by
  cases op with
  | child process => exact Eq.trans alone none.symm
  | _ => exact none

theorem none_of_apart {op : Op} {answer : Res op} {after : Option SecretFile} (alone : apart op)
    (step : watch.step lent ⟨op, answer⟩ after) (none : lent = .none)
    : after = .none := by
  rw [show after = observe lent ⟨op, answer⟩ from step]
  cases op with
  | secretFile => exact alone.elim
  | child => rfl
  | _ => exact none

/-- There is no memfd before and after. -/
abbrev Returns {α : Type} (program : Sys α) : Prop := program.Keeps watch (· = none)

theorem returns_of_apart {α : Type} {left : Prop} {program : Sys α}
    (only : program.Only apart left)
    : Returns program :=
  .of_only only (fun _ _ _ => trivial) (fun _ _ alone => allows_of_apart alone)
    fun _ _ _ _ alone none step => none_of_apart alone step none

theorem ask_returns {op : Op} (alone : apart op) : Returns (ask op) :=
  @returns_of_apart _ False _ ⟨alone, fun _ => trivial⟩

theorem log_returns {line : LogLine} : Returns (log line) := ask_returns trivial

theorem terminating_returns : Returns terminating := ask_returns trivial

/-- A memfd is made and the next request runs the child that takes it. -/
theorem new_wp {α : Type} {secret : Secret} {rest : Except String SecretFile → Sys α}
    {post : α → Option SecretFile → Prop} (failed : ∀ e, wp watch (rest (.error e)) post none)
    (made : ∀ fd, wp watch (rest (.ok ⟨fd, secret⟩)) post (some ⟨fd, secret⟩))
    : wp watch (SecretFile.new secret >>= rest) post none := by
  refine ⟨rfl, fun answer after step => ?_⟩
  rw [show after = observe none ⟨.secretFile secret, answer⟩ from step]
  cases answer with
  | error e => exact failed e
  | ok fd => exact made fd

/-- A child that takes the memfd there is. -/
theorem child_wp {α : Type} {process : Child} {rest : Except String Output → Sys α}
    {post : α → Option SecretFile → Prop} (takes : process.key = lent)
    (done : ∀ result, wp watch (rest result) post none)
    : wp watch (ask (.child process) >>= rest) post lent := by
  refine ⟨takes, fun result after step => ?_⟩
  rw [show after = none from step]
  exact done result

variable {config : Volume} {device : Device} {secret : Secret}

theorem testPassphrase_returns : Returns (Luks.testPassphrase device secret) := by
  rintro _ rfl
  refine new_wp (fun e => rfl) fun fd => child_wp rfl fun result => ?_
  cases result <;> exact rfl

/-- By induction on the passphrases. -/
theorem tryEach_returns {stopped : LogLine} {answered : Option LogLine} {secrets : List Secret}
    : Returns (Acquire.tryEach config device stopped answered secrets) := by
  induction secrets with
  | nil => exact .pure
  | cons secret rest ih =>
      refine terminating_returns.bind fun stop => ?_
      cases stop with
      | true => exact log_returns.bind fun _ => .pure
      | false =>
          refine testPassphrase_returns.bind fun verdict => ?_
          cases verdict with
          | correct =>
              cases answered with
              | none => exact .pure
              | some line => exact log_returns.bind fun _ => .pure
          | wrong => exact ih
          | unusable why => exact log_returns.bind fun _ => .pure

theorem askPassword_returns {volume path : String} {attempt : Attempt}
    : Returns (Askpw.ask volume path attempt) := by
  refine @returns_of_apart _ False _ (only_ask rfl fun output => ?_)
  cases output with
  | error e => trivial
  | ok out =>
      dsimp only
      split_ifs <;> trivial

/-- By induction on the attempts. -/
theorem tryPrompts_returns {attempts : List Nat}
    : Returns (Acquire.tryPrompts config device attempts) := by
  induction attempts with
  | nil => exact .pure
  | cons attempt more ih =>
      refine terminating_returns.bind fun stop => ?_
      cases stop with
      | true => exact log_returns.bind fun _ => .pure
      | false =>
          refine askPassword_returns.bind fun offered => ?_
          cases offered with
          | error e => exact log_returns.bind fun _ => .pure
          | ok candidates =>
              refine tryEach_returns.bind fun trials => ?_
              cases trials with
              | exhausted => exact log_returns.bind fun _ => ih
              | found | abandoned => exact .pure

theorem acquire_returns {cache : Cache} : Returns (acquire config device cache) := by
  have search : Returns (Acquire.search config device cache) := by
    refine tryEach_returns.bind fun trials => ?_
    cases trials with
    | found | abandoned => exact .pure
    | exhausted =>
        refine tryPrompts_returns.bind fun trials => ?_
        cases trials <;> exact .pure
  unfold acquire
  split_ifs
  · exact log_returns.bind fun _ => search
  · exact search

theorem run_returns {tpm2Device : String} {pcrs : List UInt8} {bank : Tpm2.Bank}
    : Returns (Enroll.run device tpm2Device pcrs bank secret) := by
  unfold Enroll.run
  split_ifs
  · exact .pure
  · rintro _ rfl
    refine new_wp (fun e => rfl) fun fd => child_wp rfl fun result => ?_
    cases result with
    | error e => exact rfl
    | ok out =>
        dsimp only
        split_ifs <;> exact rfl

theorem enrollAndVerify_returns {fromStr : Json.Reader} {tpm : Tpm} {plan : Preflight.Plan}
    : Returns (enrollAndVerify fromStr config device secret tpm plan) := by
  refine terminating_returns.bind fun stop => ?_
  cases stop with
  | true => exact log_returns
  | false =>
      refine run_returns.bind fun enrolled => ?_
      cases enrolled with
      | error e => exact log_returns
      | ok => exact returns_of_apart (verify_only.mono fun _ => apart_of_verifying)

theorem maybeReenroll_returns {fromStr : Json.Reader} {decided : Consent.Decisions}
    : Returns (maybeReenroll fromStr config device secret decided) := by
  have inspects {α : Type} {program : Sys α} (only : program.Only Op.inspecting)
      : Returns program :=
    returns_of_apart (only.mono fun _ => apart_of_inspecting)
  refine terminating_returns.bind fun stop => ?_
  cases stop with
  | true => exact log_returns.bind fun _ => .pure
  | false =>
      refine (inspects Tpm2.Tpm.open_only).bind fun opened => ?_
      cases opened with
      | error e => exact log_returns.bind fun _ => .pure
      | ok tpm =>
          refine (inspects Preflight.check_only).bind fun decision => ?_
          cases decision with
          | leave why => exact log_returns.bind fun _ => .pure
          | reenroll plan =>
              refine (inspects announce_inspecting).bind fun _ => ?_
              dsimp only
              split_ifs
              · exact log_returns.bind fun _ => .pure
              · refine (returns_of_apart
                  (seekConsent_only.mono fun _ => apart_of_consenting)).bind fun consent => ?_
                split_ifs
                · exact enrollAndVerify_returns.bind fun _ => .pure
                · exact .pure

theorem servePassphrase_returns {setup : Setup} {conn : Fd} {memory : Memory}
    : Returns (servePassphrase setup conn config memory) := by
  have opening : Returns (Device.open config.device) :=
    @returns_of_apart _ False _ (Device.open_requests trivial fun _ => trivial)
  refine log_returns.bind fun _ => opening.bind fun opened => ?_
  cases opened with
  | error e => exact log_returns.bind fun _ => .pure
  | ok device =>
      refine acquire_returns.bind fun found => ?_
      obtain ⟨secret, cache⟩ := found
      cases secret with
      | none => exact log_returns.bind fun _ => .pure
      | some secret =>
          refine maybeReenroll_returns.bind fun decided => ?_
          exact (returns_of_apart (reply_only.mono fun _ => apart_of_replying)).bind fun _ => .pure

theorem handle_returns {setup : Setup} {conn : Fd} {memory : Memory}
    : Returns (handle setup conn config memory) := by
  have identifies {α : Type} {program : Sys α} (only : program.Only Op.identifying)
      : Returns program :=
    returns_of_apart (only.mono fun _ => apart_of_identifying)
  have dispatched : Returns (dispatch setup conn config memory) := by
    refine (identifies identify_only).bind fun phase => ?_
    match phase with
    | none => exact .pure
    | some .tpm2 | some .fido2Salt | some .pkcs11 | some .unknown =>
        exact log_returns.bind fun _ => .pure
    | some .plain =>
        refine (identifies Peer.check_only).bind fun verdict => ?_
        cases verdict with
        | error why => exact log_returns.bind fun _ => .pure
        | ok => exact servePassphrase_returns.bind fun _ => .pure
  have closing : Returns (ask (.close conn)) := ask_returns trivial
  exact dispatched.bind fun _ => closing.bind fun _ => .pure

theorem serving {setup : Setup} {listeners : List Listener}
    : ServeInvariant watch setup listeners (fun _ lent => lent = none) fun _ lent => lent = none :=
  .of_kept (fun _ => trivial) (fun none small => allows_of_apart (apart_of_serving small) none)
    (fun step small none => none_of_apart (apart_of_serving small) step none)
    fun _ step none =>
      handle_returns _ (none_of_apart (show apart (.accept _) from trivial) step none)

theorem daemon_returns {setup : Setup} {rounds : Nat} {config dir : String}
    : Returns (daemon setup rounds config dir) := by
  have starting : Returns (start setup.fromStr config dir) :=
    returns_of_apart (start_only.mono fun _ => apart_of_starting)
  refine starting.bind fun result => ?_
  cases result with
  | error code => exact .pure
  | ok listeners =>
      have stopping : Returns (shutdown listeners) :=
        returns_of_apart (shutdown_only.mono fun _ => apart_of_clearing)
      have served : Returns (serve setup rounds listeners) := by
        rintro _ rfl
        refine wp_mono (Serve.serve_wp serving rfl) fun code after settled => ?_
        obtain ⟨memory, none⟩ := settled
        exact none
      exact served.bind fun code => stopping.bind fun _ => .pure

end Lending

-----------------------------------------------------------------------------------------
-- Calls
-----------------------------------------------------------------------------------------

/-- The memfd there is, and the number that it goes by since that was asked for. -/
structure KeyUse where
  pages : Option KeyFile.Pages
  number : Option Fd

namespace KeyUse

/-- The memfd that is done with goes by no number. -/
def observe (use : KeyUse) : Interaction.Event Outcome → KeyUse
  | ⟨.memfd made, answer⟩ =>
      let pages := KeyFile.follow use.pages ⟨made, answer⟩
      ⟨pages, pages.bind fun _ => use.number⟩
  | ⟨.fileno, fd⟩ => { use with number := some fd }
  | _ => use

/-- What a run shows from its beginning. -/
def of (trace : Interaction.Trace Outcome) : KeyUse := trace.foldl observe ⟨none, none⟩

/-- There is a memfd by the number a child was told, and it holds what that is to read. -/
structure Holds (use : KeyUse) (key : SecretFile) : Prop where
  number : use.number = some key.fd
  pages : ∃ m, use.pages = some m ∧ m.Filling ∧ m.Holds key.secret.bytes

/-- A memfd is made when there is none and closed when it is accounted for. A child that takes one
is dealt with while there is one that holds what it is to read, by the number it was told; other
children, and all other requests, while there is none.
-/
def allows (use : KeyUse) : Action → Prop
  | .request _ => use.pages = none
  | .memfd made => KeyFile.inHand use.pages made
  | .fileno => ∃ m, use.pages = some m
  | .child process _ =>
      match process.key with
      | none => use.pages = none
      | some key => use.Holds key

def watch : Monitor Outcome KeyUse := .observing allows observe

/-- How what was lent fits what is there. -/
def Fits (lent : Option SecretFile) (use : KeyUse) : Prop :=
  match lent with
  | none => use.pages = none
  | some key => use.Holds key

variable {use : KeyUse} {patience : Patience}

/-- What is specified of the calls on a memfd holds of them in the daemon. -/
theorem onMemfd_wp {α : Type} {program : KeyFile.Steps α}
    {post : α → Option KeyFile.Pages → Prop}
    (specified : wp KeyFile.lifecycle program post use.pages)
    : wp watch (program.interpret onMemfd) (fun value there => post value there.pages) use := by
  refine wp_mono (wp_interpret (fun pages there => there.pages = pages)
    (fun _ _ _ _ => trivial) ?_ specified rfl) ?_
  · rintro made _ there rfl allowed
    refine ⟨allowed, fun answer after step => ⟨_, rfl, ?_⟩⟩
    rw [show after = observe there _ from step]
    rfl
  · rintro value there ⟨after, rfl, holds⟩
    exact holds

theorem secretFile_wp {secret : Secret} (none : use.pages = none)
    : wp watch (carryOutOp patience (.secretFile secret))
        (fun answer there => Fits (Lending.observe .none ⟨.secretFile secret, answer⟩) there)
        use := by
  have made : wp watch ((KeyFile.new patience.interruptions secret).interpret onMemfd)
      (fun result there => KeyFile.Lent secret there.pages result) use :=
    onMemfd_wp (none ▸ KeyFile.new_lends)
  refine Prog.wp_bind.mpr (wp_mono made fun result there lent => ?_)
  cases result with
  | error e => exact lent
  | ok key =>
      obtain ⟨_, m, pages, filling, holds⟩ := lent
      refine ⟨⟨m, pages⟩, fun fd after step => ?_⟩
      rw [show after = { there with number := some fd } from step]
      exact ⟨rfl, m, pages, filling, holds⟩

/-- The calls of a child leave the memfd alone. -/
theorem ran_wp {process : Child} (fits : Fits process.key use)
    : wp watch ((process.ran patience).interpret (ofChild process)) (fun _ there => there = use)
        use := by
  have calls : ((process.ran patience).interpret (ofChild process)).Only
      (fun action => ∃ made, action = .child process made) True :=
    interpret_only fun made => ⟨⟨made, rfl⟩, fun _ => trivial⟩
  refine wp_invariant calls (fun _ _ _ => trivial) ?_ ?_ rfl
  · rintro _ _ ⟨made, rfl⟩ rfl
    exact fits
  · rintro _ _ answer after ⟨made, rfl⟩ rfl step
    exact step

theorem letGo_wp {process : Child} (fits : Fits process.key use)
    : wp watch process.letGo (fun _ there => there.pages = none) use := by
  unfold Child.letGo
  cases lent : process.key with
  | none =>
      rw [lent] at fits
      exact fits
  | some key =>
      rw [lent] at fits
      obtain ⟨m, pages, filling, holds⟩ := fits.pages
      exact onMemfd_wp (pages ▸ KeyFile.drop_ends filling holds.length)

theorem child_wp {process : Child} (fits : Fits process.key use)
    : wp watch (carryOutOp patience (.child process)) (fun _ there => there.pages = none) use := by
  refine Prog.wp_bind.mpr (wp_mono (ran_wp fits) ?_)
  rintro out _ rfl
  exact Prog.wp_bind.mpr (wp_mono (letGo_wp fits) fun _ _ gone => gone)

/-- Every request is carried out so that what is there fits what is lent. -/
theorem carries {op : Op} {lent : Option SecretFile} (fits : Fits lent use)
    (allowed : Lending.allows lent op)
    : wp watch (carryOutOp patience op)
        (fun answer there => Fits (Lending.observe lent ⟨op, answer⟩) there) use := by
  cases op with
  | secretFile secret =>
      rw [show lent = none from allowed] at fits ⊢
      exact secretFile_wp fits
  | child process =>
      rw [← show process.key = lent from allowed] at fits
      exact child_wp fits
  | _ =>
      rw [show lent = none from allowed] at fits ⊢
      refine ⟨fits, fun answer after step => ?_⟩
      rw [show after = use from step]
      exact fits

theorem daemon_wp {setup : Setup} {rounds : Nat} {config dir : String}
    : wp watch (implemented patience (daemon setup rounds config dir))
        (fun _ there => there.pages = none) ⟨none, none⟩ := by
  refine wp_mono (wp_interpret Fits (fun _ _ _ _ => trivial) ?_
    (Lending.daemon_returns none rfl) rfl) ?_
  · intro op lent there fits allowed
    exact wp_mono (carries fits allowed) fun answer there fits => ⟨_, rfl, fits⟩
  · rintro _ there ⟨_, fits, rfl⟩
    exact fits

end KeyUse

/-- What becomes of the passphrases that the daemon hands to its children. In every run, however its
calls fail and wherever it is cut off, a memfd is made only when there is none; a child that takes
one is spawned, waited for and otherwise dealt with only while there is one that holds the
passphrase it was meant to have, byte for byte, under the number it was told; every other child and
every other request comes when there is none, so that a memfd outlives neither its child nor the
making of it; it is closed only when it is wiped, unless that was refused or filling it failed; and
when the daemon is over, there is none.
-/
theorem key_files {setup : Setup} {patience : Patience} {rounds : Nat} {config dir : String}
    {trace : Interaction.Trace Outcome} {outcome : Option ExitCode}
    (run : (implemented patience (daemon setup rounds config dir)).Runs trace outcome)
    : (∀ before event later, trace = before ++ event :: later
        → (KeyUse.of before).allows event.op)
      ∧ (outcome ≠ none → (KeyUse.of trace).pages = none) := by
  constructor
  · rintro before event later rfl
    exact wp_allows KeyUse.daemon_wp run (Monitor.path_observing.mpr rfl)
  · intro ended
    obtain ⟨code, rfl⟩ := Option.ne_none_iff_exists'.mp ended
    have path : KeyUse.watch.Path ⟨none, none⟩ trace (KeyUse.of trace) :=
      Monitor.path_observing.mpr rfl
    have left := wp_post KeyUse.daemon_wp run path
    exact left

open Scene in
/-- The passphrase that was typed is in a memfd when cryptsetup is started to try it. -/
theorem key_files_home
    : ∃ before, (KeyUse.of before).Holds ⟨6, ⟨Text.asBytes "correct horse"⟩⟩ := by
  let process : Child := .testPassphrase ⟨5, "/dev/vda3"⟩ ⟨6, ⟨Text.asBytes "correct horse"⟩⟩
  have called : (play (twoVolumes "no" fun _ => [0xaa])).trace.any (fun event =>
      event.op = .child process) = true := by
    decide +kernel
  obtain ⟨patience, left, _, right, run, answer, _, ran⟩ := exists_carriedOut declined_smooth called
  obtain ⟨spawned, rest, rfl⟩ := spawns ran
  exact ⟨left, (key_files run).1 left _ _ rfl⟩

end Tpm2Autoenroll
