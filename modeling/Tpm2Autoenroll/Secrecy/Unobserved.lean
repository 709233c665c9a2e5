import Tpm2Autoenroll.Secrecy.Renamings
import Tpm2Autoenroll.Serving.Footprints
import Tpm2Autoenroll.Serving.Requests
import Tpm2Autoenroll.Serving.Scenes

/-! What a passphrase is cannot be told from what the daemon does: exchange the passphrases of a
run one to one, and the daemon has a run with the same requests but for these.
-/

namespace Tpm2Autoenroll

open Interaction Prog
open Text (Bytes)

variable {ρ : Renaming} {α β γ : Type}

-----------------------------------------------------------------------------------------
-- Steps
-----------------------------------------------------------------------------------------

/-- A plain request first, and what depends on its answer in step. -/
theorem mirrors_ask {same : α → β → Prop} {op : Op} {next : Res op → Sys α}
    {follow : Res op → Sys β} (plain : op.plain)
    (rest : ∀ answer, Mirrors (Exchanged ρ) same (next answer) (follow answer))
    : Mirrors (Exchanged ρ) same (ask op >>= next) (ask op >>= follow) :=
  .call id (fun answer => .plain answer plain) rest

/-- A plain program first, and what depends on its result in step. -/
theorem mirrors_plain {same : α → β → Prop} {allowed : Op → Prop} {left : Prop}
    {program : Sys γ} {next : γ → Sys α} {follow : γ → Sys β}
    (only : program.Only allowed left) (plain : ∀ op, allowed op → op.plain)
    (rest : ∀ value, Mirrors (Exchanged ρ) same (next value) (follow value))
    : Mirrors (Exchanged ρ) same (program >>= next) (program >>= follow) :=
  .refl_bind only (fun op answer small => .plain answer (plain op small)) rest

theorem Op.plain_of_inspecting {op : Op} (inspecting : op.inspecting) : op.plain := by
  cases op with
  | child process => cases process <;> trivial
  | _ => trivial

theorem Op.plain_of_verifying {op : Op} (verifying : op.verifying) : op.plain := by
  cases op with
  | child process => cases process <;> trivial
  | _ => trivial

theorem Op.plain_of_consenting {op : Op} (consenting : op.consenting) : op.plain := by
  cases op with
  | child process => cases process <;> trivial
  | _ => trivial

theorem Op.plain_of_identifying {op : Op} (identifying : op.identifying) : op.plain := by
  cases op with
  | child process => cases process <;> trivial
  | _ => trivial

theorem Op.plain_of_bookkeeping {op : Op} (bookkeeping : op.bookkeeping) : op.plain := by
  cases op with
  | child process => cases process <;> trivial
  | _ => trivial

theorem Op.plain_of_starting {op : Op} (starting : op.starting) : op.plain := by
  cases op with
  | child process => cases process <;> trivial
  | _ => trivial

-----------------------------------------------------------------------------------------
-- Finding a passphrase
-----------------------------------------------------------------------------------------

theorem testPassphrase_mirrors {device : Device} {secret : Secret}
    : Mirrors (Exchanged ρ) Eq (Luks.testPassphrase device secret)
        (Luks.testPassphrase device (ρ.secret secret)) := by
  refine .call id (fun answer => .secretFile secret answer) fun created => ?_
  cases created with
  | error e => exact .ret rfl
  | ok fd =>
      refine .call id (fun answer => .testPassphrase device ⟨fd, secret⟩ answer) fun output => ?_
      cases output <;> exact .ret rfl

/-- The same prompt, and the exchanged candidates. -/
theorem ask_mirrors {volume device : String} {attempt : Attempt}
    : Mirrors (Exchanged ρ)
        (fun offered exchanged => exchanged = offered.map (List.map ρ.secret))
        (Askpw.ask volume device attempt) (Askpw.ask volume device attempt) := by
  refine .call ρ.offered (fun answer => .askPassword volume device attempt answer) fun output => ?_
  cases output with
  | error e => exact .ret rfl
  | ok out =>
      simp only [Renaming.offered, Except.map, Prog.bind, ρ.parseCandidates_typed,
        List.map_eq_nil_iff]
      split_ifs <;> exact .ret rfl

/-- How a stretch of trials ends with the exchanged passphrases. -/
def Renaming.trials (ρ : Renaming) : Trials → Trials
  | .found secret => .found (ρ.secret secret)
  | .exhausted => .exhausted
  | .abandoned => .abandoned

namespace Acquire

/-- By induction on the passphrases. -/
theorem tryEach_mirrors {config : Volume} {device : Device} {stopped : LogLine}
    {answered : Option LogLine} {secrets : List Secret}
    : Mirrors (Exchanged ρ) (fun trials exchanged => exchanged = ρ.trials trials)
        (tryEach config device stopped answered secrets)
        (tryEach config device stopped answered (secrets.map ρ.secret)) := by
  induction secrets with
  | nil => exact .ret rfl
  | cons secret rest ih =>
      refine mirrors_ask trivial fun stop => ?_
      cases stop with
      | true => exact mirrors_ask trivial fun _ => .ret rfl
      | false =>
          refine testPassphrase_mirrors.bind fun verdict other same => ?_
          subst same
          cases verdict with
          | correct =>
              cases answered with
              | none => exact .ret rfl
              | some line => exact mirrors_ask trivial fun _ => .ret rfl
          | wrong => exact ih
          | unusable why => exact mirrors_ask trivial fun _ => .ret rfl

/-- By induction on the attempts. -/
theorem tryPrompts_mirrors {config : Volume} {device : Device} {attempts : List Nat}
    : Mirrors (Exchanged ρ) (fun trials exchanged => exchanged = ρ.trials trials)
        (tryPrompts config device attempts) (tryPrompts config device attempts) := by
  induction attempts with
  | nil => exact .ret rfl
  | cons attempt more ih =>
      refine mirrors_ask trivial fun stop => ?_
      cases stop with
      | true => exact mirrors_ask trivial fun _ => .ret rfl
      | false =>
          refine ask_mirrors.bind fun offered exchanged same => ?_
          subst same
          cases offered with
          | error e => exact mirrors_ask trivial fun _ => .ret rfl
          | ok candidates =>
              refine tryEach_mirrors.bind fun trials exchanged same => ?_
              subst same
              cases trials with
              | found secret => exact .ret rfl
              | abandoned => exact .ret rfl
              | exhausted => exact mirrors_ask trivial fun _ => ih

end Acquire

-----------------------------------------------------------------------------------------
-- What is remembered
-----------------------------------------------------------------------------------------

/-- The cache with its passphrases exchanged. -/
def Renaming.cache (ρ : Renaming) (cache : Cache) : Cache where
  entries := cache.entries.map ρ.secret
  distinct := cache.distinct.map ρ.secret_injective

/-- No two passphrases become one, so repeats stay repeats. -/
theorem Renaming.cache_insert (ρ : Renaming) (cache : Cache) (secret : Secret)
    : (ρ.cache cache).insert (ρ.secret secret) = ρ.cache (cache.insert secret) := by
  have same : ρ.secret secret ∈ (ρ.cache cache).entries ↔ secret ∈ cache.entries :=
    List.mem_map_of_injective ρ.secret_injective
  by_cases member : secret ∈ cache.entries
  · rw [Cache.insert, dif_pos (same.mpr member), Cache.insert, dif_pos member]
  · rw [Cache.insert, dif_neg (same.not.mpr member), Cache.insert, dif_neg member]
    simp only [Renaming.cache, List.map_append, List.map_cons, List.map_nil]

/-- The consent decisions have no passphrase in them. -/
def Renaming.memory (ρ : Renaming) (memory : Memory) : Memory :=
  ⟨ρ.cache memory.cache, memory.decided⟩

theorem acquire_mirrors {config : Volume} {device : Device} {cache : Cache}
    : Mirrors (Exchanged ρ)
        (fun found exchanged => exchanged = (found.1.map ρ.secret, ρ.cache found.2))
        (acquire config device cache) (acquire config device (ρ.cache cache)) := by
  have searched : Mirrors (Exchanged ρ)
      (fun found exchanged => exchanged = (found.1.map ρ.secret, ρ.cache found.2))
      (Acquire.search config device cache) (Acquire.search config device (ρ.cache cache)) := by
    refine Acquire.tryEach_mirrors.bind fun trials exchanged same => ?_
    subst same
    cases trials with
    | found secret => exact .ret rfl
    | abandoned => exact .ret rfl
    | exhausted =>
        refine Acquire.tryPrompts_mirrors.bind fun trials exchanged same => ?_
        subst same
        cases trials with
        | found secret => exact .ret (by rw [ρ.cache_insert]; rfl)
        | abandoned => exact .ret rfl
        | exhausted => exact .ret rfl
  have kept : (ρ.cache cache).entries ≠ [] ↔ cache.entries ≠ [] := by
    simp [Renaming.cache]
  have length : (ρ.cache cache).entries.length = cache.entries.length := by
    simp [Renaming.cache]
  unfold acquire
  simp only [kept, length]
  split_ifs
  · exact mirrors_ask trivial fun _ => searched
  · exact searched

-----------------------------------------------------------------------------------------
-- Repairing
-----------------------------------------------------------------------------------------

theorem Enroll.run_mirrors {device : Device} {tpm2Device : String} {pcrs : List UInt8}
    {bank : Tpm2.Bank} {secret : Secret}
    : Mirrors (Exchanged ρ) Eq (Enroll.run device tpm2Device pcrs bank secret)
        (Enroll.run device tpm2Device pcrs bank (ρ.secret secret)) := by
  unfold Enroll.run
  split_ifs with empty
  · exact .ret rfl
  · refine .call id (fun answer => .secretFile secret answer) fun created => ?_
    cases created with
    | error e => exact .ret rfl
    | ok fd =>
        refine .call id
          (fun answer => .cryptenroll device tpm2Device pcrs bank ⟨fd, secret⟩ answer)
          fun output => ?_
        cases output with
        | error e => exact .ret rfl
        | ok out =>
            simp only [id, Prog.bind]
            split_ifs <;> exact .ret rfl

theorem enrollAndVerify_mirrors {fromStr : Json.Reader} {config : Volume} {device : Device}
    {secret : Secret} {tpm : Tpm2.Tpm} {plan : Preflight.Plan}
    : Mirrors (Exchanged ρ) Eq (enrollAndVerify fromStr config device secret tpm plan)
        (enrollAndVerify fromStr config device (ρ.secret secret) tpm plan) := by
  refine mirrors_ask trivial fun stop => ?_
  cases stop with
  | true => exact mirrors_ask trivial fun _ => .ret rfl
  | false =>
      refine Enroll.run_mirrors.bind fun result other same => ?_
      subst same
      cases result with
      | error e => exact mirrors_ask trivial fun _ => .ret rfl
      | ok => exact (Mirrors.refl verify_only fun _ answer small =>
          .plain answer (Op.plain_of_verifying small))

theorem maybeReenroll_mirrors {fromStr : Json.Reader} {config : Volume} {device : Device}
    {secret : Secret} {decided : Consent.Decisions}
    : Mirrors (Exchanged ρ) Eq (maybeReenroll fromStr config device secret decided)
        (maybeReenroll fromStr config device (ρ.secret secret) decided) := by
  refine mirrors_ask trivial fun stop => ?_
  cases stop with
  | true => exact mirrors_ask trivial fun _ => .ret rfl
  | false =>
      refine mirrors_plain Tpm2.Tpm.open_only (fun _ => Op.plain_of_inspecting) fun opened => ?_
      cases opened with
      | error e => exact mirrors_ask trivial fun _ => .ret rfl
      | ok tpm =>
          refine mirrors_plain Preflight.check_only (fun _ => Op.plain_of_inspecting) ?_
          intro decision
          cases decision with
          | leave why => exact mirrors_ask trivial fun _ => .ret rfl
          | reenroll plan =>
              refine mirrors_plain announce_inspecting (fun _ => Op.plain_of_inspecting) ?_
              intro _
              split_ifs
              · exact mirrors_ask trivial fun _ => .ret rfl
              · refine mirrors_plain seekConsent_only (fun _ => Op.plain_of_consenting) ?_
                intro consent
                dsimp only
                split_ifs
                · exact enrollAndVerify_mirrors.bind fun _ _ _ => .ret rfl
                · exact .ret rfl

-----------------------------------------------------------------------------------------
-- Replying
-----------------------------------------------------------------------------------------

/-- What is left of a passphrase and of its counterpart is sent in pieces of the same lengths; by
induction on the rounds.
-/
theorem writeRounds_mirrors {conn : Fd} {secret : Secret} {rounds sent : Nat} {buf mirrored : Bytes}
    (rest : buf = secret.bytes.drop sent) (exchanged : mirrored = (ρ.secret secret).bytes.drop sent)
    : Mirrors (Exchanged ρ) Eq (writeRounds conn rounds buf) (writeRounds conn rounds mirrored) := by
  have length : buf.length = mirrored.length := by
    rw [rest, exchanged, List.length_drop, List.length_drop, ρ.length_secret]
  induction rounds generalizing sent buf mirrored with
  | zero =>
      cases buf with
      | nil =>
          rw [List.length_eq_zero_iff.mp length.symm]
          exact .ret rfl
      | cons next later =>
          obtain ⟨head, tail, rfl⟩ := List.exists_cons_of_length_eq_add_one length.symm
          exact .pending
  | succ rounds ih =>
      cases buf with
      | nil =>
          rw [List.length_eq_zero_iff.mp length.symm]
          exact .ret rfl
      | cons next later =>
          obtain ⟨head, tail, rfl⟩ := List.exists_cons_of_length_eq_add_one length.symm
          have onwards (count : Nat)
              : Mirrors (Exchanged ρ) Eq (writeRounds conn rounds ((next :: later).drop count))
                  (writeRounds conn rounds ((head :: tail).drop count)) := by
            have left : (next :: later).drop count = secret.bytes.drop (sent + count) := by
              rw [rest, List.drop_drop]
            have right : (head :: tail).drop count = (ρ.secret secret).bytes.drop (sent + count) := by
              rw [exchanged, List.drop_drop]
            exact ih left right (by rw [List.length_drop, List.length_drop, length])
          refine .call (Except.map (Fin.cast (congrArg Nat.succ length))) ?_ ?_
          · intro answer
            cases answer with
            | error e => exact .writeFailed conn secret sent rest exchanged e
            | ok count => exact .wrote conn secret sent rest exchanged count _ rfl
          · intro answer
            match answer with
            | .ok count =>
                simp only [Except.map, Prog.bind, Fin.val_cast]
                split_ifs
                · exact .ret rfl
                · exact onwards count
            | .error .intr => exact ih rest exchanged length
            | .error .again | .error .noent | .error .exist | .error .pipe
            | .error .noprotoopt | .error (.other _) => exact .ret rfl

theorem reply_mirrors {interruptions : Nat} {conn : Fd} {volume : String} {secret : Secret}
    : Mirrors (Exchanged ρ) Eq (reply interruptions conn volume secret)
        (reply interruptions conn volume (ρ.secret secret)) := by
  have written : Mirrors (Exchanged ρ) Eq (writeAll conn interruptions secret.bytes)
      (writeAll conn interruptions (ρ.secret secret).bytes) := by
    unfold writeAll
    rw [ρ.length_secret]
    exact writeRounds_mirrors (List.drop_zero (l := secret.bytes)).symm List.drop_zero.symm
  refine written.bind fun result other same => ?_
  subst same
  cases result <;> exact mirrors_ask trivial fun _ => .ret rfl

-----------------------------------------------------------------------------------------
-- One connection
-----------------------------------------------------------------------------------------

theorem servePassphrase_mirrors {setup : Setup} {conn : Fd} {config : Volume} {memory : Memory}
    : Mirrors (Exchanged ρ) (fun after exchanged => exchanged = ρ.memory after)
        (servePassphrase setup conn config memory)
        (servePassphrase setup conn config (ρ.memory memory)) := by
  refine mirrors_ask trivial fun _ => ?_
  have opening : (Device.open config.device).Only Op.plain :=
    Device.open_requests trivial fun _ => trivial
  refine mirrors_plain opening (fun _ plain => plain) fun opened => ?_
  cases opened with
  | error e => exact mirrors_ask trivial fun _ => .ret rfl
  | ok device =>
      refine acquire_mirrors.bind fun found exchanged same => ?_
      subst same
      obtain ⟨secret, cache⟩ := found
      cases secret with
      | none => exact mirrors_ask trivial fun _ => .ret rfl
      | some secret =>
          refine maybeReenroll_mirrors.bind fun decided other same => ?_
          subst same
          exact reply_mirrors.bind fun _ _ _ => .ret rfl

theorem handle_mirrors {setup : Setup} {conn : Fd} {managed : Volume} {memory : Memory}
    : Mirrors (Exchanged ρ)
        (fun result exchanged => exchanged = (result.1, ρ.memory result.2))
        (handle setup conn managed memory) (handle setup conn managed (ρ.memory memory)) := by
  have dispatched : Mirrors (Exchanged ρ)
      (fun result exchanged => exchanged = (result.1, ρ.memory result.2))
      (dispatch setup conn managed memory) (dispatch setup conn managed (ρ.memory memory)) := by
    refine mirrors_plain identify_only (fun _ => Op.plain_of_identifying) fun phase => ?_
    match phase with
    | none => exact .ret rfl
    | some .tpm2 | some .fido2Salt | some .pkcs11 | some .unknown =>
        exact mirrors_ask trivial fun _ => .ret rfl
    | some .plain =>
        refine mirrors_plain Peer.check_only (fun _ => Op.plain_of_identifying) fun verdict => ?_
        cases verdict with
        | error why => exact mirrors_ask trivial fun _ => .ret rfl
        | ok =>
            refine servePassphrase_mirrors.bind fun after exchanged same => ?_
            subst same
            exact .ret rfl
  refine dispatched.bind fun result exchanged same => ?_
  subst same
  exact mirrors_ask trivial fun _ => .ret rfl

-----------------------------------------------------------------------------------------
-- The accept loop
-----------------------------------------------------------------------------------------

/-- The variables of the accept loop with the cached passphrases exchanged. -/
def Renaming.state (ρ : Renaming) (state : ServeState) : ServeState :=
  { state with memory := ρ.memory state.memory }

namespace Serve

theorem acceptOne_mirrors {setup : Setup} {l : Listener} {state : ServeState}
    : Mirrors (Exchanged ρ) (fun after exchanged => exchanged = ρ.state after)
        (acceptOne setup l state) (acceptOne setup l (ρ.state state)) := by
  refine mirrors_ask trivial fun accepted => ?_
  match accepted with
  | .ok conn =>
      refine handle_mirrors.bind fun result exchanged same => ?_
      subst same
      obtain ⟨counted, memory⟩ := result
      cases counted with
      | true => exact mirrors_ask trivial fun _ => .ret rfl
      | false => exact .ret rfl
  | .error .intr | .error .again => exact .ret rfl
  | .error .noent | .error .exist | .error .pipe | .error .noprotoopt | .error (.other _) =>
      exact mirrors_ask trivial fun _ => .ret rfl

/-- By induction on the listeners. -/
theorem serveReady_mirrors {setup : Setup} {pending : List Listener} {state : ServeState}
    : Mirrors (Exchanged ρ) (fun result exchanged => exchanged = (ρ.state result.1, result.2))
        (serveReady setup pending state) (serveReady setup pending (ρ.state state)) := by
  induction pending generalizing state with
  | nil => exact .ret rfl
  | cons l more ih =>
      refine acceptOne_mirrors.bind fun after exchanged same => ?_
      subst same
      refine mirrors_ask trivial fun stop => ?_
      cases stop with
      | true => exact mirrors_ask trivial fun _ => .ret rfl
      | false => exact ih

theorem serveRound_mirrors {setup : Setup} {listeners : List Listener} {state : ServeState}
    : Mirrors (Exchanged ρ) (fun result exchanged => exchanged = (ρ.state result.1, result.2))
        (serveRound setup listeners state) (serveRound setup listeners (ρ.state state)) := by
  refine mirrors_ask trivial fun now => ?_
  refine mirrors_plain finished_only (fun _ => Op.plain_of_bookkeeping) fun why => ?_
  cases why with
  | some why => exact mirrors_ask trivial fun _ => .ret rfl
  | none =>
      refine mirrors_ask trivial fun woken => ?_
      refine mirrors_ask trivial fun stop => ?_
      cases stop with
      | true => exact mirrors_ask trivial fun _ => .ret rfl
      | false =>
          match woken with
          | .ok bits => exact serveReady_mirrors
          | .error .intr => exact .ret rfl
          | .error .again | .error .noent | .error .exist | .error .pipe | .error .noprotoopt
          | .error (.other _) => exact mirrors_ask trivial fun _ => .ret rfl

/-- By induction on the rounds. -/
theorem serveLoop_mirrors {setup : Setup} {listeners : List Listener} {rounds : Nat}
    {state : ServeState}
    : Mirrors (Exchanged ρ) (fun result exchanged => exchanged = (ρ.state result.1, result.2))
        (serveLoop setup listeners rounds state)
        (serveLoop setup listeners rounds (ρ.state state)) := by
  induction rounds generalizing state with
  | zero => exact .ret rfl
  | succ rounds ih =>
      refine serveRound_mirrors.bind fun result exchanged same => ?_
      subst same
      obtain ⟨after, code⟩ := result
      cases code with
      | some code => exact .ret rfl
      | none => exact ih

end Serve

/-- The loop starts with nothing cached, which is its own counterpart. -/
theorem serve_mirrors {setup : Setup} {rounds : Nat} {listeners : List Listener}
    : Mirrors (Exchanged ρ) Eq (serve setup rounds listeners) (serve setup rounds listeners) := by
  refine mirrors_ask trivial fun lastContact => ?_
  refine (Serve.serveLoop_mirrors (ρ := ρ)).bind fun result exchanged same => ?_
  subst same
  obtain ⟨after, code⟩ := result
  cases code with
  | some code => exact .ret rfl
  | none => exact .pending

-----------------------------------------------------------------------------------------
-- The process
-----------------------------------------------------------------------------------------

theorem daemon_mirrors {setup : Setup} {rounds : Nat} {config socketDir : String}
    : Mirrors (Exchanged ρ) Eq (daemon setup rounds config socketDir)
        (daemon setup rounds config socketDir) := by
  refine mirrors_plain start_only (fun _ => Op.plain_of_starting) fun started => ?_
  cases started with
  | error code => exact .ret rfl
  | ok listeners =>
      refine serve_mirrors.bind fun code other same => ?_
      subst same
      refine mirrors_plain shutdown_only ?_ fun _ => .ret rfl
      exact fun _ clearing => Op.plain_of_starting (Op.starting_of_clearing clearing)

theorem Config.read_plain {fromStr : Json.Reader} {path : String}
    : (Config.read fromStr path).Only Op.plain := by
  refine only_ask trivial fun text => ?_
  cases text <;> trivial

theorem checkConfig_plain {fromStr : Json.Reader} {path : String}
    : (checkConfig fromStr path).Only Op.plain := by
  refine Config.read_plain.bind fun result => ?_
  cases result with
  | error e => exact ⟨trivial, fun _ => trivial⟩
  | ok loaded =>
      refine (logEach_only fun _ => trivial).bind fun _ => ?_
      split_ifs
      · trivial
      · exact ⟨trivial, fun _ => trivial⟩
      · exact (logEach_only fun _ => trivial).bind fun _ => trivial

/-- By induction on the volumes. -/
theorem clearAll_plain {dir : String} {volumes : List Volume} {stuck : Bool}
    : (clearAll dir volumes stuck).Only Op.plain := by
  have plain {op : Op} (clearing : op.clearing) : op.plain :=
    Op.plain_of_starting (Op.starting_of_clearing clearing)
  induction volumes generalizing stuck with
  | nil => trivial
  | cons volume rest ih =>
      refine (Sockets.clear_only.mono fun _ => plain).bind fun cleared => ?_
      match cleared with
      | .ok .absent => exact ih
      | .ok .removed | .ok .kept | .error _ => exact ⟨trivial, fun _ => ih⟩

theorem clearSockets_plain {fromStr : Json.Reader} {config dir : String}
    : (clearSockets fromStr config dir).Only Op.plain := by
  refine Config.read_plain.bind fun result => ?_
  cases result with
  | error e => exact ⟨trivial, fun _ => trivial⟩
  | ok loaded =>
      refine clearAll_plain.bind fun stuck => ?_
      cases stuck <;> trivial

theorem main_mirrors {setup : Setup} {rounds : Nat} {argv : List String}
    : Mirrors (Exchanged ρ) Eq (main setup rounds argv) (main setup rounds argv) := by
  have alone {program : Sys ExitCode} (plain : program.Only Op.plain)
      : Mirrors (Exchanged ρ) Eq program program :=
    .refl plain fun _ answer small => .plain answer small
  unfold main
  split_ifs
  · exact .ret rfl
  · cases Args.parseFrom argv with
    | error e => exact mirrors_ask trivial fun _ => .ret rfl
    | ok args =>
        dsimp only
        cases args.mode with
        | checkConfig => exact alone checkConfig_plain
        | clearSockets => exact alone clearSockets_plain
        | serve => exact daemon_mirrors

/-- Passphrases cannot be told apart by what the daemon asks of the machine, logs or exits with:
with the passphrases of a run exchanged one to one for others of the same lengths there is a run
that ends alike and makes the same requests but for the passphrases in its memfds and replies.
-/
theorem passphrases_unobserved (ρ : Renaming) {setup : Setup} {rounds : Nat} {argv : List String}
    {trace : Trace} {outcome : Option ExitCode}
    (run : (main setup rounds argv).Runs trace outcome)
    : ∃ mirrored : Trace, (main setup rounds argv).Runs mirrored outcome
        ∧ List.Forall₂ (Exchanged ρ) trace mirrored
        ∧ mirrored.map (fun event => event.op.redacted)
          = trace.map (fun event => event.op.redacted) := by
  obtain ⟨mirrored, ended, reflected, exchanged, ends⟩ := (main_mirrors (ρ := ρ)).runs run
  have same : outcome = ended := by
    cases ends with
    | none => rfl
    | some equal => rw [equal]
  exact ⟨mirrored, same ▸ reflected, exchanged, Exchanged.redacted_trace exchanged⟩

open Scene in
/-- Had the human typed another passphrase, that one would have been put to the test. -/
theorem passphrases_unobserved_typed
    : ∃ mirrored : Trace, (main setup 2 []).Runs mirrored (some .success)
        ∧ (mirrored.any fun event => event.op = .secretFile ⟨Text.asBytes "paper battery"⟩) = true
        ∧ mirrored.map (fun event => event.op.redacted)
          = (play (twoVolumes "yes" fun _ => [0xaa])).trace.map fun event =>
            event.op.redacted := by
  let driven := play (twoVolumes "yes" fun _ => [0xaa])
  let ρ : Renaming := .swap (Text.asBytes "correct horse") (Text.asBytes "paper battery")
    (by decide +kernel) (by decide +kernel) (by decide +kernel)
  have seen : (driven.outcome,
      driven.trace.any fun event => event.op = .secretFile ⟨Text.asBytes "correct horse"⟩)
        = (some .success, true) := by
    decide +kernel
  obtain ⟨ended, tested⟩ := Prod.mk.inj seen
  have run : (main setup 2 []).Runs driven.trace (some .success) := by
    rw [← ended]
    exact runs_drive _ _
  obtain ⟨mirrored, reflected, exchanged, same⟩ := passphrases_unobserved ρ run
  refine ⟨mirrored, reflected, ?_, same⟩
  obtain ⟨⟨op, answer⟩, member, typed⟩ := List.any_eq_true.mp tested
  obtain rfl : op = .secretFile ⟨Text.asBytes "correct horse"⟩ := by simpa using typed
  obtain ⟨other, among, counterpart⟩ := Exchanged.exists_counterpart exchanged member
  refine List.any_eq_true.mpr ⟨other, among, ?_⟩
  cases counterpart with
  | plain _ plain => exact plain.elim
  | secretFile =>
      have swapped : ρ.secret ⟨Text.asBytes "correct horse"⟩ = ⟨Text.asBytes "paper battery"⟩ :=
        congrArg Secret.mk (Equiv.swap_apply_left _ _)
      simp [swapped]

end Tpm2Autoenroll
