import Tpm2Autoenroll.Serving.Outcomes
import Tpm2Autoenroll.Serving.Rules

/-! What the passphrase cache is for: a human is not asked for a passphrase that was already
returned to some volume, and the cache holds those passphrases and no others.
-/

namespace Tpm2Autoenroll

open Interaction Prog Monitor

-----------------------------------------------------------------------------------------
-- The cache
-----------------------------------------------------------------------------------------

namespace Cache

variable {cache : Cache} {secret other : Secret}

theorem grows_insert : cache.entries <+: (cache.insert secret).entries := by
  unfold insert
  split_ifs with fresh
  · exact List.prefix_refl _
  · exact List.prefix_append _ _

@[simp]
theorem mem_insert
    : other ∈ (cache.insert secret).entries ↔ other ∈ cache.entries ∨ other = secret := by
  unfold insert
  split_ifs with known
  · exact ⟨Or.inl, fun either => either.elim id fun same => same ▸ known⟩
  · simp

end Cache

/-- A passphrase found in a list is one of the list, by induction on it. -/
theorem Acquire.mem_of_tryEach {config : Volume} {device : Device} {stopped : LogLine}
    {answered : Option LogLine} {secrets : List Secret} {trace : Trace} {secret : Secret}
    (run : (tryEach config device stopped answered secrets).Runs trace (some (.found secret)))
    : secret ∈ secrets := by
  induction secrets generalizing trace with
  | nil => cases run
  | cons first rest ih =>
      obtain ⟨stop, later, rfl, going⟩ := runs_ask.mp run
      cases stop with
      | true =>
          obtain ⟨_, _, _, ended⟩ := runs_ask.mp going
          cases ended
      | false =>
          obtain ⟨verdict, during, after, rfl, _, judged⟩ := runs_bind_some.mp going
          cases verdict with
          | correct =>
              cases answered with
              | none =>
                  cases judged
                  exact List.mem_cons_self
              | some line =>
                  obtain ⟨_, _, _, ended⟩ := runs_ask.mp judged
                  cases ended
                  exact List.mem_cons_self
          | wrong => exact List.mem_cons_of_mem _ (ih judged)
          | unusable why =>
              obtain ⟨_, _, _, ended⟩ := runs_ask.mp judged
              cases ended

/-- What one search leaves in the cache: what was there, and the passphrase it found. -/
structure Cached (cache : Cache) (found : Option Secret) (after : Cache) : Prop where
  grows : cache.entries <+: after.entries
  keeps : ∀ secret, found = some secret → secret ∈ after.entries
  only : ∀ secret ∈ after.entries, secret ∈ cache.entries ∨ found = some secret

/-- A search that found nothing, or found what was there, leaves the cache alone. -/
theorem Cached.same {cache : Cache} {found : Option Secret}
    (known : ∀ secret, found = some secret → secret ∈ cache.entries)
    : Cached cache found cache :=
  ⟨List.prefix_refl _, known, fun _ => Or.inl⟩

theorem Cached.insert {cache : Cache} {secret : Secret}
    : Cached cache (some secret) (cache.insert secret) where
  grows := Cache.grows_insert
  keeps other same := by simp [Option.some.inj same]
  only other member := by simpa [eq_comm] using member

theorem acquire_cached {config : Volume} {device : Device} {cache after : Cache}
    {found : Option Secret} {trace : Trace}
    (run : (acquire config device cache).Runs trace (some (found, after)))
    : Cached cache found after := by
  have searched {trace : Trace}
      (run : (Acquire.search config device cache).Runs trace (some (found, after)))
      : Cached cache found after := by
    obtain ⟨trials, first, second, rfl, cached, judged⟩ := runs_bind_some.mp run
    cases trials with
    | found secret =>
        cases judged
        refine .same fun other same => ?_
        rw [← Option.some.inj same]
        exact Acquire.mem_of_tryEach cached
    | abandoned =>
        cases judged
        exact .same nofun
    | exhausted =>
        obtain ⟨trials, third, fourth, rfl, prompted, ended⟩ := runs_bind_some.mp judged
        cases trials with
        | found secret =>
            cases ended
            exact .insert
        | abandoned | exhausted =>
            cases ended
            exact .same nofun
  unfold acquire at run
  split_ifs at run
  · obtain ⟨_, later, rfl, trying⟩ := runs_ask.mp run
    exact searched trying
  · exact searched run

/-- The cache after a connection: it begins with the cache before it, and holds besides only
what was found correct on the volume's device.
-/
structure Extends (managed : Volume) (cache after : Cache) (trace : Trace) : Prop where
  grows : cache.entries <+: after.entries
  correct : ∀ secret ∈ after.entries, secret ∉ cache.entries
    → ∃ device, device.name = managed.device
      ∧ (Luks.testPassphrase device secret).Ran .correct trace

theorem Extends.same {managed : Volume} {cache : Cache} {trace : Trace}
    : Extends managed cache cache trace :=
  ⟨List.prefix_refl _, fun _ member fresh => absurd member fresh⟩

theorem Extends.append {managed : Volume} {cache after : Cache} {trace : Trace}
    (extended : Extends managed cache after trace) (later : Trace)
    : Extends managed cache after (trace ++ later) where
  grows := extended.grows
  correct secret member fresh := by
    obtain ⟨device, named, ran⟩ := extended.correct secret member fresh
    exact ⟨device, named, ran.append_right later⟩

theorem Extends.append_left {managed : Volume} {cache after : Cache} {trace : Trace}
    (extended : Extends managed cache after trace) (earlier : Trace)
    : Extends managed cache after (earlier ++ trace) where
  grows := extended.grows
  correct secret member fresh := by
    obtain ⟨device, named, ran⟩ := extended.correct secret member fresh
    exact ⟨device, named, ran.append_left earlier⟩

/-- The plain phase extends the cache. -/
theorem servePassphrase_extends {setup : Setup} {conn : Fd} {config : Volume}
    {memory next : Memory} {trace : Trace}
    (run : (servePassphrase setup conn config memory).Runs trace (some next))
    : Extends config memory.cache next.cache trace := by
  obtain ⟨_, later, rfl, going⟩ := runs_ask.mp run
  obtain ⟨opened, opening, rest, rfl, openRun, going⟩ := runs_bind_some.mp going
  cases opened with
  | error e =>
      obtain ⟨_, _, rfl, ended⟩ := runs_ask.mp going
      cases ended
      exact .same
  | ok device =>
      obtain ⟨⟨found, cache⟩, acquiring, last, rfl, acquired, going⟩ := runs_bind_some.mp going
      have cached := acquire_cached acquired
      have extended : Extends config memory.cache cache acquiring := by
        refine ⟨cached.grows, fun secret member fresh => ?_⟩
        have same := (cached.only secret member).resolve_left fresh
        exact ⟨device, Device.open_name openRun, acquire_found (same ▸ acquired)⟩
      have remembered : next.cache = cache := by
        cases found with
        | none =>
            obtain ⟨_, _, _, ended⟩ := runs_ask.mp going
            cases ended
            rfl
        | some secret =>
            obtain ⟨decided, _, _, _, _, replying⟩ := runs_bind_some.mp going
            obtain ⟨_, _, _, _, _, ended⟩ := runs_bind_some.mp replying
            cases ended
            rfl
      rw [remembered]
      exact ((extended.append last).append_left opening).append_left [_]

/-- A connection extends the cache. -/
theorem handle_extends {setup : Setup} {conn : Fd} {managed : Volume} {memory next : Memory}
    {counted : Bool} {trace : Trace}
    (run : (handle setup conn managed memory).Runs trace (some (counted, next)))
    : Extends managed memory.cache next.cache trace := by
  have specified : wp (history fun _ _ => True) (handle setup conn managed memory)
      (fun result past => Extends managed memory.cache result.2.cache past) [] := by
    refine handle_wp (fun _ => True)
      (fun next past => Extends managed memory.cache next.cache past)
      (fun next past => Extends managed memory.cache next.cache past)
      (fun _ _ => trivial) (fun _ _ _ => trivial) (fun _ => .same) ?_ (fun _ => trivial) ?_ trivial
    · intro past _
      refine wp_history (only_any _) (fun _ _ _ => trivial) fun trace next served => ?_
      exact (servePassphrase_extends served).append_left past
    · intro next past answer final step extended
      rw [history_step.mp step]
      exact extended.append _
  have extended := wp_post specified run (path_history.mpr rfl)
  rwa [List.nil_append] at extended

-----------------------------------------------------------------------------------------
-- What was returned
-----------------------------------------------------------------------------------------

/-- The passphrases whose writing to a peer was begun, and whether the connection at hand has
come to that.
-/
structure ReplyLog where
  answered : Bool
  returned : List Secret

namespace ReplyLog

/-- What the first write of a connection offers is the whole passphrase. -/
def observe : ReplyLog → Event → ReplyLog
  | log, ⟨.accept _, _⟩ => { log with answered := false }
  | log, ⟨.write _ buf, _⟩ =>
      if log.answered then log else ⟨true, log.returned ++ [⟨buf⟩]⟩
  | log, _ => log

/-- The surroundings the cache is meant for, one event at a time: no stop is asked for, no
passphrase goes unchecked, and whether one is correct depends on the device and on it alone.
-/
def Steady (opens : String → Secret → Bool) : Event → Prop
  | ⟨.terminating, stop⟩ => stop = false
  | ⟨.child (.testPassphrase device key), answer⟩ =>
      ∃ out, answer = .ok out
        ∧ Luks.verdict out = if opens device.name key.secret then .correct else .wrong
  | ⟨.log (.cannotCheck _ _ _), _⟩ => False
  | _ => True

/-- What was returned in a run from its beginning. -/
def of (trace : Trace) : ReplyLog := trace.foldl observe ⟨false, []⟩

/-- A passphrase prompt may be shown for a device that nothing returned so far opens. -/
def allows (opens : String → Secret → Bool) (log : ReplyLog) : Op → Prop
  | .child (.askPassword _ device _) => ∀ secret ∈ log.returned, opens device secret = false
  | _ => True

/-- The watch over a run in such surroundings. -/
def watch (opens : String → Secret → Bool) : Monitor Res ReplyLog where
  allows := allows opens
  step log event after := Steady opens event ∧ after = log.observe event

variable {opens : String → Secret → Bool} {log : ReplyLog}

/-- The watch follows every steady run, by induction on it. -/
theorem path_watch {trace : Trace} (steady : ∀ event ∈ trace, Steady opens event)
    : (watch opens).Path log trace (trace.foldl observe log) := by
  induction trace generalizing log with
  | nil => exact .nil log
  | cons event rest ih =>
      obtain ⟨first, later⟩ := List.forall_mem_cons.mp steady
      exact .cons ⟨first, rfl⟩ (ih later)

/-- Requests that neither prompt for a passphrase nor return one. -/
@[simp]
def unseen : Op → Prop
  | .accept _ | .write _ _ | .child (.askPassword _ _ _) => False
  | _ => True

theorem observe_unseen {event : Event} (quiet : unseen event.op)
    : log.observe event = log := by
  obtain ⟨op, answer⟩ := event
  cases op <;> first | rfl | exact quiet.elim

theorem allows_of_unseen {op : Op} (quiet : unseen op) : (watch opens).allows log op := by
  show allows opens log op
  unfold allows
  split
  · exact quiet.elim
  · trivial

/-- A part that does neither. -/
theorem unseen_wp {α : Type} {program : Sys α} (only : program.Only unseen)
    : wp (watch opens) program (fun _ after => after = log) log := by
  refine wp_invariant only nofun (fun _ _ quiet _ => allows_of_unseen quiet) ?_ rfl
  intro here op answer after quiet same step
  obtain ⟨_, rfl⟩ := step
  rw [observe_unseen quiet, same]

theorem log_only {line : LogLine} : (Tpm2Autoenroll.log line).Only unseen :=
  ⟨trivial, fun _ => trivial⟩

/-- A log line on the way. -/
theorem log_wp {α : Type} {line : LogLine} {next : Sys α} {post : α → ReplyLog → Prop}
    (rest : wp (watch opens) next post log)
    : wp (watch opens) (Tpm2Autoenroll.log line >>= fun _ => next) post log :=
  wp_then (unseen_wp log_only) fun _ _ same => same ▸ rest

/-- A trial says whether the passphrase opens the device. -/
theorem testPassphrase_wp {device : Device} {secret : Secret}
    : wp (watch opens) (Luks.testPassphrase device secret)
        (fun verdict after => after = log
          ∧ (verdict = .correct → opens device.name secret = true)
          ∧ (verdict = .wrong → opens device.name secret = false)) log := by
  have created : wp (watch opens) (SecretFile.new secret)
      (fun result after => after = log ∧ ∀ key, result = .ok key → key.secret = secret) log := by
    refine wp_ask trivial fun answer after step => ?_
    obtain ⟨_, rfl⟩ := step
    cases answer with
    | error e => exact ⟨rfl, nofun⟩
    | ok fd =>
        refine ⟨rfl, fun key same => ?_⟩
        rw [← Except.ok.inj same]
  refine wp_then created fun result after facts => ?_
  obtain ⟨rfl, held⟩ := facts
  cases result with
  | error e => exact ⟨rfl, nofun, nofun⟩
  | ok key =>
      refine wp_ask trivial fun answer after step => ?_
      obtain ⟨⟨out, rfl, judged⟩, rfl⟩ := step
      refine ⟨rfl, ?_⟩
      rw [judged, held key rfl]
      cases opens device.name secret <;> simp

/-- A list of passphrases is exhausted only when none of them opens the device, by induction
on it.
-/
theorem tryEach_wp {config : Volume} {device : Device} {stopped : LogLine}
    {answered : Option LogLine} {secrets : List Secret}
    : wp (watch opens) (Acquire.tryEach config device stopped answered secrets)
        (fun result after => after = log
          ∧ (result = .exhausted → ∀ secret ∈ secrets, opens device.name secret = false)) log := by
  induction secrets with
  | nil => exact ⟨rfl, fun _ _ member => (nomatch member)⟩
  | cons first rest ih =>
      refine wp_ask trivial fun stop after step => ?_
      obtain ⟨going, rfl⟩ := step
      obtain rfl : stop = false := going
      refine wp_then testPassphrase_wp fun verdict after facts => ?_
      obtain ⟨rfl, correct, wrong⟩ := facts
      cases verdict with
      | correct =>
          cases answered with
          | none => exact ⟨rfl, nofun⟩
          | some line => exact log_wp ⟨rfl, nofun⟩
      | wrong =>
          refine wp_mono ih fun result final facts => ?_
          obtain ⟨rfl, none⟩ := facts
          exact ⟨rfl, fun ended =>
            List.forall_mem_cons.mpr ⟨wrong rfl, none ended⟩⟩
      | unusable why =>
          -- An unusable result is logged as such, which no steady run sees.
          exact wp_ask trivial fun _ _ step => step.1.elim

/-- The prompts may be shown when nothing returned so far opens the device; by induction on
the attempts.
-/
theorem tryPrompts_wp {config : Volume} {device : Device} {attempts : List Nat}
    (unopened : ∀ secret ∈ log.returned, opens config.device secret = false)
    : wp (watch opens) (Acquire.tryPrompts config device attempts)
        (fun _ after => after = log) log := by
  induction attempts with
  | nil => rfl
  | cons attempt more ih =>
      refine wp_ask trivial fun stop here step => ?_
      obtain ⟨going, same⟩ := step
      obtain rfl : stop = false := going
      obtain rfl : here = log := same
      have prompted : wp (watch opens)
          (Askpw.ask config.name config.device (if attempt = 0 then .first else .retry))
          (fun _ after => after = here) here := by
        refine wp_ask unopened fun answer after step => ?_
        cases answer with
        | error e => exact step.2
        | ok out =>
            dsimp only
            split_ifs <;> exact step.2
      refine wp_then prompted fun offered after same => ?_
      subst same
      cases offered with
      | error e => exact log_wp rfl
      | ok candidates =>
          refine wp_then tryEach_wp fun trials final facts => ?_
          obtain ⟨rfl, _⟩ := facts
          cases trials with
          | exhausted => exact log_wp ih
          | found secret => rfl
          | abandoned => rfl

/-- A search shows its prompts only when nothing returned so far opens the device. -/
theorem acquire_wp {config : Volume} {device : Device} {cache : Cache}
    (named : device.name = config.device)
    (held : ∀ secret ∈ log.returned, secret ∈ cache.entries)
    : wp (watch opens) (acquire config device cache) (fun _ after => after = log) log := by
  have searched : wp (watch opens) (Acquire.search config device cache)
      (fun _ after => after = log) log := by
    refine wp_then tryEach_wp fun trials after facts => ?_
    obtain ⟨rfl, none⟩ := facts
    cases trials with
    | found secret => rfl
    | abandoned => rfl
    | exhausted =>
        have unopened : ∀ secret ∈ after.returned, opens config.device secret = false := by
          intro secret member
          rw [← named]
          exact none rfl secret (held secret member)
        refine wp_then (tryPrompts_wp unopened) fun trials final same => ?_
        cases trials <;> exact same
  unfold acquire
  split_ifs
  · exact log_wp searched
  · exact searched

/-- Once a connection has written something, more writes return nothing else. -/
theorem answered_wp {conn : Fd} {rounds : Nat} {buf : Text.Bytes} (answered : log.answered = true)
    : wp (watch opens) (writeRounds conn rounds buf) (fun _ after => after = log) log := by
  refine wp_invariant writeRounds_only (fun _ _ _ => trivial) ?_ ?_ rfl
  · intro here op small _
    cases op with
    | child process => exact small.elim
    | _ => trivial
  · intro here op answer after small same step
    obtain ⟨_, rfl⟩ := step
    subst same
    cases op with
    | write fd buf => exact if_pos answered
    | log line => rfl
    | _ => exact small.elim

/-- A reply returns the passphrase it was given, if it comes to write at all. -/
theorem reply_wp {interruptions : Nat} {conn : Fd} {volume : String} {secret : Secret}
    (fresh : log.answered = false)
    : wp (watch opens) (reply interruptions conn volume secret)
        (fun _ after => ∀ other ∈ after.returned, other ∈ log.returned ∨ other = secret) log := by
  have written {rounds : Nat}
      : wp (watch opens) (writeRounds conn rounds secret.bytes)
          (fun _ after => ∀ other ∈ after.returned, other ∈ log.returned ∨ other = secret)
          log := by
    obtain ⟨bytes⟩ := secret
    cases bytes with
    | nil => cases rounds <;> exact fun _ => Or.inl
    | cons next later =>
        cases rounds with
        | zero => trivial
        | succ rounds =>
            refine wp_ask trivial fun answer after step => ?_
            obtain ⟨_, seen⟩ := step
            obtain rfl : after = ⟨true, log.returned ++ [⟨next :: later⟩]⟩ :=
              seen.trans (by simp [observe, fresh])
            have begun : ∀ other ∈ log.returned ++ [⟨next :: later⟩],
                other ∈ log.returned ∨ other = ⟨next :: later⟩ := by
              simp
            match answer with
            | .ok n =>
                dsimp only
                split_ifs
                · exact begun
                · exact wp_mono (answered_wp rfl) fun _ final same => same ▸ begun
            | .error .intr => exact wp_mono (answered_wp rfl) fun _ final same => same ▸ begun
            | .error .again | .error .noent | .error .exist | .error .pipe
            | .error .noprotoopt | .error (.other _) => exact begun
  refine wp_then written fun result after begun => ?_
  cases result with
  | ok => exact wp_mono (unseen_wp log_only) fun _ final same => same ▸ begun
  | error e => exact wp_mono (unseen_wp log_only) fun _ final same => same ▸ begun

/-- Everything returned so far is remembered. -/
def Remembered (memory : Memory) (log : ReplyLog) : Prop :=
  ∀ secret ∈ log.returned, secret ∈ memory.cache.entries

theorem unseen_of_identifying {op : Op} (identifying : op.identifying) : unseen op := by
  cases op with
  | child process => exact identifying.elim
  | write fd buf => exact identifying.elim
  | accept fd => exact identifying.elim
  | _ => trivial

theorem unseen_of_repairing {op : Op} (repairing : op.repairing) : unseen op := by
  cases op with
  | child process => cases process <;> trivial
  | write fd buf => exact repairing.elim
  | accept fd => exact repairing.elim
  | _ => trivial

/-- The plain phase prompts when it has to, and remembers what it returns. -/
theorem servePassphrase_wp {setup : Setup} {conn : Fd} {config : Volume} {memory : Memory}
    (held : Remembered memory log) (fresh : log.answered = false)
    : wp (watch opens) (servePassphrase setup conn config memory) Remembered log := by
  have opening : (Device.open config.device).Only unseen :=
    Device.open_requests trivial fun _ => trivial
  refine log_wp (wp_then (wp_runs (unseen_wp opening)) fun opened after facts => ?_)
  obtain ⟨rfl, _, openRun, _⟩ := facts
  cases opened with
  | error e => exact log_wp held
  | ok device =>
      have named := Device.open_name openRun
      refine wp_then (wp_runs (acquire_wp named held)) fun result after facts => ?_
      obtain ⟨rfl, _, acquired, _⟩ := facts
      obtain ⟨found, cache⟩ := result
      have cached := acquire_cached acquired
      have kept : ∀ secret ∈ after.returned, secret ∈ cache.entries :=
        fun secret member => cached.grows.subset (held secret member)
      cases found with
      | none => exact log_wp kept
      | some secret =>
          have repairing : (maybeReenroll setup.fromStr config device secret memory.decided).Only
              unseen :=
            maybeReenroll_only.mono fun _ => unseen_of_repairing
          refine wp_then (unseen_wp repairing) fun decided final same => ?_
          subst same
          refine wp_then (reply_wp fresh) fun _ final begun other member => ?_
          rcases begun other member with before | same
          · exact kept other before
          · exact same ▸ cached.keeps secret rfl

/-- A connection prompts when it has to, and remembers what it returns. -/
theorem handle_wp {setup : Setup} {conn : Fd} {managed : Volume} {memory : Memory}
    (held : Remembered memory log) (fresh : log.answered = false)
    : wp (watch opens) (handle setup conn managed memory)
        (fun result after => Remembered result.2 after) log := by
  refine Tpm2Autoenroll.handle_wp (fun here => here = log) Remembered Remembered
    ?_ ?_ ?_ ?_ (fun _ => trivial) ?_ rfl
  · intro here op _ small
    exact allows_of_unseen (unseen_of_identifying small)
  · intro here op answer next step small same
    obtain ⟨_, rfl⟩ := step
    rw [observe_unseen (unseen_of_identifying small), same]
  · intro here same
    rw [same]
    exact held
  · intro here same
    rw [same]
    exact servePassphrase_wp held fresh
  · intro memory here answer next step settled
    rw [show next = here from step.2]
    exact settled

/-- Accepting a connection and looking after the loop returns nothing. -/
theorem returned_of_serving {event : Event} (serving : event.op.serving)
    : (log.observe event).returned = log.returned := by
  obtain ⟨op, answer⟩ := event
  cases op with
  | write fd buf => exact serving.elim
  | _ => rfl

/-- Between connections everything returned so far is remembered. -/
theorem serving {setup : Setup} {listeners : List Listener}
    : ServeInvariant (watch opens) setup listeners Remembered Remembered := by
  refine .of_kept (fun _ => trivial) ?_ ?_ ?_
  · intro _ log op _ small
    cases op with
    | child process => exact small.elim
    | _ => trivial
  · intro memory log op answer after step small held secret member
    obtain ⟨_, rfl⟩ := step
    rw [returned_of_serving small] at member
    exact held secret member
  · intro l memory log conn after _ step held
    obtain ⟨_, rfl⟩ := step
    exact handle_wp held rfl

theorem unseen_of_starting {op : Op} (starting : op.starting) : unseen op := by
  cases op with
  | child process => exact starting.elim
  | write fd buf => exact starting.elim
  | accept fd => exact starting.elim
  | _ => trivial

/-- The start of the daemon returns nothing. -/
theorem start_wp {fromStr : Json.Reader} {config dir : String}
    : wp (watch opens) (start fromStr config dir) (fun _ after => after = log) log :=
  unseen_wp (start_only.mono fun _ => unseen_of_starting)

/-- Every run of the daemon prompts only when it has to. -/
theorem daemon_wp {setup : Setup} {rounds : Nat} {config dir : String}
    : wp (watch opens) (daemon setup rounds config dir) (fun _ _ => True) ⟨false, []⟩ := by
  refine Tpm2Autoenroll.daemon_wp (fun _ log => log = ⟨false, []⟩) ?_ ?_
  · exact wp_mono start_wp fun _ _ same _ _ => same
  · intro listeners log same
    refine ⟨_, _, serving, ?_, fun _ _ _ => shutdown_wp fun log op small => ?_⟩
    · rw [same]
      exact fun _ member => nomatch member
    · cases op with
      | child process => exact small.elim
      | _ => trivial

end ReplyLog

-----------------------------------------------------------------------------------------
-- Between connections
-----------------------------------------------------------------------------------------

/-- An event of the accept loop itself, with no connection accepted. -/
def Event.looping : Event → Prop
  | ⟨.accept _, .ok _⟩ => False
  | ⟨op, _⟩ => op.serving

/-- The daemon has started with these listeners and has served some connections since, with
these events in all, and this is what it remembers.
-/
inductive Reached (setup : Setup) (config dir : String) (listeners : List Listener)
    : Trace → Memory → Prop
  | started {trace : Trace}
    (run : (start setup.fromStr config dir).Runs trace (some (.ok listeners)))
    : Reached setup config dir listeners trace .new
  | between {past : Trace} {memory : Memory} {event : Event}
    (earlier : Reached setup config dir listeners past memory) (own : Event.looping event)
    : Reached setup config dir listeners (past ++ [event]) memory
  | handled {past during : Trace} {memory next : Memory} {l : Listener} {conn : Fd}
    {counted : Bool} (earlier : Reached setup config dir listeners past memory)
    (member : l ∈ listeners)
    (run : (handle setup conn l.volume memory).Runs during (some (counted, next)))
    : Reached setup config dir listeners (past ++ ⟨.accept l.fd, .ok conn⟩ :: during) next

namespace Reached

variable {setup : Setup} {config dir : String} {listeners : List Listener}

/-- A connection may be accepted on a listener of a state that is reached. -/
def allows (setup : Setup) (config dir : String) (past : Trace) (op : Op) : Prop :=
  ∀ fd, op = .accept fd
    → ∃ listeners memory l, l ∈ listeners ∧ l.fd = fd
      ∧ Reached setup config dir listeners past memory

/-- Every state of the accept loop is reached. -/
theorem serving
    : ServeInvariant (history (allows setup config dir)) setup listeners
        (fun memory past => Reached setup config dir listeners past memory)
        (fun memory past => Reached setup config dir listeners past memory) := by
  have kept {op : Op} {answer : Res op} {memory : Memory} {past after : Trace}
      (step : (history (allows setup config dir)).step past ⟨op, answer⟩ after)
      (small : op.bookkeeping) (reached : Reached setup config dir listeners past memory)
      : Reached setup config dir listeners after memory := by
    rw [history_step.mp step]
    refine reached.between ?_
    cases op <;> first | exact small | exact small.elim
  exact {
    relax := id
    rests := fun _ => trivial
    quiet := fun _ small fd same => by
      subst same
      exact small.elim
    kept
    keptArmed := kept
    polls := fun _ fd => nofun
    polled := fun step reached => by
      rw [history_step.mp step]
      exact reached.between trivial
    checks := fun _ fd => nofun
    checked := fun step reached => by
      rw [history_step.mp step]
      exact ⟨reached.between trivial, fun _ => reached.between trivial⟩
    accepts := fun member reached fd same => by
      cases same
      exact ⟨_, _, _, member, rfl, reached⟩
    refused := fun _ step reached => by
      rw [history_step.mp step]
      exact reached.between trivial
    handled := fun member step reached => by
      rw [history_step.mp step]
      refine wp_history handle_only ?_ fun trace result run => ?_
      · intro past op small fd same
        subst same
        simp at small
      · rw [List.append_assoc]
        exact reached.handled member run
  }

/-- Every connection of the daemon is accepted in a state that is reached. -/
theorem daemon_wp {rounds : Nat}
    : wp (history (allows setup config dir)) (daemon setup rounds config dir)
        (fun _ _ => True) [] := by
  refine Tpm2Autoenroll.daemon_wp
    (fun listeners past => Reached setup config dir listeners past .new) ?_ ?_
  · refine wp_history start_only ?_ fun trace result run listeners made => ?_
    · intro past op small fd same
      subst same
      exact small.elim
    · exact .started (made ▸ run)
  · intro listeners past reached
    refine ⟨_, _, serving, reached, fun _ _ _ => shutdown_wp fun past op small fd same => ?_⟩
    subst same
    exact small.elim

/-- In steady surroundings everything returned so far is remembered; by induction on the
connections.
-/
theorem remembered {opens : String → Secret → Bool} {past : Trace} {memory : Memory}
    (reached : Reached setup config dir listeners past memory)
    (steady : ∀ event ∈ past, ReplyLog.Steady opens event)
    : ReplyLog.Remembered memory (ReplyLog.of past) := by
  induction reached with
  | @started trace run =>
      have path : (ReplyLog.watch opens).Path ⟨false, []⟩ trace (ReplyLog.of trace) :=
        ReplyLog.path_watch steady
      have silent := wp_post ReplyLog.start_wp run path
      rw [silent]
      exact fun _ member => nomatch member
  | @between past memory event earlier own ih =>
      obtain ⟨before, _⟩ := List.forall_mem_append.mp steady
      have loop : event.op.serving := by
        obtain ⟨op, answer⟩ := event
        cases op <;> first | exact own | trivial
      intro secret member
      rw [ReplyLog.of, List.foldl_append, List.foldl_cons, List.foldl_nil,
        ReplyLog.returned_of_serving loop] at member
      exact ih before secret member
  | @handled past during memory next l conn counted earlier served run ih =>
      obtain ⟨before, here⟩ := List.forall_mem_append.mp steady
      have begun : ReplyLog.Remembered memory
          ((ReplyLog.of past).observe ⟨.accept l.fd, .ok conn⟩) := ih before
      have settled := wp_post (ReplyLog.handle_wp begun rfl) run
        (ReplyLog.path_watch (List.forall_mem_cons.mp here).2)
      rw [ReplyLog.of, List.foldl_append, List.foldl_cons]
      exact settled

/-- The cache holds only what was found correct on the device of some volume; by induction on
the connections.
-/
theorem correct {past : Trace} {memory : Memory}
    (reached : Reached setup config dir listeners past memory)
    : ∀ secret ∈ memory.cache.entries, ∃ l ∈ listeners, ∃ device, device.name = l.volume.device
        ∧ (Luks.testPassphrase device secret).Ran .correct past := by
  induction reached with
  | started run => exact fun _ member => nomatch member
  | between earlier own ih =>
      intro secret member
      obtain ⟨l, served, device, named, ran⟩ := ih secret member
      exact ⟨l, served, device, named, ran.append_right _⟩
  | @handled past during memory next l conn counted earlier served run ih =>
      intro secret member
      by_cases before : secret ∈ memory.cache.entries
      · obtain ⟨other, known, device, named, ran⟩ := ih secret before
        exact ⟨other, known, device, named, ran.append_right _⟩
      · obtain ⟨device, named, ran⟩ := (handle_extends run).correct secret member before
        exact ⟨l, served, device, named, (ran.append_left [_]).append_left past⟩

end Reached

/-- A human is asked once. In every run of the daemon in steady surroundings a passphrase
prompt is shown only when nothing returned in the run so far opens the device, and everything
returned is cached. Every connection is accepted in a state that is reached; there nothing is
cached twice, whatever is cached was found correct on the device of some volume in this run,
and serving a connection can only append to the cache.
-/
theorem ask_once {setup : Setup} {config dir : String} {opens : String → Secret → Bool}
    : (∀ rounds before volume device attempt answer after outcome,
        (daemon setup rounds config dir).Runs
          (before ++ ⟨.child (.askPassword volume device attempt), answer⟩ :: after) outcome
        → (∀ event ∈ before, ReplyLog.Steady opens event)
        → ∀ secret ∈ (ReplyLog.of before).returned, opens device secret = false)
      ∧ (∀ rounds before fd answer after outcome,
        (daemon setup rounds config dir).Runs (before ++ ⟨.accept fd, answer⟩ :: after) outcome
        → ∃ listeners memory l, l ∈ listeners ∧ l.fd = fd
          ∧ Reached setup config dir listeners before memory)
      ∧ (∀ listeners past memory, Reached setup config dir listeners past memory
        → ((∀ event ∈ past, ReplyLog.Steady opens event)
            → ∀ secret ∈ (ReplyLog.of past).returned, secret ∈ memory.cache.entries)
          ∧ memory.cache.entries.Nodup
          ∧ (∀ secret ∈ memory.cache.entries, ∃ l ∈ listeners, ∃ device,
            device.name = l.volume.device
            ∧ (Luks.testPassphrase device secret).Ran .correct past)
          ∧ ∀ l ∈ listeners, ∀ conn during counted next,
            (handle setup conn l.volume memory).Runs during (some (counted, next))
            → memory.cache.entries <+: next.cache.entries) := by
  refine ⟨?_, ?_, ?_⟩
  · intro rounds before volume device attempt answer after outcome run steady
    exact wp_allows ReplyLog.daemon_wp run (ReplyLog.path_watch steady)
  · intro rounds before fd answer after outcome run
    exact wp_allows Reached.daemon_wp run (path_history.mpr rfl) fd rfl
  · intro listeners past memory reached
    refine ⟨reached.remembered, memory.cache.distinct, reached.correct, ?_⟩
    intro l _ conn during counted next run
    exact (handle_extends run).grows

end Tpm2Autoenroll
