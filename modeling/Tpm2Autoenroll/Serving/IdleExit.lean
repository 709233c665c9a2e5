import Tpm2Autoenroll.Serving.Rules
import Tpm2Autoenroll.Serving.Scenes

/-! When the daemon stops for want of connections, on a clock. It counts from the last connection
that it has answered, not from the last one it has accepted.
-/

namespace Tpm2Autoenroll

open Interaction Prog Monitor

-----------------------------------------------------------------------------------------
-- A clock
-----------------------------------------------------------------------------------------

/-- The time, and when each connection was accepted. -/
structure Watch where
  time : Nat
  accepted : List Nat

/-- What an event has to do with the time that it happens at. -/
def Watch.Sees (time : Nat) : Event → Prop
  | ⟨.now, answer⟩ => answer = time
  | _ => True

/-- The times of acceptance after an event at this time. -/
def Watch.note (time : Nat) (accepted : List Nat) : Event → List Nat
  | ⟨.accept _, .ok _⟩ => time :: accepted
  | _ => accepted

/-- A run on a clock that never goes back and that the daemon reads. -/
def clock : Monitor Res Watch where
  allows _ _ := True
  step before event after :=
    before.time ≤ after.time
    ∧ Watch.Sees after.time event
    ∧ after.accepted = Watch.note after.time before.accepted event

/-- No connection is accepted. -/
def NoneAccepted (trace : Trace) : Prop := ∀ fd conn, ⟨.accept fd, .ok conn⟩ ∉ trace

/-- Other requests accept none. -/
theorem NoneAccepted.of_only {trace : Trace}
    (other : ∀ event ∈ trace, ∀ fd, event.op ≠ .accept fd)
    : NoneAccepted trace :=
  fun fd _ member => other _ member fd rfl

theorem NoneAccepted.append {first second : Trace} (one : NoneAccepted first)
    (other : NoneAccepted second)
    : NoneAccepted (first ++ second) := by
  intro fd conn member
  rcases List.mem_append.mp member with member | member
  · exact one fd conn member
  · exact other fd conn member

variable {trace : Trace} {s after : Watch}

/-- Time passes, by induction on the events. -/
theorem clock_le (path : clock.Path s trace after) : s.time ≤ after.time := by
  induction path with
  | nil => exact le_rfl
  | cons first later ih => exact first.1.trans ih

/-- As long as nothing is accepted only the time changes, by induction on the events. -/
theorem clock_quiet (path : clock.Path s trace after) (quiet : NoneAccepted trace)
    : after.accepted = s.accepted := by
  induction path with
  | nil => rfl
  | @cons start middle final event rest first later ih =>
      have unseen : Watch.note middle.time start.accepted event = start.accepted := by
        unfold Watch.note
        split
        next fd conn => exact absurd List.mem_cons_self (quiet fd conn)
        · rfl
      rw [ih fun fd conn member => quiet fd conn (List.mem_cons_of_mem _ member), first.2.2, unseen]

-----------------------------------------------------------------------------------------
-- One connection
-----------------------------------------------------------------------------------------

/-- The peer has systemd-cryptsetup's name in the plain phase of this volume. -/
def PlainPeer (managed : Volume) (answer : Except Errno (Option PeerAddress)) : Prop :=
  ∃ name peer, answer = .ok (some (.abstractName name)) ∧ Bindname.parse name = some peer
    ∧ peer.volume = Text.asBytes managed.name ∧ peer.phase = .plain

/-- The peer of a connection that was named so is not in that phase, or fails the check of who it
is.
-/
def Declined (setup : Setup) (conn : Fd) (managed : Volume)
    (answer : Except Errno (Option PeerAddress)) (rest : Trace) : Prop :=
  ¬ PlainPeer managed answer
  ∨ ∃ checking later why, rest = checking ++ later
    ∧ (Peer.check setup.systemdBinary conn managed.name).Runs checking (some (.error why))

variable {setup : Setup} {conn : Fd} {managed : Volume}

/-- A phase is found where the peer's name says so. -/
theorem identify_run {phase : Option Bindname.Phase}
    (run : (identify conn managed).Runs trace (some phase))
    : ∃ answer rest, trace = ⟨.getpeername conn, answer⟩ :: rest
        ∧ (phase = some .plain ∧ rest = [] ∨ phase ≠ some .plain ∧ ¬ PlainPeer managed answer) := by
  obtain ⟨answer, rest, rfl, judged⟩ := runs_ask.mp run
  refine ⟨answer, rest, rfl, ?_⟩
  match answer with
  | .error e | .ok none | .ok (some .foreign) | .ok (some .unix) =>
      obtain ⟨_, _, rfl, returned⟩ := runs_ask.mp judged
      obtain ⟨rfl, rfl⟩ := runs_pure_some.mp returned
      exact Or.inr ⟨nofun, fun ⟨_, _, same, _⟩ => nomatch same⟩
  | .ok (some (.abstractName name)) =>
      have named {other : Text.Bytes} {peer : Bindname.PeerName}
          (same : (Except.ok (some (.abstractName name)) : Except Errno (Option PeerAddress))
            = .ok (some (.abstractName other)))
          (parsed : Bindname.parse other = some peer)
          : Bindname.parse name = some peer := by
        cases same
        exact parsed
      dsimp only at judged
      split at judged
      next unparsed =>
        obtain ⟨_, _, rfl, returned⟩ := runs_ask.mp judged
        obtain ⟨rfl, rfl⟩ := runs_pure_some.mp returned
        refine Or.inr ⟨nofun, fun ⟨_, _, same, parsed, _⟩ => ?_⟩
        rw [named same parsed] at unparsed
        cases unparsed
      next peer parsed =>
        split_ifs at judged with elsewhere
        · obtain ⟨_, _, rfl, returned⟩ := runs_ask.mp judged
          obtain ⟨rfl, rfl⟩ := runs_pure_some.mp returned
          refine Or.inr ⟨nofun, fun ⟨_, _, same, found, here, _⟩ => elsewhere ?_⟩
          rw [named same found] at parsed
          cases parsed
          exact here
        · obtain ⟨rfl, rfl⟩ := runs_pure_some.mp judged
          by_cases plain : peer.phase = .plain
          · exact Or.inl ⟨by rw [plain], rfl⟩
          · refine Or.inr ⟨fun same => plain (Option.some.inj same), ?_⟩
            rintro ⟨_, _, same, found, _, phase⟩
            rw [named same found] at parsed
            cases parsed
            exact plain phase

/-- A connection does not count only if its peer was declined. -/
theorem handle_run {memory : Memory} {result : Bool × Memory}
    (run : (handle setup conn managed memory).Runs trace (some result))
    : ∃ answer rest, trace = ⟨.getpeername conn, answer⟩ :: rest
        ∧ (result.1 = true ∨ Declined setup conn managed answer rest) := by
  obtain ⟨handled, first, second, rfl, dispatched, closed⟩ := runs_bind_some.mp run
  obtain ⟨_, _, rfl, returned⟩ := runs_ask.mp closed
  obtain ⟨rfl, rfl⟩ := runs_pure_some.mp returned
  obtain ⟨phase, identifying, third, rfl, identified, answered⟩ := runs_bind_some.mp dispatched
  obtain ⟨answer, rest, rfl, found⟩ := identify_run identified
  refine ⟨answer, _, rfl, ?_⟩
  rcases found with ⟨rfl, rfl⟩ | ⟨_, other⟩
  · obtain ⟨verdict, checking, later, rfl, checked, served⟩ := runs_bind_some.mp answered
    cases verdict with
    | error why =>
        exact Or.inr (Or.inr ⟨checking, _, why, List.append_assoc checking later _, checked⟩)
    | ok =>
        obtain ⟨_, serving, last, rfl, _, returned⟩ := runs_bind_some.mp served
        obtain ⟨rfl, rfl⟩ := runs_pure_some.mp returned
        exact Or.inl rfl
  · exact Or.inr (Or.inl other)

-----------------------------------------------------------------------------------------
-- The accept loop
-----------------------------------------------------------------------------------------

variable {listeners : List Listener}

/-- The peer of the last connection that was accepted was declined. -/
def LastDeclined (setup : Setup) (listeners : List Listener) (trace : Trace) : Prop :=
  ∃ before, ∃ l ∈ listeners, ∃ conn answer rest,
    trace = before ++ ⟨.accept l.fd, .ok conn⟩ :: ⟨.getpeername conn, answer⟩ :: rest
    ∧ NoneAccepted rest
    ∧ Declined setup conn l.volume answer rest

/-- The time that the daemon counts from is not before any connection, unless the last one was
declined.
-/
structure Current (setup : Setup) (listeners : List Listener) (past : Trace) (s : Watch)
    (lastContact : Nat) : Prop where
  before : lastContact ≤ s.time
  recorded : ∀ time ∈ s.accepted, time ≤ s.time
  latest : (∀ time ∈ s.accepted, time ≤ lastContact) ∨ LastDeclined setup listeners past

theorem Declined.append {answer : Except Errno (Option PeerAddress)} {rest : Trace}
    (declined : Declined setup conn managed answer rest) (more : Trace)
    : Declined setup conn managed answer (rest ++ more) := by
  rcases declined with other | ⟨checking, later, why, rfl, checked⟩
  · exact Or.inl other
  · exact Or.inr ⟨checking, later ++ more, why, List.append_assoc _ _ _, checked⟩

theorem LastDeclined.append {past more : Trace} (last : LastDeclined setup listeners past)
    (quiet : NoneAccepted more)
    : LastDeclined setup listeners (past ++ more) := by
  obtain ⟨before, l, member, conn, answer, rest, rfl, alone, declined⟩ := last
  exact ⟨before, l, member, conn, answer, rest ++ more, by simp, alone.append quiet,
    declined.append more⟩

/-- Nothing changes while nothing is accepted. -/
theorem Current.quiet {past : Trace} {lastContact : Nat}
    (current : Current setup listeners past s lastContact) (path : clock.Path s trace after)
    (quiet : NoneAccepted trace)
    : Current setup listeners (past ++ trace) after lastContact where
  before := current.before.trans (clock_le path)
  recorded := by
    rw [clock_quiet path quiet]
    exact fun time member => (current.recorded time member).trans (clock_le path)
  latest := by
    rw [clock_quiet path quiet]
    exact current.latest.imp_right fun last => last.append quiet

namespace Serve

variable {state : ServeState} {past : Trace}

/-- An accepted connection is answered, which is when the daemon counts from, or declined. -/
theorem acceptOne_current {l : Listener} {next : ServeState} (member : l ∈ listeners)
    (run : (acceptOne setup l state).Runs trace (some next)) (path : clock.Path s trace after)
    (current : Current setup listeners past s state.lastContact)
    : Current setup listeners (past ++ trace) after next.lastContact := by
  obtain ⟨accepted, rest, rfl, answered⟩ := runs_ask.mp run
  match accepted with
  | .ok conn =>
      obtain ⟨⟨counts, memory⟩, handling, last, rfl, handled, counted⟩ :=
        runs_bind_some.mp answered
      obtain ⟨middle, ⟨began, _, noted⟩, path⟩ := path_cons.mp path
      have sofar : ∀ time ∈ middle.accepted, time ≤ middle.time := by
        rw [noted]
        intro time recorded
        rcases List.mem_cons.mp recorded with rfl | recorded
        · exact le_rfl
        · exact (current.recorded time recorded).trans began
      have quiet : NoneAccepted handling := .of_only fun event happened fd same => by
        have connecting := handle_only.mem handled happened
        rw [same] at connecting
        simp at connecting
      dsimp only at counted
      split_ifs at counted with lasting
      · -- The clock is read once the connection is answered.
        obtain ⟨(now : Nat), _, rfl, returned⟩ := runs_ask.mp counted
        obtain ⟨rfl, rfl⟩ := runs_pure_some.mp returned
        have silent : NoneAccepted [⟨.now, now⟩] := .of_only (by simp)
        obtain ⟨answering, _, reading⟩ := path_append.mp path
        obtain ⟨final, ⟨_, (same : now = _), _⟩, ended⟩ := path_cons.mp reading
        obtain rfl := path_nil.mp ended
        have recorded : ∀ time ∈ after.accepted, time ≤ after.time := by
          rw [clock_quiet path (quiet.append silent)]
          exact fun time member => (sofar time member).trans (clock_le path)
        refine ⟨same.le, recorded, Or.inl fun time member => ?_⟩
        exact (recorded time member).trans same.ge
      · -- What was accepted before counts on, so this peer must have been declined.
        obtain ⟨rfl, rfl⟩ := runs_pure_some.mp counted
        rw [List.append_nil] at path ⊢
        obtain ⟨answer, more, rfl, outcome⟩ := handle_run handled
        refine ⟨current.before.trans (began.trans (clock_le path)), ?_, Or.inr ?_⟩
        · rw [clock_quiet path quiet]
          exact fun time member => (sofar time member).trans (clock_le path)
        · refine ⟨past, l, member, conn, answer, more, rfl, ?_, outcome.resolve_left lasting⟩
          exact fun fd conn member => quiet fd conn (List.mem_cons_of_mem _ member)
  | .error .intr | .error .again =>
      obtain ⟨rfl, rfl⟩ := runs_pure_some.mp answered
      exact current.quiet path fun fd conn member => nomatch List.mem_singleton.mp member
  | .error .noent | .error .exist | .error .pipe | .error .noprotoopt | .error (.other _) =>
      obtain ⟨_, _, rfl, returned⟩ := runs_ask.mp answered
      obtain ⟨rfl, rfl⟩ := runs_pure_some.mp returned
      refine current.quiet path fun fd conn member => ?_
      rcases List.mem_cons.mp member with same | member
      · cases same
      · cases List.mem_singleton.mp member

/-- The loop over the ready listeners, by induction on them. -/
theorem serveReady_current {pending : List Listener} {next : ServeState}
    (members : ∀ l ∈ pending, l ∈ listeners)
    (run : (serveReady setup pending state).Runs trace (some (next, none)))
    (path : clock.Path s trace after)
    (current : Current setup listeners past s state.lastContact)
    : Current setup listeners (past ++ trace) after next.lastContact := by
  induction pending generalizing state s past trace with
  | nil =>
      obtain ⟨rfl, same⟩ := runs_pure_some.mp run
      cases same
      exact current.quiet path nofun
  | cons l more ih =>
      obtain ⟨first, rest⟩ := List.forall_mem_cons.mp members
      obtain ⟨one, accepting, later, rfl, accepted, goOn⟩ := runs_bind_some.mp run
      obtain ⟨middle, before, path⟩ := path_append.mp path
      have answered := acceptOne_current first accepted before current
      obtain ⟨stop, remaining, rfl, decided⟩ := runs_ask.mp goOn
      cases stop with
      | true =>
          obtain ⟨_, _, rfl, returned⟩ := runs_ask.mp decided
          cases (runs_pure_some.mp returned).2
      | false =>
          obtain ⟨checked, check, path⟩ := path_cons.mp path
          have settled := answered.quiet (path_cons.mpr ⟨checked, check, path_nil.mpr rfl⟩)
            (.of_only (by simp))
          have final := ih rest decided path settled
          simpa using final

/-- The reason that the claim of idleness is made with. -/
def idleReason : String := "no connection for 300 seconds"

/-- No connection was accepted for as long as that. -/
def Idled (s : Watch) : Prop := ∀ time ∈ s.accepted, time + idleLimit ≤ s.time

/-- The daemon said why it stops, and where it said that it was idle it was, unless the last peer
was declined.
-/
def Stopped (setup : Setup) (listeners : List Listener) (past trace : Trace) (s : Watch) : Prop :=
  ∃ earlier line, trace = earlier ++ [⟨.log line, ()⟩]
    ∧ (line = .finished idleReason → Idled s ∨ LastDeclined setup listeners (past ++ trace))

/-- A trace that ends with another reason. -/
theorem Stopped.otherwise (line : LogLine) (other : line ≠ .finished idleReason)
    (earlier : Trace)
    : Stopped setup listeners past (earlier ++ [⟨.log line, ()⟩]) s :=
  ⟨earlier, line, rfl, fun same => absurd same other⟩

theorem Stopped.later (first : Trace)
    (stopped : Stopped setup listeners (past ++ first) trace s)
    : Stopped setup listeners past (first ++ trace) s := by
  obtain ⟨earlier, line, rfl, idled⟩ := stopped
  refine ⟨first ++ earlier, line, (List.append_assoc _ _ _).symm, fun same => ?_⟩
  simpa using idled same

/-- The daemon is idle for that reason only after that long. -/
theorem finished_run {volumes : List String} {served : Finset String} {idle : Nat}
    {trace : Trace}
    (run : (finished volumes served idle).Runs trace (some (some idleReason)))
    : idleLimit ≤ idle := by
  obtain ⟨done, first, rest, rfl, _, decided⟩ := runs_bind_some.mp run
  split_ifs at decided with all long
  · obtain ⟨_, same⟩ := runs_pure_some.mp decided
    exact absurd (Option.some.inj same) (by decide)
  · exact long
  · cases (runs_pure_some.mp decided).2

/-- The loop over the ready listeners is left only when asked to, by induction on them. -/
theorem serveReady_stops {pending : List Listener} {next : ServeState} {code : ExitCode}
    (run : (serveReady setup pending state).Runs trace (some (next, some code)))
    : ∃ earlier, trace = earlier ++ [⟨.log .askedToStop, ()⟩] := by
  induction pending generalizing state trace with
  | nil => cases (runs_pure_some.mp run).2
  | cons l more ih =>
      obtain ⟨one, accepting, later, rfl, _, goOn⟩ := runs_bind_some.mp run
      obtain ⟨stop, remaining, rfl, decided⟩ := runs_ask.mp goOn
      cases stop with
      | true =>
          obtain ⟨_, _, rfl, returned⟩ := runs_ask.mp decided
          obtain ⟨rfl, _⟩ := runs_pure_some.mp returned
          exact ⟨accepting ++ [⟨.terminating, true⟩], by rw [List.append_assoc]; rfl⟩
      | false =>
          obtain ⟨earlier, rfl⟩ := ih decided
          exact ⟨accepting ++ ⟨.terminating, false⟩ :: earlier, by simp⟩

/-- One trip round the loop that is not the last. -/
theorem serveRound_current {next : ServeState}
    (run : (serveRound setup listeners state).Runs trace (some (next, none)))
    (path : clock.Path s trace after)
    (current : Current setup listeners past s state.lastContact)
    : Current setup listeners (past ++ trace) after next.lastContact := by
  obtain ⟨now, rest, rfl, checked⟩ := runs_ask.mp run
  obtain ⟨why, finishing, later, rfl, finished, goOn⟩ := runs_bind_some.mp checked
  cases why with
  | some why =>
      obtain ⟨_, _, rfl, returned⟩ := runs_ask.mp goOn
      cases (runs_pure_some.mp returned).2
  | none =>
      obtain ⟨woken, polled, rfl, decided⟩ := runs_ask.mp goOn
      obtain ⟨stop, accepting, rfl, chosen⟩ := runs_ask.mp decided
      -- Nothing is accepted before the poll.
      let poll : Event := ⟨.poll _, woken⟩
      let waiting : Trace := ⟨.now, now⟩ :: finishing ++ [poll, ⟨.terminating, stop⟩]
      have split : ⟨.now, now⟩ :: (finishing ++ poll :: ⟨.terminating, stop⟩ :: accepting)
          = waiting ++ accepting := by simp [waiting]
      have quiet : NoneAccepted waiting := .of_only fun event happened fd same => by
        simp only [waiting, List.cons_append, List.mem_cons, List.mem_append, List.not_mem_nil,
          or_false] at happened
        rcases happened with rfl | happened | rfl | rfl
        · cases same
        · have bookkeeping := finished_only.mem finished happened
          rw [same] at bookkeeping
          exact bookkeeping
        · cases same
        · cases same
      rw [split] at path ⊢
      obtain ⟨middle, before, onwards⟩ := path_append.mp path
      have settled := current.quiet before quiet
      rw [← List.append_assoc]
      cases stop with
      | true =>
          obtain ⟨_, _, rfl, returned⟩ := runs_ask.mp chosen
          cases (runs_pure_some.mp returned).2
      | false =>
          match woken with
          | .ok bits => exact serveReady_current (fun l => mem_of_mem_ready) chosen onwards settled
          | .error .intr =>
              obtain ⟨rfl, same⟩ := runs_pure_some.mp chosen
              cases same
              exact settled.quiet onwards nofun
          | .error .again | .error .noent | .error .exist | .error .pipe | .error .noprotoopt
          | .error (.other _) =>
              obtain ⟨_, _, rfl, returned⟩ := runs_ask.mp chosen
              cases (runs_pure_some.mp returned).2

/-- What the last trip says. -/
theorem serveRound_stops {next : ServeState} {code : ExitCode}
    (run : (serveRound setup listeners state).Runs trace (some (next, some code)))
    (path : clock.Path s trace after)
    (current : Current setup listeners past s state.lastContact)
    : Stopped setup listeners past trace after := by
  obtain ⟨(now : Nat), rest, rfl, checked⟩ := runs_ask.mp run
  obtain ⟨why, finishing, later, rfl, finished, goOn⟩ := runs_bind_some.mp checked
  cases why with
  | some why =>
      obtain ⟨_, _, rfl, returned⟩ := runs_ask.mp goOn
      obtain ⟨rfl, _⟩ := runs_pure_some.mp returned
      refine ⟨_ :: finishing, _, rfl, fun same => ?_⟩
      obtain rfl : why = idleReason := LogLine.finished.inj same
      have long : idleLimit ≤ now - state.lastContact := finished_run finished
      have quiet : NoneAccepted (finishing ++ [⟨.log (.finished idleReason), ()⟩]) := by
        refine .append (.of_only fun event happened fd same => ?_) (.of_only (by simp))
        have bookkeeping := finished_only.mem finished happened
        rw [same] at bookkeeping
        exact bookkeeping
      obtain ⟨read, ⟨began, (reading : now = _), noted⟩, onwards⟩ := path_cons.mp path
      have idle : now ≤ after.time := reading ▸ clock_le onwards
      have same : after.accepted = s.accepted := (clock_quiet onwards quiet).trans noted
      rcases current.latest with latest | last
      · refine Or.inl fun time member => ?_
        rw [same] at member
        have early := latest time member
        unfold idleLimit at long ⊢
        omega
      · refine Or.inr (last.append ?_)
        have reads : NoneAccepted [⟨.now, now⟩] := .of_only (by simp)
        exact reads.append quiet
  | none =>
      obtain ⟨woken, polled, rfl, decided⟩ := runs_ask.mp goOn
      obtain ⟨stop, ready, rfl, chosen⟩ := runs_ask.mp decided
      cases stop with
      | true =>
          obtain ⟨_, _, rfl, returned⟩ := runs_ask.mp chosen
          obtain ⟨rfl, _⟩ := runs_pure_some.mp returned
          refine .later (⟨.now, now⟩ :: finishing) ?_
          exact .otherwise .askedToStop nofun [_, _]
      | false =>
          match woken with
          | .ok bits =>
              obtain ⟨earlier, rfl⟩ := serveReady_stops chosen
              refine .later (⟨.now, now⟩ :: finishing) ?_
              exact .otherwise .askedToStop nofun (_ :: _ :: earlier)
          | .error .intr => cases (runs_pure_some.mp chosen).2
          | .error .again | .error .noent | .error .exist | .error .pipe | .error .noprotoopt
          | .error (.other _) =>
              obtain ⟨_, _, rfl, returned⟩ := runs_ask.mp chosen
              obtain ⟨rfl, _⟩ := runs_pure_some.mp returned
              refine .later (⟨.now, now⟩ :: finishing) ?_
              exact .otherwise (.pollFailed _) nofun [_, _]

/-- What the loop says at its end, by induction on its trips. -/
theorem serveLoop_stops {rounds : Nat} {next : ServeState} {code : ExitCode}
    (run : (serveLoop setup listeners rounds state).Runs trace (some (next, some code)))
    (path : clock.Path s trace after)
    (current : Current setup listeners past s state.lastContact)
    : Stopped setup listeners past trace after := by
  induction rounds generalizing state s past trace with
  | zero => cases (runs_pure_some.mp run).2
  | succ rounds ih =>
      obtain ⟨⟨reached, outcome⟩, trip, later, rfl, once, goOn⟩ := runs_bind_some.mp run
      obtain ⟨middle, before, onwards⟩ := path_append.mp path
      cases outcome with
      | none => exact .later trip (ih goOn onwards (serveRound_current once before current))
      | some last =>
          obtain ⟨rfl, _⟩ := runs_pure_some.mp goOn
          rw [List.append_nil] at path ⊢
          exact serveRound_stops once path current

end Serve

variable {rounds start : Nat} {code : ExitCode}

/-- The idle exit counts from the last connection that was answered. Whenever the daemon stops
because there was no connection for its time limit, none was accepted during that time, unless the
peer of the last one was declined: one in another phase than the plain one, or one that failed the
check of who it is.
-/
theorem idle_exit (run : (serve setup rounds listeners).Runs trace (some code))
    (path : clock.Path ⟨start, []⟩ trace after)
    (idle : trace.getLast? = some ⟨.log (.finished Serve.idleReason), ()⟩)
    (answered : ¬ LastDeclined setup listeners trace)
    : Serve.Idled after := by
  obtain ⟨(lastContact : Nat), rest, rfl, served⟩ := runs_ask.mp run
  obtain ⟨⟨next, outcome⟩, loop, later, rfl, looped, returned⟩ := runs_bind_some.mp served
  cases outcome with
  | none => cases returned
  | some last =>
      obtain ⟨rfl, rfl⟩ := runs_pure_some.mp returned
      rw [List.append_nil] at *
      obtain ⟨began, ⟨_, (reading : lastContact = _), noted⟩, onwards⟩ := path_cons.mp path
      have initial : Current setup listeners [⟨.now, lastContact⟩] began lastContact := by
        have none : began.accepted = [] := noted
        exact ⟨reading.le, by simp [none], Or.inl (by simp [none])⟩
      obtain ⟨earlier, line, rfl, idled⟩ := Serve.serveLoop_stops looped onwards initial
      rw [← List.cons_append, List.getLast?_concat] at idle
      have same : Op.log line = .log (.finished Serve.idleReason) :=
        congrArg Event.op (Option.some.inj idle)
      exact (idled (Op.log.inj same)).resolve_right answered

-----------------------------------------------------------------------------------------
-- Surroundings with a clock
-----------------------------------------------------------------------------------------

namespace Timed

open Scene

/-- The clock, and when a peer will connect to which socket. -/
structure State where
  watch : Watch
  arrivals : List (Nat × Fd)

def second : Nat := 1000000000

/-- A poll waits for the next peer, at most a second. Whatever does not depend on the time is
answered as `answers` says.
-/
def machine (answers : (op : Op) → Res op) : Machine Res State := fun state op =>
  match op with
  | .now => (state.watch.time, state)
  | .poll fds =>
      let limit := state.watch.time + second
      let woken := (state.arrivals.takeWhile fun arrival => arrival.1 ≤ limit).head?
      let time := (woken.map Prod.fst).getD limit
      (.ok fun i => woken.map Prod.snd = some (fds.get i),
        { state with watch.time := max state.watch.time time })
  | .accept fd =>
      match state.arrivals with
      | [] => (.error .again, state)
      | arrival :: later =>
          if arrival.2 = fd ∧ arrival.1 ≤ state.watch.time then
            (.ok (fd + 100), {
              watch.time := state.watch.time
              watch.accepted := state.watch.time :: state.watch.accepted
              arrivals := later
            })
          else (.error .again, state)
  | op => (answers op, state)

/-- The machine is on a clock. -/
theorem machine_step (answers : (op : Op) → Res op) (state : State) (op : Op)
    : clock.step state.watch ⟨op, (machine answers state op).1⟩
        (machine answers state op).2.watch := by
  cases op with
  | now => exact ⟨le_rfl, rfl, rfl⟩
  | poll fds => exact ⟨le_max_left _ _, trivial, rfl⟩
  | accept fd =>
      simp only [machine]
      split
      · exact ⟨le_rfl, trivial, rfl⟩
      · split_ifs
        · exact ⟨le_rfl, trivial, rfl⟩
        · exact ⟨le_rfl, trivial, rfl⟩
  | _ => exact ⟨le_rfl, trivial, rfl⟩

/-- Two volumes. -/
def sockets : List Listener :=
  let pcrs : PcrSelection := ⟨[0, 7], by simp, by simp, by simp⟩
  [⟨10, "/run/home.key", ⟨"home", "/dev/vda3", "auto", pcrs, .sha256⟩⟩,
    ⟨11, "/run/root.key", ⟨"root", "/dev/vda2", "auto", pcrs, .sha256⟩⟩]

/-- Peers that ask for these volumes, after an infix that says in which phase. -/
def answers (phase : String) (op : Op) : Res op :=
  match op with
  | .getpeername fd =>
      .ok (some (.abstractName (Text.asBytes s!"3f2a/{phase}/"
        ++ Text.asBytes (lookup [(110, "home"), (111, "root")] fd))))
  | op => (Scene.machine (twoVolumes "no" fun _ => [0xaa]) op).1

/-- What the daemon does when a peer in this phase connects to the first socket at this time. -/
def driven (phase : String) (time : Nat) : Driven Res ExitCode State :=
  (serve Scene.setup 400 sockets).drive (machine (answers phase)) ⟨⟨0, []⟩, [(time, 10)]⟩

theorem driven_path (phase : String) (time : Nat)
    : clock.Path ⟨0, []⟩ (driven phase time).trace (driven phase time).final.watch :=
  path_drive (machine_step (answers phase)) (serve Scene.setup 400 sockets)
    ⟨⟨0, []⟩, [(time, 10)]⟩

theorem driven_run {phase : String} {time : Nat}
    (returned : (driven phase time).outcome.isSome = true)
    : ∃ code, (serve Scene.setup 400 sockets).Runs (driven phase time).trace (some code) := by
  obtain ⟨code, same⟩ := Option.isSome_iff_exists.mp returned
  exact ⟨code, same ▸ runs_drive _ _⟩

/-- Whether the last event says that the daemon was idle. -/
def endsIdle (trace : Trace) : Bool :=
  match trace.getLast? with
  | some ⟨.log (.finished why), _⟩ => why = Serve.idleReason
  | _ => false

theorem getLast_of_endsIdle {trace : Trace} (ends : endsIdle trace = true)
    : trace.getLast? = some ⟨.log (.finished Serve.idleReason), ()⟩ := by
  unfold endsIdle at ends
  split at ends
  next why answer last =>
    rw [last, of_decide_eq_true ends]
    rfl
  · cases ends

/-- Answers that do not depend on the time. -/
def Fits (phase : String) : Event → Prop
  | ⟨.accept fd, .ok conn⟩ => conn = fd + 100
  | ⟨.accept _, _⟩ | ⟨.now, _⟩ | ⟨.poll _, _⟩ => True
  | ⟨op, answer⟩ => answer = answers phase op

theorem machine_fits (phase : String) (state : State) (op : Op)
    : Fits phase ⟨op, (machine (answers phase) state op).1⟩ := by
  cases op with
  | accept fd =>
      simp only [machine]
      split
      · trivial
      · split_ifs
        · rfl
        · trivial
  | now | poll => trivial
  | _ => rfl

theorem sockets_plain {l : Listener} (member : l ∈ sockets)
    : PlainPeer l.volume (answers "cryptsetup" (.getpeername (l.fd + 100))) := by
  refine ⟨_, ⟨.plain, Text.asBytes l.volume.name⟩, rfl, ?_, rfl, rfl⟩
  simp only [sockets, List.mem_cons, List.not_mem_nil, or_false] at member
  rcases member with rfl | rfl <;> decide +kernel

/-- Whether the check of a peer succeeds when it is answered so. -/
def genuine (l : Listener) : Bool :=
  match ((Peer.check Scene.setup.systemdBinary (l.fd + 100) l.volume.name).drive
      (fun _ op => (answers "cryptsetup" op, ())) ()).outcome with
  | some (.ok _) => true
  | _ => false

theorem sockets_genuine {l : Listener} (member : l ∈ sockets) : genuine l = true := by
  simp only [sockets, List.mem_cons, List.not_mem_nil, or_false] at member
  rcases member with rfl | rfl <;> decide +kernel

/-- Peers in the plain phase that are answered for so are who they say they are. -/
theorem not_lastDeclined {trace : Trace} (fits : ∀ event ∈ trace, Fits "cryptsetup" event)
    : ¬ LastDeclined Scene.setup sockets trace := by
  rintro ⟨before, l, member, conn, answer, rest, rfl, _, declined⟩
  obtain rfl : conn = l.fd + 100 := fits ⟨.accept l.fd, .ok conn⟩ (by simp)
  obtain rfl : answer = answers "cryptsetup" (.getpeername (l.fd + 100)) :=
    fits ⟨.getpeername (l.fd + 100), answer⟩ (by simp)
  rcases declined with other | ⟨checking, later, why, rfl, checked⟩
  · exact other (sockets_plain member)
  · have answered : ∀ event ∈ checking, event.res = answers "cryptsetup" event.op := by
      intro event happened
      have identifying := Peer.check_only.mem checked happened
      have fit : Fits "cryptsetup" event := fits event (by simp [happened])
      obtain ⟨op, answer⟩ := event
      cases op <;> first | exact fit | cases identifying
    have refused : genuine l = false := by
      unfold genuine
      rw [checked.drive_eq answered]
    exact Bool.noConfusion (refused.symm.trans (sockets_genuine member))

/-- What there is to see of a run: whether it ended, whether it did so for being idle, when
connections were accepted and when it ended.
-/
def summary (phase : String) (time : Nat) : Bool × Bool × List Nat × Nat :=
  let run := driven phase time
  (run.outcome.isSome, endsIdle run.trace, run.final.watch.accepted, run.final.watch.time)

theorem driven_fits {phase : String} {time : Nat} {event : Event}
    (happened : event ∈ (driven phase time).trace)
    : Fits phase event :=
  forall_drive (machine_fits phase) happened

end Timed

open Timed in
/-- One volume is answered after ten seconds and the daemon waits for the other one. -/
theorem idle_exit_home
    : (driven "cryptsetup" (10 * second)).final.watch.accepted = [10 * second]
      ∧ (driven "cryptsetup" (10 * second)).final.watch.time = 310 * second
      ∧ Serve.Idled (driven "cryptsetup" (10 * second)).final.watch := by
  have seen : summary "cryptsetup" (10 * second) = (true, true, [10 * second], 310 * second) := by
    decide +kernel
  simp only [summary, Prod.mk.injEq] at seen
  obtain ⟨returned, ends, accepted, stopped⟩ := seen
  obtain ⟨code, ran⟩ := driven_run returned
  refine ⟨accepted, stopped, ?_⟩
  exact idle_exit ran (driven_path _ _) (getLast_of_endsIdle ends)
    (not_lastDeclined fun _ => driven_fits)

open Timed in
/-- A peer in the TPM2 phase connects a second before the daemon says that there was no
connection for 300 seconds.
-/
theorem exits_after_contact
    : ¬ ∀ (setup : Setup) (rounds : Nat) (listeners : List Listener) (start : Nat)
        (code : ExitCode) (trace : Trace) (after : Watch),
        (serve setup rounds listeners).Runs trace (some code)
          → clock.Path ⟨start, []⟩ trace after
          → trace.getLast? = some ⟨.log (.finished Serve.idleReason), ()⟩
          → Serve.Idled after := by
  intro claimed
  have seen
      : summary "cryptsetup-tpm2" (299 * second)
        = (true, true, [299 * second], 300 * second) := by
    decide +kernel
  simp only [summary, Prod.mk.injEq] at seen
  obtain ⟨returned, ends, accepted, stopped⟩ := seen
  obtain ⟨code, ran⟩ := driven_run returned
  have idled : Serve.Idled _ :=
    claimed _ _ _ _ _ _ _ ran (driven_path _ _) (getLast_of_endsIdle ends)
  have waited := idled (299 * second) (by simp [accepted])
  rw [stopped] at waited
  exact absurd waited (by decide)

end Tpm2Autoenroll
