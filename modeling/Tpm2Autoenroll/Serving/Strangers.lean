import Tpm2Autoenroll.Serving.Outcomes
import Tpm2Autoenroll.Serving.Rules
import Tpm2Autoenroll.Serving.Scenes

/-! Connections that are turned away before the plain phase: what they receive, and that the
daemon goes on as if they had never been made.
-/

namespace Tpm2Autoenroll

open Interaction Prog

namespace Strangers

-----------------------------------------------------------------------------------------
-- The connections of a trace
-----------------------------------------------------------------------------------------

def opens : Event → Bool
  | ⟨.accept _, .ok _⟩ => true
  | _ => false

def closes : Event → Bool
  | ⟨.close _, _⟩ => true
  | _ => false

def entersPlainPhase : Event → Bool
  | ⟨.log (.plainPhase _), _⟩ => true
  | _ => false

/-- Everything from each accepted connection up to where it is closed, in order. -/
def connections : Trace → List Trace
  | [] => []
  | event :: rest =>
      if opens event then (event :: upTo closes rest) :: connections rest else connections rest

/-- Whether a connection reached `serve_passphrase`. -/
def isPlain (connection : Trace) : Bool := connection.any entersPlainPhase

/-- The connections that reached `serve_passphrase`. -/
def genuine (trace : Trace) : List Trace := (connections trace).filter isPlain

/-- Nothing was accepted in a trace. -/
def Quiet (trace : Trace) : Prop := ∀ event ∈ trace, opens event = false

/-- Every connection of a trace is closed in it, so that others can follow. -/
def Complete (trace : Trace) : Prop :=
  ∀ later, connections (trace ++ later) = connections trace ++ connections later

variable {first second trace : Trace}

/-- By induction on the trace. -/
theorem Quiet.connections (quiet : Quiet trace) (later : Trace)
    : connections (trace ++ later) = Strangers.connections later := by
  induction trace with
  | nil => rfl
  | cons event rest ih =>
      obtain ⟨here, others⟩ := List.forall_mem_cons.mp quiet
      rw [List.cons_append, Strangers.connections, here]
      exact ih others

@[simp]
theorem Quiet.connections_eq (quiet : Quiet trace) : Strangers.connections trace = [] := by
  have alone := quiet.connections []
  rwa [List.append_nil] at alone

@[simp]
theorem Quiet.nil : Quiet [] := fun _ member => (nomatch member)

theorem Quiet.complete (quiet : Quiet trace) : Complete trace := by
  intro later
  rw [quiet.connections later, quiet.connections_eq, List.nil_append]

theorem Quiet.append (left : Quiet first) (right : Quiet second) : Quiet (first ++ second) := by
  intro event member
  exact (List.mem_append.mp member).elim (left event) (right event)

theorem Quiet.of_only {α : Type} {allowed : Op → Prop} {left : Prop} {program : Sys α}
    {outcome : Option α} (only : program.Only allowed left) (run : program.Runs trace outcome)
    (never : ∀ fd, ¬ allowed (.accept fd))
    : Quiet trace := by
  rintro ⟨op, answer⟩ member
  have small := only.mem run member
  cases op with
  | accept fd => exact absurd small (never fd)
  | _ => rfl

theorem Complete.append (left : Complete first) (right : Complete second)
    : Complete (first ++ second) := by
  intro later
  rw [List.append_assoc, left, right, left, List.append_assoc]

theorem genuine_append (complete : Complete first)
    : genuine (first ++ second) = genuine first ++ genuine second := by
  rw [genuine, complete, List.filter_append, genuine, genuine]

theorem Quiet.genuine (quiet : Quiet trace) (later : Trace)
    : genuine (trace ++ later) = Strangers.genuine later := by
  rw [Strangers.genuine, quiet.connections later, Strangers.genuine]

/-- One whole connection: what is done for it before it is closed accepts and closes nothing. -/
theorem connections_one (fd conn : Fd) {during : Trace}
    (attending : ∀ event ∈ during, event.op.attending) (later : Trace)
    : connections (⟨.accept fd, .ok conn⟩ :: during ++ ⟨.close conn, ()⟩ :: later)
      = (⟨.accept fd, .ok conn⟩ :: during) :: connections later := by
  have quiet : Quiet (during ++ [⟨.close conn, ()⟩]) := by
    rintro ⟨op, answer⟩ member
    rcases List.mem_append.mp member with member | member
    · have small := attending _ member
      cases op <;> first | rfl | simp at small
    · rw [List.mem_singleton.mp member]
      rfl
  have unclosed : ∀ event ∈ during, (!closes event) = true := by
    rintro ⟨op, answer⟩ member
    have small := attending _ member
    cases op <;> first | rfl | simp at small
  have segment : upTo closes (during ++ ⟨.close conn, ()⟩ :: later) = during := by
    unfold upTo
    rw [List.takeWhile_append_of_pos unclosed]
    simp [closes]
  have after : connections (during ++ ⟨.close conn, ()⟩ :: later) = connections later := by
    simpa using quiet.connections later
  rw [List.cons_append, connections, segment, after]
  rfl

-----------------------------------------------------------------------------------------
-- One connection
-----------------------------------------------------------------------------------------

variable {setup : Setup} {listeners : List Listener}

/-- Looking at a peer is not the plain phase. -/
theorem entersPlainPhase_of_identifying {event : Event} (small : event.op.identifying)
    : entersPlainPhase event = false := by
  obtain ⟨op, answer⟩ := event
  cases op with
  | log line =>
      cases line with
      | plainPhase volume => exact small.elim
      | _ => rfl
  | _ => rfl

/-- A connection was either turned away, by looking at its peer only and with nothing
remembered, or served in the plain phase.
-/
theorem dispatch_cases {conn : Fd} {managed : Volume} {memory next : Memory} {counted : Bool}
    (run : (dispatch setup conn managed memory).Runs trace (some (counted, next)))
    : (counted = false ∧ next = memory ∧ ∀ event ∈ trace, event.op.identifying)
      ∨ counted = true ∧ isPlain trace = true := by
  have logged (line : LogLine) {looked rest : Trace} (routine : line.routine)
      (looking : ∀ event ∈ looked, event.op.identifying)
      (ended : Runs (do
        log line
        return (false, memory)) rest (some (counted, next)))
      : counted = false ∧ next = memory ∧ ∀ event ∈ looked ++ rest, event.op.identifying := by
    obtain ⟨_, _, rfl, returned⟩ := runs_ask.mp ended
    cases returned
    refine ⟨rfl, rfl, fun event member => ?_⟩
    rcases List.mem_append.mp member with member | member
    · exact looking event member
    · rw [List.mem_singleton.mp member]
      exact routine
  obtain ⟨phase, named, rest, rfl, naming, going⟩ := runs_bind_some.mp run
  have looking : ∀ event ∈ named, event.op.identifying :=
    fun event member => identify_only.mem naming member
  match phase with
  | none =>
      cases going
      exact Or.inl ⟨rfl, rfl, by simpa using looking⟩
  | some .tpm2 | some .fido2Salt | some .pkcs11 | some .unknown =>
      exact Or.inl (logged (.phaseDeclined _ _) trivial looking going)
  | some .plain =>
      obtain ⟨verdict, checked, last, rfl, checking, judged⟩ := runs_bind_some.mp going
      have examined : ∀ event ∈ named ++ checked, event.op.identifying := by
        intro event member
        rcases List.mem_append.mp member with member | member
        · exact looking event member
        · exact Peer.check_only.mem checking member
      rw [← List.append_assoc]
      cases verdict with
      | error why => exact Or.inl (logged (.peerRefused _ why) trivial examined judged)
      | ok =>
          obtain ⟨_, served, _, rfl, serving, ended⟩ := runs_bind_some.mp judged
          cases ended
          obtain ⟨_, later, rfl, _⟩ := runs_ask.mp serving
          exact Or.inr ⟨rfl, by simp [isPlain, entersPlainPhase]⟩

/-- What one accept leads to: it failed, a peer was turned away, or one was served. -/
theorem acceptOne_cases {l : Listener} {state next : ServeState}
    (run : (Serve.acceptOne setup l state).Runs trace (some next))
    : (Quiet trace ∧ next = state)
      ∨ ∃ conn during counted memory closing,
        trace = ⟨.accept l.fd, .ok conn⟩ :: during ++ ⟨.close conn, ()⟩ :: closing
        ∧ (dispatch setup conn l.volume state.memory).Runs during (some (counted, memory))
        ∧ Quiet closing
        ∧ next.memory = memory
        ∧ next.served = (if counted then insert l.volume.name state.served else state.served)
        ∧ (counted = false → closing = [] ∧ next = { state with memory }) := by
  obtain ⟨answer, later, rfl, going⟩ := runs_ask.mp run
  match answer with
  | .ok conn =>
      obtain ⟨result, handled, rest, rfl, handling, ended⟩ := runs_bind_some.mp going
      obtain ⟨dispatched, during, last, rfl, dispatching, closed⟩ := runs_bind_some.mp handling
      obtain ⟨_, _, rfl, returned⟩ := runs_ask.mp closed
      cases returned
      obtain ⟨counted, memory⟩ := result
      refine Or.inr ⟨conn, during, counted, memory, rest, ?_, dispatching, ?_⟩
      · rw [List.append_assoc]
        rfl
      cases counted with
      | false =>
          cases ended
          exact ⟨Quiet.nil, rfl, rfl, fun _ => ⟨rfl, rfl⟩⟩
      | true =>
          obtain ⟨now, _, rfl, returned⟩ := runs_ask.mp ended
          cases returned
          exact ⟨by simp [Quiet, opens], rfl, rfl, nofun⟩
  | .error .intr | .error .again =>
      cases going
      exact Or.inl ⟨by simp [Quiet, opens], rfl⟩
  | .error .noent | .error .exist | .error .pipe | .error .noprotoopt | .error (.other _) =>
      obtain ⟨_, _, rfl, returned⟩ := runs_ask.mp going
      cases returned
      exact Or.inl ⟨by simp [Quiet, opens], rfl⟩

-----------------------------------------------------------------------------------------
-- What the daemon is to its genuine peers
-----------------------------------------------------------------------------------------

/-- What one connection leaves for the next. -/
abbrev Standing := Memory × Finset String

def standing (state : ServeState) : Standing := (state.memory, state.served)

/-- A daemon that only genuine peers connect to: it answers one after the other, each from what
the ones before left.
-/
inductive Attends (setup : Setup) (listeners : List Listener)
    : Standing → List Trace → Standing → Prop
  | none (standing : Standing) : Attends setup listeners standing [] standing
  | next {l : Listener} {conn : Fd} {memory after : Memory} {served : Finset String}
    {during : Trace} {rest : List Trace} {final : Standing} (member : l ∈ listeners)
    (run : (dispatch setup conn l.volume memory).Runs during (some (true, after)))
    (later : Attends setup listeners (after, insert l.volume.name served) rest final)
    : Attends setup listeners (memory, served)
        ((⟨.accept l.fd, .ok conn⟩ :: during) :: rest) final

/-- By induction on the first peers. -/
theorem Attends.append {start middle final : Standing} {left right : List Trace}
    (head : Attends setup listeners start left middle)
    (tail : Attends setup listeners middle right final)
    : Attends setup listeners start (left ++ right) final := by
  induction head with
  | none standing => exact tail
  | next member run _ ih => exact .next member run (ih tail)

/-- Two connections to the same socket in surroundings that behave alike. -/
def SameTerms (left right : Trace) : Prop :=
  left.head?.map Interaction.Event.op = right.head?.map Interaction.Event.op ∧ Alike left right

/-- What genuine peers get is determined by how the surroundings behave towards each of them,
by induction on the peers.
-/
theorem Attends.deterministic {start leftFinal rightFinal : Standing} {left right : List Trace}
    (distinct : (listeners.map Listener.fd).Nodup)
    (leftRun : Attends setup listeners start left leftFinal)
    (rightRun : Attends setup listeners start right rightFinal)
    (same : List.Forall₂ SameTerms left right)
    : left = right ∧ leftFinal = rightFinal := by
  induction leftRun generalizing right with
  | none standing =>
      cases same
      cases rightRun
      exact ⟨rfl, rfl⟩
  | @next l conn memory after served during rest final member run later ih =>
      cases same with
      | cons terms others =>
          cases rightRun with
          | @next r other _ afterRight _ duringRight _ _ memberRight runRight laterRight =>
              obtain ⟨sockets, alike⟩ := terms
              have fds : l.fd = r.fd := by simpa using sockets
              obtain rfl : l = r := List.inj_on_of_nodup_map distinct member memberRight fds
              have accepted : (.ok conn : Except Errno Fd) = .ok other :=
                alike [] (.accept l.fd) _ _ during duringRight rfl rfl
              obtain rfl : conn = other := by simpa using accepted
              obtain ⟨rfl, ended⟩ := run.deterministic runRight alike.tail
              obtain rfl : after = afterRight := by simpa using ended
              obtain ⟨rfl, rfl⟩ := ih laterRight others
              exact ⟨rfl, rfl⟩

-----------------------------------------------------------------------------------------
-- The accept loop
-----------------------------------------------------------------------------------------

/-- What a stretch of the accept loop did: nothing for a peer it turned away beyond looking at
it, and for the others what a daemon does that only they connect to.
-/
structure Account (setup : Setup) (listeners : List Listener) (before after : ServeState)
    (trace : Trace) : Prop where
  complete : Complete trace
  turnedAway : ∀ connection ∈ connections trace, isPlain connection = false
    → ∀ event ∈ connection, opens event = true ∨ event.op.identifying
  attended : Attends setup listeners (standing before) (genuine trace) (standing after)

theorem Account.quiet {state : ServeState} (quiet : Quiet trace)
    : Account setup listeners state state trace where
  complete := quiet.complete
  turnedAway := by simp [quiet.connections_eq]
  attended := by
    rw [genuine, quiet.connections_eq]
    exact .none _

theorem Account.append {before middle after : ServeState}
    (left : Account setup listeners before middle first)
    (right : Account setup listeners middle after second)
    : Account setup listeners before after (first ++ second) where
  complete := left.complete.append right.complete
  turnedAway := by
    rw [left.complete]
    intro connection member
    rcases List.mem_append.mp member with member | member
    · exact left.turnedAway connection member
    · exact right.turnedAway connection member
  attended := by
    rw [genuine_append left.complete]
    exact left.attended.append right.attended

/-- Accepting one connection. A peer that was turned away left everything as it was. -/
theorem acceptOne_account {l : Listener} (member : l ∈ listeners) {state next : ServeState}
    (run : (Serve.acceptOne setup l state).Runs trace (some next))
    : Account setup listeners state next trace
      ∧ (connections trace = genuine trace ∨ genuine trace = [] ∧ next = state) := by
  rcases acceptOne_cases run with ⟨quiet, rfl⟩ | ⟨conn, during, counted, memory, closing, rfl,
    dispatching, quiet, remembered, served, unchanged⟩
  · refine ⟨.quiet quiet, Or.inl ?_⟩
    rw [genuine, quiet.connections_eq, List.filter_nil]
  · have attending : ∀ event ∈ during, event.op.attending :=
      fun event inside => dispatch_only.mem dispatching inside
    have one := connections_one l.fd conn attending closing
    rw [quiet.connections_eq] at one
    have complete
        : Complete (⟨.accept l.fd, .ok conn⟩ :: during ++ ⟨.close conn, ()⟩ :: closing) := by
      intro later
      have longer := connections_one l.fd conn attending (closing ++ later)
      rw [quiet.connections] at longer
      rw [one]
      simpa using longer
    rcases dispatch_cases dispatching with ⟨rfl, rfl, looked⟩ | ⟨rfl, plain⟩
    · have declined : isPlain (⟨.accept l.fd, .ok conn⟩ :: during) = false := by
        rw [isPlain, List.any_cons, show entersPlainPhase _ = false from rfl, Bool.false_or,
          List.any_eq_false]
        intro event inside
        rw [entersPlainPhase_of_identifying (looked event inside)]
        exact Bool.false_ne_true
      have none_genuine
          : genuine (⟨.accept l.fd, .ok conn⟩ :: during ++ ⟨.close conn, ()⟩ :: closing) = [] := by
        rw [genuine, one, List.filter_singleton, declined]
        rfl
      have same : next = state := (unchanged rfl).2
      refine ⟨⟨complete, ?_, ?_⟩, Or.inr ⟨none_genuine, same⟩⟩
      · rw [one]
        intro connection inside _ event among
        rw [List.mem_singleton.mp inside] at among
        rcases List.mem_cons.mp among with rfl | among
        · exact Or.inl rfl
        · exact Or.inr (looked event among)
      · rw [none_genuine, same]
        exact .none _
    · have reached : isPlain (⟨.accept l.fd, .ok conn⟩ :: during) = true := by
        rw [isPlain, List.any_cons, ← isPlain, plain, Bool.or_true]
      have all_genuine
          : genuine (⟨.accept l.fd, .ok conn⟩ :: during ++ ⟨.close conn, ()⟩ :: closing)
            = [⟨.accept l.fd, .ok conn⟩ :: during] := by
        rw [genuine, one, List.filter_singleton, reached]
        rfl
      refine ⟨⟨complete, ?_, ?_⟩, Or.inl (one.trans all_genuine.symm)⟩
      · rw [one]
        intro connection inside declined
        rw [List.mem_singleton.mp inside, reached] at declined
        cases declined
      · rw [all_genuine, show standing next = (memory, insert l.volume.name state.served) from
          Prod.ext remembered served]
        exact .next member dispatching (.none _)

/-- A log line, or a stop check that was answered, accepts nothing. -/
theorem quiet_single {op : Op} (answer : Res op) (never : ∀ fd, op ≠ .accept fd)
    : Quiet [⟨op, answer⟩] := by
  intro event member
  rw [List.mem_singleton.mp member]
  cases op with
  | accept fd => exact absurd rfl (never fd)
  | _ => rfl

/-- The loop over the ready listeners, by induction on them. -/
theorem serveReady_account {pending : List Listener} (members : ∀ l ∈ pending, l ∈ listeners)
    {state next : ServeState} {code : Option ExitCode}
    (run : (Serve.serveReady setup pending state).Runs trace (some (next, code)))
    : Account setup listeners state next trace := by
  induction pending generalizing state trace with
  | nil =>
      cases run
      exact .quiet .nil
  | cons l more ih =>
      obtain ⟨here, others⟩ := List.forall_mem_cons.mp members
      obtain ⟨middle, accepting, rest, rfl, accepted, going⟩ := runs_bind_some.mp run
      refine (acceptOne_account here accepted).1.append ?_
      obtain ⟨stop, later, rfl, checked⟩ := runs_ask.mp going
      refine Account.append (.quiet (quiet_single stop nofun)) ?_
      cases stop with
      | true =>
          obtain ⟨_, _, rfl, returned⟩ := runs_ask.mp checked
          cases returned
          exact .quiet (quiet_single _ nofun)
      | false => exact ih others checked

/-- What a round does before it turns to the listeners that are ready. -/
def polled (listeners : List Listener) (now : Nat) (asked : Trace)
    (bits : Fin (listeners.map Listener.fd).length → Bool) : Trace :=
  ⟨.now, now⟩ :: asked
    ++ [⟨.poll (listeners.map Listener.fd), .ok bits⟩, ⟨.terminating, false⟩]

/-- One trip round the loop either accepts nothing and changes nothing, or turns to the
listeners that a poll reported on; what these are makes no difference to the way there.
-/
theorem serveRound_cases {state next : ServeState} {code : Option ExitCode}
    (run : (Serve.serveRound setup listeners state).Runs trace (some (next, code)))
    : (Quiet trace ∧ next = state)
      ∨ ∃ now asked bits tail,
        trace = polled listeners now asked bits ++ tail
        ∧ (∀ bits, Quiet (polled listeners now asked bits))
        ∧ (Serve.serveReady setup (Serve.ready listeners bits) state).Runs tail
          (some (next, code))
        ∧ ∀ bits tail result,
          (Serve.serveReady setup (Serve.ready listeners bits) state).Runs tail (some result)
          → (Serve.serveRound setup listeners state).Runs (polled listeners now asked bits ++ tail)
            (some result) := by
  obtain ⟨now, later, rfl, going⟩ := runs_ask.mp run
  obtain ⟨why, asked, rest, rfl, asking, judged⟩ := runs_bind_some.mp going
  have quietly : Quiet (⟨.now, now⟩ :: asked) :=
    (quiet_single now nofun).append (.of_only Serve.finished_only asking nofun)
  cases why with
  | some why =>
      obtain ⟨_, _, rfl, returned⟩ := runs_ask.mp judged
      cases returned
      exact Or.inl ⟨quietly.append (quiet_single _ nofun), rfl⟩
  | none =>
      obtain ⟨woken, more, rfl, polling⟩ := runs_ask.mp judged
      obtain ⟨stop, last, rfl, checked⟩ := runs_ask.mp polling
      have waited : Quiet (⟨.now, now⟩ :: asked
          ++ [⟨.poll (listeners.map Listener.fd), woken⟩, ⟨.terminating, stop⟩]) :=
        quietly.append ((quiet_single woken nofun).append (quiet_single stop nofun))
      have leaving {rest : Trace} (quiet : Quiet rest) (same : next = state)
          : Quiet (⟨.now, now⟩ :: (asked ++ ⟨.poll (listeners.map Listener.fd), woken⟩
              :: ⟨.terminating, stop⟩ :: rest)) ∧ next = state := by
        refine ⟨?_, same⟩
        have all := waited.append quiet
        rwa [List.append_assoc] at all
      cases stop with
      | true =>
          obtain ⟨_, _, rfl, returned⟩ := runs_ask.mp checked
          cases returned
          exact Or.inl (leaving (quiet_single _ nofun) rfl)
      | false =>
          match woken with
          | .error .intr =>
              cases checked
              exact Or.inl (leaving .nil rfl)
          | .error .again | .error .noent | .error .exist | .error .pipe | .error .noprotoopt
          | .error (.other _) =>
              obtain ⟨_, _, rfl, returned⟩ := runs_ask.mp checked
              cases returned
              exact Or.inl (leaving (quiet_single _ nofun) rfl)
          | .ok bits =>
              refine Or.inr ⟨now, asked, bits, last, by simp [polled], ?_, checked, ?_⟩
              · intro other
                have polling : Quiet [⟨.poll (listeners.map Listener.fd), .ok other⟩] :=
                  quiet_single _ nofun
                have checking : Quiet [⟨.terminating, false⟩] := quiet_single _ nofun
                exact quietly.append (polling.append checking)
              · intro other tail result served
                have shape : polled listeners now asked other ++ tail
                    = ⟨.now, now⟩ :: (asked
                      ++ ⟨.poll (listeners.map Listener.fd), .ok other⟩
                        :: ⟨.terminating, false⟩ :: tail) := by
                  simp [polled]
                rw [shape]
                refine runs_ask.mpr ⟨now, _, rfl, runs_bind_some.mpr ⟨none, asked, _, rfl, asking, ?_⟩⟩
                exact runs_ask.mpr ⟨.ok other, _, rfl, runs_ask.mpr ⟨false, _, rfl, served⟩⟩

theorem serveRound_account {state next : ServeState} {code : Option ExitCode}
    (run : (Serve.serveRound setup listeners state).Runs trace (some (next, code)))
    : Account setup listeners state next trace := by
  rcases serveRound_cases run with ⟨quiet, rfl⟩ | ⟨now, asked, bits, tail, rfl, quiet, served, _⟩
  · exact .quiet quiet
  · refine Account.append (.quiet (quiet bits)) ?_
    exact serveReady_account (fun l => Serve.mem_of_mem_ready) served

/-- Any number of trips, by induction on them. -/
theorem serveLoop_account {rounds : Nat} {state next : ServeState} {code : Option ExitCode}
    (run : (Serve.serveLoop setup listeners rounds state).Runs trace (some (next, code)))
    : Account setup listeners state next trace := by
  induction rounds generalizing state trace with
  | zero =>
      cases run
      exact .quiet .nil
  | succ rounds ih =>
      obtain ⟨⟨middle, ended⟩, first, rest, rfl, round, going⟩ := runs_bind_some.mp run
      refine (serveRound_account round).append ?_
      cases ended with
      | some code =>
          cases going
          exact .quiet .nil
      | none => exact ih going

-----------------------------------------------------------------------------------------
-- The same run without strangers
-----------------------------------------------------------------------------------------

/-- The loop goes on after an accept when no stop was asked for. -/
theorem serveReady_goes {l : Listener} {more : List Listener} {state middle : ServeState}
    {result : ServeState × Option ExitCode} {accepting : Trace}
    (accepted : (Serve.acceptOne setup l state).Runs accepting (some middle))
    (rest : (Serve.serveReady setup more middle).Runs trace (some result))
    : (Serve.serveReady setup (l :: more) state).Runs
        (accepting ++ ⟨.terminating, false⟩ :: trace) (some result) :=
  runs_bind_some.mpr ⟨middle, _, _, rfl, accepted, runs_ask.mpr ⟨false, _, rfl, rest⟩⟩

/-- The loop is left after an accept when a stop was asked for. -/
theorem serveReady_stops {l : Listener} {more : List Listener} {state middle : ServeState}
    {accepting : Trace}
    (accepted : (Serve.acceptOne setup l state).Runs accepting (some middle))
    : (Serve.serveReady setup (l :: more) state).Runs
        (accepting ++ [⟨.terminating, true⟩, ⟨.log .askedToStop, ()⟩])
        (some (middle, some .success)) :=
  runs_bind_some.mpr ⟨middle, _, _, rfl, accepted,
    runs_ask.mpr ⟨true, _, rfl, runs_ask.mpr ⟨(), _, rfl, .ret _⟩⟩⟩

/-- The loop over the ready listeners, over only those whose peers were genuine. When it was
left because of a stop seen after a stranger, the stop is still to be seen. By induction on the
listeners.
-/
theorem serveReady_without {pending : List Listener} (members : ∀ l ∈ pending, l ∈ listeners)
    {state next : ServeState} {code : Option ExitCode}
    (run : (Serve.serveReady setup pending state).Runs trace (some (next, code)))
    : ∃ kept without, kept.Sublist pending
      ∧ connections without = genuine trace
      ∧ ((Serve.serveReady setup kept state).Runs without (some (next, code))
        ∨ code = some .success
          ∧ (Serve.serveReady setup kept state).Runs without (some (next, none))) := by
  induction pending generalizing state trace with
  | nil =>
      cases run
      exact ⟨[], [], .slnil, rfl, Or.inl (.ret _)⟩
  | cons l more ih =>
      obtain ⟨here, others⟩ := List.forall_mem_cons.mp members
      obtain ⟨middle, accepting, rest, rfl, accepted, going⟩ := runs_bind_some.mp run
      obtain ⟨account, spared⟩ := acceptOne_account here accepted
      obtain ⟨stop, later, rfl, checked⟩ := runs_ask.mp going
      have checking (answer : Bool) : Quiet [⟨.terminating, answer⟩] := quiet_single _ nofun
      rw [genuine_append account.complete]
      cases stop with
      | true =>
          obtain ⟨⟨⟩, _, rfl, returned⟩ := runs_ask.mp checked
          cases returned
          have stopping : Quiet [⟨.terminating, true⟩, ⟨.log .askedToStop, ()⟩] :=
            (checking true).append (quiet_single _ nofun)
          have none_more : genuine [⟨.terminating, true⟩, ⟨.log .askedToStop, ()⟩] = [] := rfl
          rw [none_more, List.append_nil]
          rcases spared with all | ⟨none, rfl⟩
          · refine ⟨[l], _, List.singleton_sublist.mpr List.mem_cons_self, ?_,
              Or.inl (serveReady_stops accepted)⟩
            rw [account.complete, stopping.connections_eq, List.append_nil, all]
          · exact ⟨[], [], List.nil_sublist _, none.symm, Or.inr ⟨rfl, .ret _⟩⟩
      | false =>
          obtain ⟨kept, without, sublist, same, runs⟩ := ih others checked
          have goingOn : genuine (⟨.terminating, false⟩ :: later) = genuine later :=
            (checking false).genuine later
          rw [goingOn]
          rcases spared with all | ⟨none, rfl⟩
          · refine ⟨l :: kept, accepting ++ ⟨.terminating, false⟩ :: without,
              sublist.cons_cons l, ?_, ?_⟩
            · rw [account.complete, all, ← same]
              exact congrArg _ ((checking false).connections without)
            · rcases runs with exact | ⟨stopped, goesOn⟩
              · exact Or.inl (serveReady_goes accepted exact)
              · exact Or.inr ⟨stopped, serveReady_goes accepted goesOn⟩
          · exact ⟨kept, without, sublist.cons l, by rw [none, same, List.nil_append], runs⟩

/-- A poll can report on any of the listeners that a poll reports on, in the same order. -/
theorem ready_of_sublist {bits : Fin (listeners.map Listener.fd).length → Bool}
    {kept : List Listener} (sublist : kept.Sublist (Serve.ready listeners bits))
    : ∃ fewer, Serve.ready listeners fewer = kept := by
  obtain ⟨indices, inside, rfl⟩ := List.sublist_map_iff.mp sublist
  have within : indices.Sublist (List.finRange listeners.length) :=
    inside.trans List.filter_sublist
  refine ⟨fun i => decide (i.cast (by simp) ∈ indices), ?_⟩
  have members : (List.finRange listeners.length).filter (fun i => decide (i ∈ indices))
      = indices := by
    have inner : indices.Sublist
        ((List.finRange listeners.length).filter fun i => decide (i ∈ indices)) := by
      have both := within.filter fun i => decide (i ∈ indices)
      rwa [List.filter_eq_self.mpr (by simp)] at both
    refine (inner.eq_of_length ?_).symm
    refine ((List.perm_ext_iff_of_nodup ?_ ?_).mpr fun i => by simp).length_eq
    · exact within.nodup (List.nodup_finRange _)
    · exact (List.nodup_finRange _).filter _
  simp [Serve.ready, members]

/-- One trip round the loop, with only the genuine peers. -/
theorem serveRound_without {state next : ServeState} {code : Option ExitCode}
    (run : (Serve.serveRound setup listeners state).Runs trace (some (next, code)))
    : ∃ without, connections without = genuine trace
      ∧ ((Serve.serveRound setup listeners state).Runs without (some (next, code))
        ∨ code = some .success
          ∧ (Serve.serveRound setup listeners state).Runs without (some (next, none))) := by
  rcases serveRound_cases run
    with ⟨quiet, rfl⟩ | ⟨now, asked, bits, tail, rfl, quiet, served, again⟩
  · refine ⟨trace, ?_, Or.inl run⟩
    rw [genuine, quiet.connections_eq, List.filter_nil]
  · obtain ⟨kept, without, sublist, same, runs⟩ :=
      serveReady_without (fun l => Serve.mem_of_mem_ready) served
    obtain ⟨fewer, rfl⟩ := ready_of_sublist sublist
    refine ⟨polled listeners now asked fewer ++ without, ?_, ?_⟩
    · rw [(quiet fewer).connections, (quiet bits).genuine, same]
    · rcases runs with exact | ⟨stopped, goesOn⟩
      · exact Or.inl (again fewer without _ exact)
      · exact Or.inr ⟨stopped, again fewer without _ goesOn⟩

/-- A stop that is still to be seen ends the next trip before anything is accepted. -/
theorem serveRound_stops (setup : Setup) (listeners : List Listener) (state : ServeState)
    : ∃ trace, Quiet trace
      ∧ (Serve.serveRound setup listeners state).Runs trace (some (state, some .success)) := by
  have answered : ∀ op : Op, op.bookkeeping → Nonempty (Res op) := by
    intro op small
    cases op with
    | now => exact ⟨(0 : Nat)⟩
    | log line => exact ⟨()⟩
    | readFile path => exact ⟨(.ok "" : Except String String)⟩
    | readDir path => exact ⟨(.ok [] : Except String (List String))⟩
    | _ => exact small.elim
  have finishes : (Serve.finished (listeners.map fun l => l.volume.name) state.served
      (0 - state.lastContact)).Only Op.bookkeeping :=
    Serve.finished_only
  obtain ⟨asked, why, asking⟩ := finishes.completes answered
  have reading : Quiet [⟨.now, (0 : Nat)⟩] := quiet_single _ nofun
  have quietly : Quiet (⟨.now, (0 : Nat)⟩ :: asked) :=
    reading.append (.of_only finishes asking nofun)
  cases why with
  | some why =>
      have leaving : Quiet [⟨.log (.finished why), ()⟩] := quiet_single _ nofun
      refine ⟨_, quietly.append leaving, runs_ask.mpr ⟨(0 : Nat), _, rfl, ?_⟩⟩
      refine runs_bind_some.mpr ⟨_, asked, _, rfl, asking, ?_⟩
      exact runs_ask.mpr ⟨(), _, rfl, .ret _⟩
  | none =>
      have polling : Quiet [⟨.poll (listeners.map Listener.fd), .error .intr⟩] :=
        quiet_single _ nofun
      have checking : Quiet [⟨.terminating, true⟩] := quiet_single _ nofun
      have leaving : Quiet [⟨.log .askedToStop, ()⟩] := quiet_single _ nofun
      refine ⟨_, quietly.append (polling.append (checking.append leaving)),
        runs_ask.mpr ⟨(0 : Nat), _, rfl, ?_⟩⟩
      refine runs_bind_some.mpr ⟨_, asked, _, rfl, asking, ?_⟩
      refine runs_ask.mpr ⟨.error .intr, _, rfl, runs_ask.mpr ⟨true, _, rfl, ?_⟩⟩
      exact runs_ask.mpr ⟨(), _, rfl, .ret _⟩

/-- Any number of trips, with only the genuine peers, by induction on them. One more trip is
needed at most, to see a stop.
-/
theorem serveLoop_without {rounds : Nat} {state next : ServeState} {code : Option ExitCode}
    (run : (Serve.serveLoop setup listeners rounds state).Runs trace (some (next, code)))
    : ∃ trips without, connections without = genuine trace
      ∧ (Serve.serveLoop setup listeners trips state).Runs without (some (next, code)) := by
  induction rounds generalizing state trace with
  | zero =>
      cases run
      exact ⟨0, [], rfl, .ret _⟩
  | succ rounds ih =>
      obtain ⟨⟨middle, ended⟩, first, rest, rfl, round, going⟩ := runs_bind_some.mp run
      have complete := (serveRound_account round).complete
      obtain ⟨without, same, runs⟩ := serveRound_without round
      rw [genuine_append complete]
      cases ended with
      | some code =>
          cases going
          rw [show genuine [] = [] from rfl, List.append_nil]
          rcases runs with exact | ⟨stopped, goesOn⟩
          · exact ⟨1, without ++ [], by rw [List.append_nil, same],
              runs_bind_some.mpr ⟨_, _, _, rfl, exact, .ret _⟩⟩
          · cases stopped
            obtain ⟨last, quiet, stops⟩ := serveRound_stops setup listeners next
            refine ⟨2, without ++ (last ++ []), ?_, ?_⟩
            · rw [(serveRound_account goesOn).complete, List.append_nil, quiet.connections_eq,
                List.append_nil, same]
            · refine runs_bind_some.mpr ⟨_, _, _, rfl, goesOn, ?_⟩
              exact runs_bind_some.mpr ⟨_, _, _, rfl, stops, .ret _⟩
      | none =>
          obtain ⟨trips, later, sameLater, loop⟩ := ih going
          rcases runs with exact | ⟨stopped, _⟩
          · refine ⟨trips + 1, without ++ later, ?_, ?_⟩
            · rw [(serveRound_account exact).complete, same, sameLater]
            · exact runs_bind_some.mpr ⟨_, _, _, rfl, exact, loop⟩
          · cases stopped

end Strangers

open Strangers in
/-- Connections that do not reach `serve_passphrase` are invisible. In every run of the accept
loop, such a connection is only looked at and nothing is written to it. The loop has a run
without them, in which every other connection is the same event for event and which ends in the
same state; and so does every run whose genuine peers come to the same sockets in surroundings
that behave alike towards them, whoever else connects, as long as no two sockets share a
descriptor.
-/
theorem strangers_invisible (setup : Setup) (listeners : List Listener) (rounds : Nat)
    (state next : ServeState) (code : Option ExitCode) (trace : Trace)
    (run : (Serve.serveLoop setup listeners rounds state).Runs trace (some (next, code)))
    : (∀ connection ∈ connections trace, isPlain connection = false
        → ∀ event ∈ connection,
          (opens event = true ∨ event.op.identifying) ∧ ∀ fd buf, event.op ≠ .write fd buf)
      ∧ (∃ trips without,
        (Serve.serveLoop setup listeners trips state).Runs without (some (next, code))
        ∧ connections without = (connections trace).filter isPlain)
      ∧ ∀ (trips : Nat) (start final : ServeState) (ended : Option ExitCode) (other : Trace),
        (Serve.serveLoop setup listeners trips start).Runs other (some (final, ended))
          → start.memory = state.memory
          → start.served = state.served
          → (listeners.map Listener.fd).Nodup
          → List.Forall₂ SameTerms ((connections trace).filter isPlain)
            ((connections other).filter isPlain)
          → (connections trace).filter isPlain = (connections other).filter isPlain
            ∧ next.memory = final.memory
            ∧ next.served = final.served := by
  have account := serveLoop_account run
  refine ⟨?_, ?_, ?_⟩
  · intro connection member declined event inside
    have looked := account.turnedAway connection member declined event inside
    refine ⟨looked, ?_⟩
    rintro fd buf written
    obtain ⟨op, answer⟩ := event
    obtain rfl : op = .write fd buf := written
    rcases looked with opened | small
    · cases opened
    · exact small
  · obtain ⟨trips, without, same, loop⟩ := serveLoop_without run
    exact ⟨trips, without, loop, same⟩
  · intro trips start final ended other otherRun memory served distinct terms
    have second := (serveLoop_account otherRun).attended
    rw [show standing start = standing state from Prod.ext memory served] at second
    obtain ⟨same, result⟩ := account.attended.deterministic distinct second terms
    exact ⟨same, congrArg Prod.fst result, congrArg Prod.snd result⟩

open Strangers Scene in
/-- A run in which a peer that names no volume comes before a genuine one. -/
theorem strangers_invisible_root
    : ∃ (listeners : List Listener) (trace without : Trace) (trips : Nat) (state : ServeState)
        (result : ServeState × Option ExitCode),
        (connections trace).length = 2 ∧ (connections without).length = 1
        ∧ (Serve.serveLoop setup listeners 1 state).Runs trace (some result)
        ∧ (Serve.serveLoop setup listeners trips state).Runs without (some result) := by
  let pcrs : PcrSelection := ⟨[7], by simp, by simp, by simp⟩
  let listeners : List Listener := [
    ⟨10, "/run/home.key", ⟨"home", "/dev/vda3", "auto", pcrs, .sha256⟩⟩,
    ⟨11, "/run/root.key", ⟨"root", "/dev/vda2", "auto", pcrs, .sha256⟩⟩]
  let scene : Scene := { twoVolumes "no" (fun _ => [0xaa]) with peers := [(111, "root")] }
  let state : ServeState := ⟨.new, ∅, 0⟩
  let driven := (Serve.serveLoop setup listeners 1 state).drive machine scene
  have seen : (driven.outcome.isSome, (connections driven.trace).length,
      ((connections driven.trace).filter isPlain).length) = (true, 2, 1) := by
    decide +kernel
  simp only [Prod.mk.injEq] at seen
  obtain ⟨returned, both, genuine⟩ := seen
  obtain ⟨⟨next, code⟩, same⟩ := Option.isSome_iff_exists.mp returned
  have run : (Serve.serveLoop setup listeners 1 state).Runs driven.trace driven.outcome :=
    runs_drive _ _
  rw [same] at run
  obtain ⟨_, ⟨trips, without, loop, kept⟩, _⟩ :=
    strangers_invisible setup listeners 1 state next code driven.trace run
  exact ⟨listeners, driven.trace, without, trips, state, (next, code), both, kept ▸ genuine, run,
    loop⟩

end Tpm2Autoenroll
