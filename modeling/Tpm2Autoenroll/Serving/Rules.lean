import Tpm2Autoenroll.Serving.Footprints

/-! The rule of the accept loop: what holds between connections in every run of the daemon
follows from what one connection keeps.
-/

namespace Tpm2Autoenroll

open Interaction Prog

/-- The rule of one connection: `before` holds while the peer is identified, `after` once the
plain phase has been served, and a declined peer leaves things as they were.
-/
theorem handle_wp {σ : Type} {monitor : Monitor Res σ} {setup : Setup} {conn : Fd}
    {managed : Volume} {memory : Memory} {s : σ} (before : σ → Prop)
    (after post : Memory → σ → Prop)
    (quiet : ∀ {state op}, before state → op.identifying → monitor.allows state op)
    (kept : ∀ {state op answer next}, monitor.step state ⟨op, answer⟩ next
      → op.identifying → before state → before next)
    (declined : ∀ {state}, before state → after memory state)
    (served : ∀ {state}, before state
      → wp monitor (servePassphrase setup conn managed memory) after state)
    (closing : ∀ {memory state}, after memory state → monitor.allows state (.close conn))
    (closed : ∀ {memory state answer next}, monitor.step state ⟨.close conn, answer⟩ next
      → after memory state → post memory next)
    (held : before s)
    : wp monitor (handle setup conn managed memory) (fun result => post result.2) s := by
  have quietly {α : Type} {program : Sys α} {state : σ} (only : program.Only Op.identifying)
      (here : before state)
      : wp monitor program (fun _ next => before next) state :=
    wp_invariant only nofun (fun _ _ small here => quiet here small)
      (fun _ _ _ _ small here step => kept step small here) here
  have still {state : σ} (line : LogLine) (routine : line.routine) (here : before state)
      : wp monitor
          (do
            log line
            return (false, memory))
          (fun result => after result.2) state := by
    refine wp_ask (quiet here routine) fun answer next step => ?_
    exact declined (kept step routine here)
  have dispatched : wp monitor (dispatch setup conn managed memory)
      (fun result => after result.2) s := by
    refine wp_then (quietly identify_only held) fun phase state here => ?_
    match phase with
    | none => exact declined here
    | some .tpm2 | some .fido2Salt | some .pkcs11 | some .unknown =>
        exact still (.phaseDeclined _ _) trivial here
    | some .plain =>
        refine wp_then (quietly Peer.check_only here) fun verdict state here => ?_
        cases verdict with
        | error why => exact still (.peerRefused _ why) trivial here
        | ok => exact wp_then (served here) fun _ _ settled => settled
  refine wp_then dispatched fun result state settled => ?_
  exact wp_ask (closing settled) fun answer next step => closed step settled

/-- What an argument about every run of the accept loop has to supply. `idle` holds between
connections; `armed` is what a stop check that was answered with no adds to it, and holds
whenever a connection is accepted.
-/
structure ServeInvariant {σ : Type} (monitor : Monitor Res σ) (setup : Setup)
    (listeners : List Listener) (idle armed : Memory → σ → Prop) : Prop where
  relax : ∀ {memory state}, armed memory state → idle memory state
  rests : ∀ {memory state}, armed memory state → monitor.stalls state
  quiet : ∀ {memory state op}, idle memory state → op.bookkeeping → monitor.allows state op
  kept : ∀ {memory state op answer after}, monitor.step state ⟨op, answer⟩ after
    → op.bookkeeping → idle memory state → idle memory after
  keptArmed : ∀ {memory state op answer after}, monitor.step state ⟨op, answer⟩ after
    → op.bookkeeping → armed memory state → armed memory after
  polls : ∀ {memory state fds}, armed memory state → monitor.allows state (.poll fds)
  polled : ∀ {memory state fds answer after}, monitor.step state ⟨.poll fds, answer⟩ after
    → armed memory state → idle memory after
  checks : ∀ {memory state}, idle memory state → monitor.allows state .terminating
  checked : ∀ {memory state after} {answer : Bool},
    monitor.step state ⟨.terminating, answer⟩ after → idle memory state
      → idle memory after ∧ (answer = false → armed memory after)
  accepts : ∀ {l memory state}, l ∈ listeners → armed memory state
    → monitor.allows state (.accept l.fd)
  refused : ∀ {l memory state error after}, l ∈ listeners
    → monitor.step state ⟨.accept l.fd, .error error⟩ after → armed memory state
    → idle memory after
  handled : ∀ {l memory state conn after}, l ∈ listeners
    → monitor.step state ⟨.accept l.fd, .ok conn⟩ after → armed memory state
    → wp monitor (handle setup conn l.volume memory)
        (fun result final => idle result.2 final) after

/-- The requests of the accept loop itself. -/
@[simp]
def Op.serving : Op → Prop
  | .poll _ | .terminating | .accept _ => True
  | op => op.bookkeeping

/-- An invariant that the accept loop's own requests leave alone needs no armed state. -/
theorem ServeInvariant.of_kept {σ : Type} {monitor : Monitor Res σ} {setup : Setup}
    {listeners : List Listener} {holds : Memory → σ → Prop}
    (rests : ∀ {memory state}, holds memory state → monitor.stalls state)
    (quiet : ∀ {memory state op}, holds memory state → op.serving → monitor.allows state op)
    (kept : ∀ {memory state op answer after}, monitor.step state ⟨op, answer⟩ after
      → op.serving → holds memory state → holds memory after)
    (handled : ∀ {l memory state conn after}, l ∈ listeners
      → monitor.step state ⟨.accept l.fd, .ok conn⟩ after → holds memory state
      → wp monitor (handle setup conn l.volume memory)
          (fun result final => holds result.2 final) after)
    : ServeInvariant monitor setup listeners holds holds :=
  have serving {op : Op} (small : op.bookkeeping) : op.serving := by
    cases op <;> trivial
  {
    relax := id
    rests
    quiet := fun held small => quiet held (serving small)
    kept := fun step small => kept step (serving small)
    keptArmed := fun step small => kept step (serving small)
    polls := fun held => quiet held trivial
    polled := fun step => kept step trivial
    checks := fun held => quiet held trivial
    checked := fun step held => ⟨kept step trivial held, fun _ => kept step trivial held⟩
    accepts := fun _ held => quiet held trivial
    refused := fun _ step => kept step trivial
    handled
  }

namespace Serve

variable {σ : Type} {monitor : Monitor Res σ} {setup : Setup} {listeners : List Listener}
  {idle armed : Memory → σ → Prop}

/-- One accepted connection leaves the loop idle. -/
theorem acceptOne_wp (inv : ServeInvariant monitor setup listeners idle armed)
    {l : Listener} (member : l ∈ listeners) {state : ServeState} {s : σ}
    (held : armed state.memory s)
    : wp monitor (acceptOne setup l state) (fun next after => idle next.memory after) s := by
  refine wp_ask (inv.accepts member held) fun answer after step => ?_
  match answer with
  | .ok conn =>
      refine wp_then (inv.handled member step held) fun result final settled => ?_
      obtain ⟨counted, memory⟩ := result
      cases counted with
      | false => exact settled
      | true =>
          refine wp_ask (inv.quiet settled trivial) fun now later step => ?_
          exact inv.kept step trivial settled
  | .error .intr | .error .again => exact inv.refused member step held
  | .error .noent | .error .exist | .error .pipe | .error .noprotoopt | .error (.other _) =>
      have settled := inv.refused member step held
      refine wp_ask (inv.quiet settled trivial) fun _ later step => ?_
      exact inv.kept step trivial settled

/-- What holds when a round or a number of rounds is over. -/
def Settled (idle armed : Memory → σ → Prop) (result : ServeState × Option ExitCode)
    (state : σ) : Prop :=
  idle result.1.memory state ∧ (result.2 = none → armed result.1.memory state)

/-- A last log line before the loop is left. -/
theorem leave_wp (inv : ServeInvariant monitor setup listeners idle armed)
    {state : ServeState} {s : σ} (held : idle state.memory s) {code : ExitCode}
    (line : LogLine) (routine : line.routine)
    : wp monitor
        (do
          log line
          return (state, some code))
        (Settled idle armed) s := by
  refine wp_ask (inv.quiet held routine) fun _ after step => ?_
  exact ⟨inv.kept step routine held, fun going => by cases going⟩

/-- A stop check ends the loop or lets it go on armed. -/
theorem check_wp (inv : ServeInvariant monitor setup listeners idle armed)
    {state : ServeState} {s : σ} (held : idle state.memory s)
    {next : Sys (ServeState × Option ExitCode)}
    (goOn : ∀ after, armed state.memory after → wp monitor next (Settled idle armed) after)
    : wp monitor
        (do
          if ← terminating then
            log .askedToStop
            return (state, some .success)
          else
            next)
        (Settled idle armed) s := by
  refine wp_ask (inv.checks held) fun stop after step => ?_
  obtain ⟨settled, unset⟩ := inv.checked step held
  cases stop with
  | true => exact leave_wp inv settled .askedToStop trivial
  | false => exact goOn after (unset rfl)

/-- The loop over the ready listeners, by induction on them. -/
theorem serveReady_wp (inv : ServeInvariant monitor setup listeners idle armed)
    {pending : List Listener} (members : ∀ l ∈ pending, l ∈ listeners) {state : ServeState}
    {s : σ} (held : armed state.memory s)
    : wp monitor (serveReady setup pending state) (Settled idle armed) s := by
  induction pending generalizing state s with
  | nil => exact ⟨inv.relax held, fun _ => held⟩
  | cons l more ih =>
      obtain ⟨first, rest⟩ := List.forall_mem_cons.mp members
      refine wp_then (acceptOne_wp inv first held) fun next after settled => ?_
      exact check_wp inv settled fun later armedLater => ih rest armedLater

/-- Only listeners that are served are ever ready. -/
theorem mem_of_mem_ready {woken : Fin (listeners.map Listener.fd).length → Bool}
    {l : Listener} (member : l ∈ ready listeners woken)
    : l ∈ listeners := by
  obtain ⟨i, _, rfl⟩ := List.mem_map.mp member
  exact List.get_mem listeners i

/-- Asking whether the daemon is finished disturbs nothing. -/
theorem finished_wp (inv : ServeInvariant monitor setup listeners idle armed)
    {volumes : List String} {served : Finset String} {duration : Nat} {memory : Memory}
    {s : σ} (held : armed memory s)
    : wp monitor (finished volumes served duration) (fun _ after => armed memory after) s :=
  wp_invariant finished_only nofun (fun _ _ small here => inv.quiet (inv.relax here) small)
    (fun _ _ _ _ small here step => inv.keptArmed step small here) held

/-- One trip round the loop. -/
theorem serveRound_wp (inv : ServeInvariant monitor setup listeners idle armed)
    {state : ServeState} {s : σ} (held : armed state.memory s)
    : wp monitor (serveRound setup listeners state) (Settled idle armed) s := by
  refine wp_ask (inv.quiet (inv.relax held) trivial) fun now after step => ?_
  have armedAfter := inv.keptArmed step trivial held
  refine wp_then (finished_wp inv armedAfter) fun why later armedLater => ?_
  cases why with
  | some why => exact leave_wp inv (inv.relax armedLater) (.finished why) trivial
  | none =>
      refine wp_ask (inv.polls armedLater) fun woken last step => ?_
      refine check_wp inv (inv.polled step armedLater) fun final armedFinal => ?_
      match woken with
      | .ok bits => exact serveReady_wp inv (fun l => mem_of_mem_ready) armedFinal
      | .error .intr => exact ⟨inv.relax armedFinal, fun _ => armedFinal⟩
      | .error .again | .error .noent | .error .exist | .error .pipe | .error .noprotoopt
      | .error (.other _) => exact leave_wp inv (inv.relax armedFinal) (.pollFailed _) trivial

/-- Any number of trips round the loop, by induction on them. -/
theorem serveLoop_wp (inv : ServeInvariant monitor setup listeners idle armed)
    {rounds : Nat} {state : ServeState} {s : σ} (held : armed state.memory s)
    : wp monitor (serveLoop setup listeners rounds state) (Settled idle armed) s := by
  induction rounds generalizing state s with
  | zero => exact ⟨inv.relax held, fun _ => held⟩
  | succ rounds ih =>
      refine wp_then (serveRound_wp inv held) fun result after settled => ?_
      obtain ⟨next, code⟩ := result
      cases code with
      | none => exact ih (settled.2 rfl)
      | some code => exact settled

/-- The whole loop, from its first clock reading on. -/
theorem serve_wp (inv : ServeInvariant monitor setup listeners idle armed) {rounds : Nat}
    {s : σ} (held : armed Memory.new s)
    : wp monitor (serve setup rounds listeners) (fun _ after => ∃ memory, idle memory after)
        s := by
  refine wp_ask (inv.quiet (inv.relax held) trivial) fun now after step => ?_
  have armedAfter := inv.keptArmed step trivial held
  refine wp_then (serveLoop_wp inv armedAfter) fun result final settled => ?_
  obtain ⟨next, code⟩ := result
  cases code with
  | none => exact inv.rests (settled.2 rfl)
  | some code => exact ⟨next.memory, settled.1⟩

end Serve

/-- Taking the sockets away under a monitor that does not restrict it. -/
theorem shutdown_wp {σ : Type} {monitor : Monitor Res σ} {listeners : List Listener} {s : σ}
    (clearing : ∀ state op, op.clearing → monitor.allows state op)
    : wp monitor (shutdown listeners) (fun _ _ => True) s :=
  wp_invariant shutdown_only nofun (fun state op small _ => clearing state op small)
    (fun _ _ _ _ _ _ _ => trivial) trivial

/-- The daemon's run: its start, the accept loop from an invariant the start establishes,
and the removal of its sockets from wherever the loop was left.
-/
theorem daemon_wp {σ : Type} {monitor : Monitor Res σ} {setup : Setup} {rounds : Nat}
    {config socketDir : String} {s : σ} (ready : List Listener → σ → Prop)
    (started : wp monitor (start setup.fromStr config socketDir)
      (fun result after => ∀ listeners, result = .ok listeners → ready listeners after) s)
    (serving : ∀ listeners after, ready listeners after
      → ∃ idle armed, ServeInvariant monitor setup listeners idle armed
        ∧ armed Memory.new after
        ∧ ∀ memory final, idle memory final
          → wp monitor (shutdown listeners) (fun _ _ => True) final)
    : wp monitor (daemon setup rounds config socketDir) (fun _ _ => True) s := by
  refine wp_then started fun result after begun => ?_
  cases result with
  | error code => trivial
  | ok listeners =>
      obtain ⟨idle, armed, inv, held, stopping⟩ := serving listeners after (begun listeners rfl)
      refine wp_then (Serve.serve_wp inv held) fun code final settled => ?_
      obtain ⟨memory, left⟩ := settled
      exact wp_then (stopping memory final left) fun _ _ _ => trivial

end Tpm2Autoenroll
