import Tpm2Autoenroll.Serving.Connections
import Tpm2Autoenroll.Serving.Scenes

/-! What is ever written to a connection: nothing, or the beginning of one passphrase that was
checked for this volume in this connection, to a peer that was found to be entitled to it.
-/

namespace Tpm2Autoenroll

open Interaction Prog Monitor
open Text (Bytes)

/-- The bytes an event handed over. -/
def Event.written : Event → Bytes
  | ⟨.write _ buf, .ok n⟩ => buf.take n.val
  | _ => []

/-- The bytes handed over in a stretch of history, in order. -/
def written (trace : Trace) : Bytes := trace.flatMap Event.written

@[simp]
theorem written_nil : written [] = [] := rfl

@[simp]
theorem written_append {first second : Trace}
    : written (first ++ second) = written first ++ written second := by
  simp [written]

@[simp]
theorem written_singleton {event : Event} : written [event] = event.written := by
  simp [written]

/-- Nothing is handed over without a write. -/
theorem written_eq_nil {trace : Trace}
    (clean : ∀ event ∈ trace, ∀ fd buf, event.op ≠ .write fd buf)
    : written trace = [] := by
  refine List.flatMap_eq_nil_iff.mpr fun event member => ?_
  obtain ⟨op, answer⟩ := event
  cases op with
  | write fd buf => exact absurd rfl (clean _ member fd buf)
  | _ => rfl

@[simp]
theorem written_cons {event : Event} {trace : Trace}
    : written (event :: trace) = event.written ++ written trace := by
  simp [written]

/-- A history without writes or its last write, by induction from the end. -/
theorem exists_last_write (trace : Trace)
    : (∀ event ∈ trace, ∀ fd buf, event.op ≠ .write fd buf)
      ∨ ∃ first fd buf answer rest,
          trace = first ++ ⟨.write fd buf, answer⟩ :: rest
          ∧ ∀ event ∈ rest, ∀ fd buf, event.op ≠ .write fd buf := by
  induction trace using List.reverseRecOn with
  | nil => exact Or.inl fun _ member => (nomatch member)
  | append_singleton earlier event ih =>
      obtain ⟨op, answer⟩ := event
      by_cases writes : ∃ fd buf, op = .write fd buf
      · obtain ⟨fd, buf, rfl⟩ := writes
        exact Or.inr ⟨earlier, fd, buf, answer, [], rfl, fun _ member => (nomatch member)⟩
      · have last : ∀ fd buf, op ≠ .write fd buf := fun fd buf same => writes ⟨fd, buf, same⟩
        rcases ih with none | ⟨first, fd, buf, given, rest, rfl, clean⟩
        · left
          simpa [or_imp, forall_and] using ⟨none, last⟩
        · right
          refine ⟨first, fd, buf, given, rest ++ [⟨op, answer⟩], by simp, ?_⟩
          simpa [or_imp, forall_and] using ⟨clean, last⟩

-----------------------------------------------------------------------------------------
-- One connection
-----------------------------------------------------------------------------------------

/-- The peer has named the volume and the plain phase and is who it should be. -/
structure Identified (setup : Setup) (volume : Volume) (conn : Fd) (here : Trace) : Prop where
  named : ∃ name,
    (⟨.getpeername conn, .ok (some (.abstractName name))⟩ : Event) ∈ here
    ∧ Bindname.parse name = some ⟨.plain, Text.asBytes volume.name⟩
  peer : (Peer.check setup.systemdBinary conn volume.name).Ran (.ok ()) here

theorem Identified.append {setup : Setup} {volume : Volume} {conn : Fd} {here : Trace}
    (identified : Identified setup volume conn here) (more : Trace)
    : Identified setup volume conn (here ++ more) := by
  obtain ⟨name, event, parsed⟩ := identified.named
  exact ⟨⟨name, List.mem_append_left _ event, parsed⟩, identified.peer.append_right more⟩

/-- What entitles the peer of a connection to a passphrase: it is identified, and the
passphrase opens the volume's device.
-/
structure Entitled (setup : Setup) (volume : Volume) (conn : Fd) (secret : Secret)
    (here : Trace) : Prop extends Identified setup volume conn here where
  passphrase : ∃ device,
    (Device.open volume.device).Ran (.ok device) here
    ∧ (Luks.testPassphrase device secret).Ran .correct here
    ∧ ∃ before after, (acquire volume device before).Ran (some secret, after) here

theorem Entitled.append {setup : Setup} {volume : Volume} {conn : Fd} {secret : Secret}
    {here : Trace} (entitled : Entitled setup volume conn secret here) (more : Trace)
    : Entitled setup volume conn secret (here ++ more) := by
  obtain ⟨device, opened, correct, before, after, acquired⟩ := entitled.passphrase
  refine ⟨entitled.toIdentified.append more, device, opened.append_right more, ?_⟩
  exact ⟨correct.append_right more, before, after, acquired.append_right more⟩

namespace Disclosure

/-- Writing, and reporting that the write is done. -/
def Tells : Op → Prop
  | .write _ _ | .log (.returned _) => True
  | _ => False

/-- A write to `conn` of `buf`, in a connection that first made all its checks and since then
has only written the part of the passphrase before `buf`.
-/
def Replying (setup : Setup) (volume : Volume) (conn : Fd) (secret : Secret) (buf : Bytes)
    (here : Trace) : Prop :=
  ∃ checks replies,
    here = checks ++ replies
    ∧ (∀ event ∈ checks, ¬ Tells event.op)
    ∧ Entitled setup volume conn secret checks
    ∧ (∀ event ∈ replies, ∃ buf, event.op = .write conn buf)
    ∧ written replies ++ buf = secret.bytes

/-- A write may be made only in a connection that is replying, and a passphrase is reported
as returned only when nothing of it is left.
-/
def allows (setup : Setup) (config dir : String) (past : Trace) : Op → Prop
  | .write conn buf =>
      ∃ l secret, Within l.fd conn (Configured setup.fromStr config dir l)
        (Replying setup l.volume conn secret buf) past
  | .log (.returned volume) =>
      ∃ l conn secret, l.volume.name = volume
        ∧ Within l.fd conn (Configured setup.fromStr config dir l)
          (Replying setup l.volume conn secret []) past
  | _ => True

/-- Requests that neither write nor report a passphrase as returned. -/
structure Silent (allowed : Op → Prop) : Prop where
  write : ∀ fd buf, ¬ allowed (.write fd buf)
  report : ∀ volume, ¬ allowed (.log (.returned volume))

theorem Silent.quiet {allowed : Op → Prop} {op : Op} (silent : Silent allowed)
    (member : allowed op)
    : ¬ Tells op := by
  unfold Tells
  split
  · exact absurd member (silent.write _ _)
  · exact absurd member (silent.report _)
  · exact id

/-- A stretch that tells nothing hands over nothing. -/
theorem written_of_quiet {trace : Trace} (quiet : ∀ event ∈ trace, ¬ Tells event.op)
    : written trace = [] :=
  written_eq_nil fun event member fd buf same => quiet event member (by rw [same]; trivial)

variable {setup : Setup} {config dir : String} {l : Listener} {conn : Fd} {past : Trace}
  {earlier : Trace → Prop}

/-- The monitor restricts no other request. -/
private theorem allows_of {allowed : Op → Prop} {op : Op} (member : allowed op)
    (silent : Silent allowed)
    : allows setup config dir past op := by
  unfold allows
  split
  · exact absurd member (silent.write _ _)
  · exact absurd member (silent.report _)
  · trivial

/-- Nothing written so far, and some facts. -/
private def Clean (facts : Trace → Prop) (here : Trace) : Prop :=
  (∀ event ∈ here, ¬ Tells event.op) ∧ facts here

/-- A part of the connection that does not write. -/
private theorem part_wp {α : Type} {allowed : Op → Prop} {program : Sys α}
    {facts : Trace → Prop} {more : α → Trace → Prop} {fd : Fd}
    (within : Within fd conn earlier (Clean facts) past) (only : program.Only allowed)
    (silent : Silent allowed) (alone : ∀ other, ¬ allowed (.accept other))
    (gain : ∀ since trace value,
      facts since → program.Runs trace (some value) → more value (since ++ trace))
    : wp (history (allows setup config dir)) program
        (fun value final => Within fd conn earlier (Clean (more value)) final) past := by
  refine within.wp only (fun _ _ member => allows_of member silent) alone ?_
  intro since trace value clean run
  refine ⟨?_, gain since trace value clean.2 run⟩
  intro event member
  rcases List.mem_append.mp member with member | member
  · exact clean.1 event member
  · exact silent.quiet (only.mem run member)

/-- The loop of `write_all` writes what is left of the passphrase, and all of it when it
succeeds; by induction on its rounds.
-/
theorem writeRounds_wp {secret : Secret} {rounds : Nat} {buf : Bytes}
    (configured : ∀ past, earlier past → Configured setup.fromStr config dir l past)
    (within : Within l.fd conn earlier (Replying setup l.volume conn secret buf) past)
    : wp (history (allows setup config dir)) (writeRounds conn rounds buf)
        (fun result final => Within l.fd conn earlier
          (fun since => result = .ok () → Replying setup l.volume conn secret [] since) final)
        past := by
  induction rounds generalizing buf past with
  | zero =>
      cases buf with
      | nil => exact within.mono (fun _ => id) fun _ replying _ => replying
      | cons next later => trivial
  | succ rounds ih =>
      cases buf with
      | nil => exact within.mono (fun _ => id) fun _ replying _ => replying
      | cons next later =>
          have extended (answer : Res (.write conn (next :: later))) {rest : Bytes}
              (split : next :: later
                = Event.written ⟨.write conn (next :: later), answer⟩ ++ rest)
              : Within l.fd conn earlier (Replying setup l.volume conn secret rest)
                  (past ++ [⟨.write conn (next :: later), answer⟩]) := by
            refine within.append (by simp) fun since facts => ?_
            obtain ⟨checks, replies, rfl, clean, entitled, writes, whole⟩ := facts
            refine ⟨checks, replies ++ [⟨.write conn (next :: later), answer⟩],
              List.append_assoc _ _ _, clean, entitled, ?_, ?_⟩
            · intro event member
              rcases List.mem_append.mp member with member | member
              · exact writes event member
              · rw [List.mem_singleton.mp member]
                exact ⟨_, rfl⟩
            · rw [written_append, written_singleton, List.append_assoc, ← split, whole]
          refine wp_ask ?_ fun answer final step => ?_
          · exact ⟨l, secret, within.mono configured fun _ => id⟩
          · rw [history_step.mp step]
            match answer with
            | .ok n =>
                have handed := extended (.ok n) (List.take_append_drop n.val _).symm
                dsimp only
                split_ifs
                · exact handed.mono (fun _ => id) fun _ _ => nofun
                · exact ih handed
            | .error .intr => exact ih (extended (.error .intr) rfl)
            | .error .again | .error .noent | .error .exist | .error .pipe
            | .error .noprotoopt | .error (.other _) =>
                exact (extended (.error _) rfl).mono (fun _ => id) fun _ _ => nofun

variable {secret : Secret}

/-- The reply hands over the passphrase that was found, and says so only when all of it is
handed over.
-/
theorem reply_wp (configured : ∀ past, earlier past → Configured setup.fromStr config dir l past)
    (within : Within l.fd conn earlier (Clean (Entitled setup l.volume conn secret)) past)
    : wp (history (allows setup config dir))
        (reply setup.interruptions conn l.volume.name secret)
        (fun _ final => Within l.fd conn earlier (fun _ => True) final) past := by
  have replying : Within l.fd conn earlier (Replying setup l.volume conn secret secret.bytes)
      past := by
    refine within.mono (fun _ => id) fun since facts => ?_
    exact ⟨since, [], by simp, facts.1, facts.2, fun _ member => (nomatch member), rfl⟩
  refine wp_then (writeRounds_wp configured replying) fun result past within => ?_
  have logged (line : LogLine) (justified : allows setup config dir past (.log line))
      : wp (history (allows setup config dir)) (log line)
          (fun _ final => Within l.fd conn earlier (fun _ => True) final) past := by
    refine wp_ask_last justified fun _ final step => ?_
    rw [history_step.mp step]
    exact within.append (by simp) fun _ _ => trivial
  cases result with
  | ok =>
      have whole := within.mono configured fun since replying => replying rfl
      exact logged _ ⟨l, conn, secret, rfl, whole⟩
  | error e => exact logged _ trivial

/-- Log lines and other requests that look but do not touch. -/
private theorem look_wp {α : Type} {program : Sys α} {facts : Trace → Prop} {fd : Fd}
    (within : Within fd conn earlier (Clean facts) past) (only : program.Only Op.verifying)
    : wp (history (allows setup config dir)) program
        (fun _ final => Within fd conn earlier (fun _ => True) final) past :=
  within.wp only (fun _ _ member => allows_of member ⟨fun _ _ => id, fun _ => id⟩) (fun _ => id)
    fun _ _ _ _ _ => trivial

/-- The plain phase writes only a passphrase it has found correct for the volume. -/
theorem servePassphrase_wp {memory : Memory}
    (configured : ∀ past, earlier past → Configured setup.fromStr config dir l past)
    (within : Within l.fd conn earlier (Clean (Identified setup l.volume conn)) past)
    : wp (history (allows setup config dir)) (servePassphrase setup conn l.volume memory)
        (fun _ final => Within l.fd conn earlier (fun _ => True) final) past := by
  have announced : wp (history (allows setup config dir)) (log (.plainPhase l.volume.name))
      (fun _ final => Within l.fd conn earlier (Clean (Identified setup l.volume conn)) final)
      past :=
    part_wp within
      (show (log _).Only (· = .log (.plainPhase l.volume.name)) from ⟨rfl, fun _ => trivial⟩)
      ⟨fun _ _ => nofun, fun _ => nofun⟩ (fun _ => nofun)
      fun _ trace _ identified _ => identified.append trace
  refine wp_then announced fun _ past within => ?_
  have opened : wp (history (allows setup config dir)) (Device.open l.volume.device)
      (fun result final => Within l.fd conn earlier
        (Clean fun since => Identified setup l.volume conn since
          ∧ ∀ device, result = .ok device
            → (Device.open l.volume.device).Ran (.ok device) since) final) past := by
    refine part_wp within Device.open_only ⟨fun _ _ => id, fun _ => id⟩ (fun _ => id) ?_
    intro since trace result identified run
    exact ⟨identified.append trace, fun device made => (made ▸ run).ran.append_left since⟩
  refine wp_then opened fun result past within => ?_
  cases result with
  | error e => exact look_wp within ⟨trivial, fun _ => trivial⟩
  | ok device =>
      have acquired : wp (history (allows setup config dir))
          (acquire l.volume device memory.cache)
          (fun result final => Within l.fd conn earlier
            (Clean fun since => ∀ secret, result.1 = some secret
              → Entitled setup l.volume conn secret since) final) past := by
        refine part_wp within acquire_only ⟨fun _ _ => id, fun _ => id⟩ (fun _ => id) ?_
        intro since trace result facts run secret made
        obtain ⟨found, cache⟩ := result
        cases made
        refine ⟨facts.1.append trace, device, (facts.2 device rfl).append_right trace, ?_⟩
        exact ⟨(acquire_found run).append_left since, memory.cache, cache,
          run.ran.append_left since⟩
      refine wp_then acquired fun result past within => ?_
      match result with
      | (none, cache) => exact look_wp within ⟨trivial, fun _ => trivial⟩
      | (some secret, cache) =>
          have repaired : wp (history (allows setup config dir))
              (maybeReenroll setup.fromStr l.volume device secret memory.decided)
              (fun _ final => Within l.fd conn earlier
                (Clean (Entitled setup l.volume conn secret)) final) past := by
            refine part_wp within maybeReenroll_only ⟨fun _ _ => id, fun _ => id⟩ (fun _ => id) ?_
            exact fun _ trace _ facts _ => (facts secret rfl).append trace
          refine wp_then repaired fun decided past within => ?_
          exact wp_then (reply_wp configured within) fun _ _ within => within

/-- A phase is recognised only in an abstract name that asks for this volume. -/
theorem identify_phase {managed : Volume} {phase : Bindname.Phase} {trace : Trace}
    (run : (identify conn managed).Runs trace (some (some phase)))
    : ∃ name,
        (⟨.getpeername conn, .ok (some (.abstractName name))⟩ : Event) ∈ trace
        ∧ Bindname.parse name = some ⟨phase, Text.asBytes managed.name⟩ := by
  obtain ⟨peer, later, rfl, going⟩ := runs_ask.mp run
  match peer with
  | .error e | .ok none | .ok (some .foreign) | .ok (some .unix) =>
      obtain ⟨_, _, rfl, ended⟩ := runs_ask.mp going
      cases ended
  | .ok (some (.abstractName name)) =>
      dsimp only at going
      split at going
      · obtain ⟨_, _, rfl, ended⟩ := runs_ask.mp going
        cases ended
      next peerName parsed =>
        split_ifs at going with asked
        · obtain ⟨_, _, rfl, ended⟩ := runs_ask.mp going
          cases ended
        · cases going
          refine ⟨name, List.mem_cons_self, ?_⟩
          rw [parsed, ← not_ne_iff.mp asked]

/-- A connection writes only to a peer that is entitled to what is written. -/
theorem handle_wp {memory : Memory}
    (configured : ∀ past, earlier past → Configured setup.fromStr config dir l past)
    (within : Within l.fd conn earlier (· = []) past)
    : wp (history (allows setup config dir)) (handle setup conn l.volume memory)
        (fun _ final => Within l.fd conn earlier (fun _ => True) final) past := by
  have fresh : Within l.fd conn earlier (Clean fun _ => True) past :=
    within.mono (fun _ => id) fun since empty => by simp [empty, Clean]
  have dispatched : wp (history (allows setup config dir)) (dispatch setup conn l.volume memory)
      (fun _ final => Within l.fd conn earlier (fun _ => True) final) past := by
    have identified : wp (history (allows setup config dir)) (identify conn l.volume)
        (fun result final => Within l.fd conn earlier
          (Clean fun since => ∀ phase, result = some phase
            → ∃ name, (⟨.getpeername conn, .ok (some (.abstractName name))⟩ : Event) ∈ since
              ∧ Bindname.parse name = some ⟨phase, Text.asBytes l.volume.name⟩) final)
        past := by
      refine part_wp fresh identify_only ⟨fun _ _ => id, fun _ => id⟩ (fun _ => id) ?_
      intro since trace result _ run phase made
      obtain ⟨name, event, parsed⟩ := identify_phase (made ▸ run)
      exact ⟨name, List.mem_append_right _ event, parsed⟩
    refine wp_then identified fun phase past within => ?_
    match phase with
    | none => exact within.any
    | some .tpm2 | some .fido2Salt | some .pkcs11 | some .unknown =>
        exact look_wp within ⟨trivial, fun _ => trivial⟩
    | some .plain =>
        have checked : wp (history (allows setup config dir))
            (Peer.check setup.systemdBinary conn l.volume.name)
            (fun result final => Within l.fd conn earlier
              (Clean fun since => result = .ok () → Identified setup l.volume conn since)
              final) past := by
          refine part_wp within Peer.check_only ⟨fun _ _ => id, fun _ => id⟩ (fun _ => id) ?_
          intro since trace result named run accepted
          obtain ⟨name, event, parsed⟩ := named .plain rfl
          exact ⟨⟨name, List.mem_append_left _ event, parsed⟩,
            (accepted ▸ run).ran.append_left since⟩
        refine wp_then checked fun result past within => ?_
        cases result with
        | error why => exact look_wp within ⟨trivial, fun _ => trivial⟩
        | ok =>
            have identified := within.mono (fun _ => id) fun since facts =>
              (⟨facts.1, facts.2 rfl⟩ : Clean (Identified setup l.volume conn) since)
            exact wp_then (servePassphrase_wp configured identified) fun _ _ within => within
  refine wp_then dispatched fun result past within => ?_
  exact within.ask (fun _ _ _ => trivial) trivial (fun _ => nofun) fun _ _ within => within

/-- The daemon writes only in connections that are replying. -/
theorem daemon_wp {rounds : Nat}
    : wp (history (allows setup config dir)) (daemon setup rounds config dir)
        (fun _ _ => True) [] := by
  refine daemon_history_wp ?_ fun configured within => handle_wp configured within
  intro past op small
  rcases small with small | small | small <;> exact allows_of small ⟨fun _ _ => id, fun _ => id⟩

end Disclosure

/-- Whatever happens in a connection, the bytes written in it go to its own peer, and they are
none or the beginning of one passphrase. In that case the connection had first, before
anything was written, named its volume and the plain phase, passed the peer check, and
acquired the passphrase, which was reported correct on the volume's device. If the write is
reported as a success, all of that passphrase was written, once and in order.
-/
theorem passphrase_disclosure {setup : Setup} {rounds : Nat} {config dir : String}
    {before during after : Trace} {fd conn : Fd} {outcome : Option ExitCode}
    (run : (daemon setup rounds config dir).Runs
      (before ++ ⟨.accept fd, .ok conn⟩ :: during ++ after) outcome)
    (alone : ∀ event ∈ during, ∀ other, event.op ≠ .accept other)
    : (∀ event ∈ during, ∀ other buf, event.op = .write other buf → other = conn)
      ∧ (written during = []
        ∨ ∃ l secret checks replies,
            l.fd = fd
            ∧ Configured setup.fromStr config dir l before
            ∧ during = checks ++ replies
            ∧ written checks = []
            ∧ Entitled setup l.volume conn secret checks
            ∧ written during <+: secret.bytes)
      ∧ (∀ volume, ⟨.log (.returned volume), ()⟩ ∈ during
        → ∃ l secret, l.fd = fd ∧ l.volume.name = volume
          ∧ Configured setup.fromStr config dir l before
          ∧ Entitled setup l.volume conn secret during
          ∧ written during = secret.bytes) := by
  -- What any request of the connection had to satisfy when it was issued.
  have allowed {first rest : Trace} {event : Event} (split : during = first ++ event :: rest)
      : Disclosure.allows setup config dir
          (before ++ ⟨.accept fd, .ok conn⟩ :: first) event.op := by
    have whole : before ++ ⟨.accept fd, .ok conn⟩ :: during ++ after
        = (before ++ ⟨.accept fd, .ok conn⟩ :: first) ++ event :: (rest ++ after) := by
      simp [split]
    exact wp_allows Disclosure.daemon_wp (whole ▸ run) (path_history.mpr rfl)
  have aloneFirst {first rest : Trace} {event : Event} (split : during = first ++ event :: rest)
      : ∀ event ∈ first, ∀ other, event.op ≠ .accept other :=
    fun event member => alone event (split ▸ List.mem_append_left _ member)
  refine ⟨?_, ?_, ?_⟩
  · intro event member other buf same
    obtain ⟨op, answer⟩ := event
    subst same
    obtain ⟨first, rest, split⟩ := List.append_of_mem member
    obtain ⟨l, secret, within⟩ := allowed split
    exact (within.latest (aloneFirst split)).2.1
  · rcases exists_last_write during with none | ⟨first, other, buf, answer, rest, split, clean⟩
    · exact Or.inl (written_eq_nil none)
    · obtain ⟨l, secret, within⟩ := allowed split
      obtain ⟨sameFd, rfl, configured, checks, replies, rfl, checksClean, entitled, _, whole⟩ :=
        within.latest (aloneFirst split)
      have none := Disclosure.written_of_quiet checksClean
      refine Or.inr ⟨l, secret, checks, replies ++ ⟨.write other buf, answer⟩ :: rest, sameFd,
        configured, by simp [split], none, entitled, ?_⟩
      rw [split, ← whole]
      have restClean := written_eq_nil clean
      have handed : Event.written ⟨.write other buf, answer⟩ <+: buf := by
        cases answer with
        | ok n => exact List.take_prefix _ _
        | error e => exact List.nil_prefix
      simpa [none, restClean] using handed
  · intro volume member
    obtain ⟨first, rest, split⟩ := List.append_of_mem member
    obtain ⟨l, other, secret, named, within⟩ := allowed split
    obtain ⟨sameFd, rfl, configured, checks, replies, rfl, checksClean, entitled, _, whole⟩ :=
      within.latest (aloneFirst split)
    have none : written rest = [] := by
      -- A write after the report would have had the report among its checks or its replies.
      refine written_eq_nil fun event later fd buf same => ?_
      obtain ⟨earlier, last, rfl⟩ := List.append_of_mem later
      have again : during
          = (checks ++ replies ++ ⟨.log (.returned volume), ()⟩ :: earlier) ++ event :: last := by
        rw [split, List.append_assoc (checks ++ replies)]
        rfl
      have writing := allowed again
      rw [same] at writing
      obtain ⟨_, _, within⟩ := writing
      obtain ⟨_, _, _, asked, answered, parts, quiet, _, writes, _⟩ :=
        within.latest (aloneFirst again)
      have reported : (⟨.log (.returned volume), ()⟩ : Event) ∈ asked ++ answered := by
        rw [← parts]
        simp
      rcases List.mem_append.mp reported with report | report
      · exact quiet _ report trivial
      · obtain ⟨_, write⟩ := writes _ report
        cases write
    have checked := Disclosure.written_of_quiet checksClean
    refine ⟨l, secret, sameFd, named, configured, ?_, ?_⟩
    · rw [split, List.append_assoc]
      exact entitled.append _
    · rw [← whole, split]
      simp [checked, none, Event.written]

/-- The listener and the connection of an event that accepts one. -/
def Event.accepted : Event → Option (Fd × Fd)
  | ⟨.accept fd, .ok conn⟩ => some (fd, conn)
  | _ => none

theorem Event.eq_of_accepted {event : Event} {fd conn : Fd}
    (accepted : event.accepted = some (fd, conn))
    : event = ⟨.accept fd, .ok conn⟩ := by
  unfold Event.accepted at accepted
  split at accepted
  · cases accepted
    rfl
  · cases accepted

/-- A request to accept a connection. -/
def Event.accepting (event : Event) : Bool :=
  match event.op with
  | .accept _ => true
  | _ => false

open Scene in
/-- The first connection of a run in which the human declines to re-enroll. -/
theorem passphrase_disclosure_home
    : ∃ (l : Listener) (during : Trace), l.volume.name = "home"
        ∧ written during = Text.asBytes "correct horse"
        ∧ Entitled setup l.volume 110 ⟨written during⟩ during := by
  let trace : Trace := (play (twoVolumes "no" fun _ => [0xaa])).trace
  let opening (event : Event) : Bool := event.accepted = some (10, 110)
  let later : Trace := following opening trace
  let during : Trace := upTo Event.accepting later
  have seen : (trace.any opening, later.any Event.accepting,
      during.any fun event => event.op = .log (.returned "home"), written during)
        = (true, true, true, Text.asBytes "correct horse") := by
    decide +kernel
  simp only [Prod.mk.injEq] at seen
  obtain ⟨first, second, logged, whole⟩ := seen
  obtain ⟨event, accepted, split⟩ := exists_split first
  obtain ⟨next, _, rest⟩ := exists_split second
  obtain rfl := Event.eq_of_accepted (of_decide_eq_true accepted)
  have run : (daemon setup 2 Config.defaultPath Sockets.defaultDir).Runs
      (upTo opening trace ++ ⟨.accept 10, .ok 110⟩ :: upTo Event.accepting later
        ++ next :: following Event.accepting later)
      (play (twoVolumes "no" fun _ => [0xaa])).outcome := by
    rw [List.append_assoc, List.cons_append, ← rest, ← split]
    exact runs_drive _ _
  have alone : ∀ event ∈ during, ∀ other, event.op ≠ .accept other := by
    intro event member other same
    have accepting := stop_eq_false member
    simp [Event.accepting, same] at accepting
  have reported : ⟨.log (.returned "home"), ()⟩ ∈ during := by
    obtain ⟨⟨op, answer⟩, member, same⟩ := List.any_eq_true.mp logged
    obtain rfl : op = .log (.returned "home") := by simpa using same
    exact member
  obtain ⟨_, _, returned⟩ := passphrase_disclosure run alone
  obtain ⟨l, secret, _, named, _, entitled, handed⟩ := returned "home" reported
  exact ⟨l, during, named, whole, handed ▸ entitled⟩

end Tpm2Autoenroll
