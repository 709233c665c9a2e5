import Mathlib.Logic.Relation
import Tpm2Autoenroll.Serving.Directory
import Tpm2Autoenroll.Serving.Rules

/-! What is left of the key sockets when `clear_sockets` has run after a daemon that was killed
anywhere, and what none of the functions that touch the directory ever touches.
-/

namespace Tpm2Autoenroll

open Interaction Prog Monitor

/-- The key paths of the volumes that the configuration file has. -/
def Site.managed (site : Site) (fromStr : Json.Reader) (path : String) : Prop :=
  ∃ loaded, Config.parse fromStr site.text = .ok loaded
    ∧ ∃ volume ∈ loaded.volumes, path = Sockets.path site.dir volume.name

theorem Site.managed.ne_dir {site : Site} {fromStr : Json.Reader} {path : String}
    (managed : site.managed fromStr path)
    : path ≠ site.dir := by
  obtain ⟨_, _, volume, _, rfl⟩ := managed
  exact Sockets.path_ne_dir

namespace Cleanup

/-- The watch over the directory of a site. -/
abbrev watch (site : Site) (fromStr : Json.Reader) : Monitor Res Directory :=
  Directory.watch site (site.managed fromStr)

variable {site : Site} {fromStr : Json.Reader} {d : Directory}

/-- A part that neither binds nor unlinks. -/
theorem apart_wp {α : Type} {program : Sys α} {allowed : Op → Prop} {left : Prop}
    (only : program.Only allowed left) (bind : ∀ fd path, ¬ allowed (.bind fd path))
    (unlink : ∀ path, ¬ allowed (.unlink path))
    : wp (watch site fromStr) program (fun _ _ => True) d := by
  refine wp_of_only only (fun d op member => ?_) (fun _ _ => trivial) fun _ _ _ _ _ => trivial
  cases op with
  | bind fd path => exact absurd member (bind fd path)
  | unlink path => exact absurd member (unlink path)
  | _ => trivial

-----------------------------------------------------------------------------------------
-- Clearing
-----------------------------------------------------------------------------------------

/-- Clearing a key path removes a socket or nothing, and leaves no socket where it cannot
fail.
-/
theorem clear_wp {path : String} (managed : site.managed fromStr path)
    : wp (watch site fromStr) (Sockets.clear path)
        (fun _ after => (∀ other, after.entry other = .socket → d.entry other = .socket)
          ∧ (site.reliable → after.entry path ≠ .socket)) d := by
  refine wp_of_along Creation.observe ⟨none, ∅⟩ ?_
  refine wp_mono (Sockets.clear_wp managed managed.ne_dir) fun result after clears => ?_
  refine ⟨fun other socket => ?_, fun reliable => ?_⟩
  · rcases clears.moved with same | ⟨entry, same⟩
    · rw [same] at socket
      exact socket
    · by_cases here : other = path
      · rw [here]
        exact entry
      · rw [same] at socket
        have before : (d.remove path).entry other = d.entry other :=
          Function.update_of_ne here _ _
        exact before.symm.trans socket
  · match result with
    | .error e => exact absurd rfl (clears.certain reliable e)
    | .ok .kept =>
        obtain ⟨same, entry⟩ := clears.kept rfl
        rw [same, entry]
        nofun
    | .ok .absent =>
        rw [clears.removed _ rfl nofun]
        nofun
    | .ok .removed =>
        rw [clears.removed _ rfl nofun]
        nofun

/-- The loop of `clear_sockets` leaves no socket at a volume's path, by induction on them. -/
theorem clearAll_wp {volumes : List Volume} {stuck : Bool}
    (managed : ∀ volume ∈ volumes,
      site.managed fromStr (Sockets.path site.dir volume.name))
    : wp (watch site fromStr) (clearAll site.dir volumes stuck)
        (fun _ after => (∀ other, after.entry other = .socket → d.entry other = .socket)
          ∧ (site.reliable → ∀ volume ∈ volumes,
            after.entry (Sockets.path site.dir volume.name) ≠ .socket)) d := by
  induction volumes generalizing d stuck with
  | nil => exact ⟨fun _ => id, fun _ _ member => (nomatch member)⟩
  | cons volume rest ih =>
      obtain ⟨first, others⟩ := List.forall_mem_cons.mp managed
      refine wp_then (clear_wp first) fun result middle cleared => ?_
      -- Whatever was logged, the rest only removes sockets.
      have going (stuck : Bool)
          : wp (watch site fromStr) (clearAll site.dir rest stuck)
              (fun _ after => (∀ other, after.entry other = .socket → d.entry other = .socket)
                ∧ (site.reliable → ∀ v ∈ volume :: rest,
                  after.entry (Sockets.path site.dir v.name) ≠ .socket)) middle := by
        refine wp_mono (ih others) fun _ after left => ?_
        refine ⟨fun other socket => cleared.1 other (left.1 other socket), ?_⟩
        intro reliable
        refine List.forall_mem_cons.mpr ⟨fun socket => ?_, left.2 reliable⟩
        exact cleared.2 reliable (left.1 _ socket)
      have logging (line : LogLine) (stuck : Bool)
          : wp (watch site fromStr)
              (do
                log line
                clearAll site.dir rest stuck)
              (fun _ after => (∀ other, after.entry other = .socket → d.entry other = .socket)
                ∧ (site.reliable → ∀ v ∈ volume :: rest,
                  after.entry (Sockets.path site.dir v.name) ≠ .socket)) middle := by
        refine wp_ask trivial fun _ after step => ?_
        obtain rfl : after = middle := step
        exact going stuck
      match result with
      | .ok .absent => exact going stuck
      | .ok .removed => exact logging _ stuck
      | .ok .kept => exact logging _ stuck
      | .error e => exact logging _ true

/-- `config::read` accepts what the file's text means and nothing else. -/
theorem read_wp
    : wp (watch site fromStr) (Config.read fromStr site.config)
        (fun result after => after = d ∧ ∀ loaded, result = .ok loaded
          ↔ Config.parse fromStr site.text = .ok loaded) d := by
  refine wp_ask trivial fun answer after step => ?_
  obtain ⟨same, read⟩ := step
  rw [read rfl]
  refine ⟨same, fun loaded => ?_⟩
  cases Config.parse fromStr site.text with
  | error e => exact ⟨nofun, nofun⟩
  | ok found => exact Iff.rfl

/-- `clear_sockets` leaves no socket at a key path where it cannot fail. -/
theorem clearSockets_wp
    : wp (watch site fromStr) (clearSockets fromStr site.config site.dir)
        (fun _ after => site.reliable → ∀ path, site.managed fromStr path
          → after.entry path ≠ .socket) d := by
  refine wp_then read_wp fun result after read => ?_
  obtain ⟨_, accepted⟩ := read
  cases result with
  | error e =>
      refine wp_ask trivial fun _ last _ _ path managed => ?_
      obtain ⟨loaded, parsed, _⟩ := managed
      cases (accepted loaded).mpr parsed
  | ok loaded =>
      have parsed := (accepted loaded).mp rfl
      have all : ∀ volume ∈ loaded.volumes,
          site.managed fromStr (Sockets.path site.dir volume.name) :=
        fun volume member => ⟨loaded, parsed, volume, member, rfl⟩
      refine wp_then (clearAll_wp all) fun stuck final cleared => ?_
      have clean : site.reliable → ∀ path, site.managed fromStr path
          → final.entry path ≠ .socket := by
        intro reliable path managed
        obtain ⟨again, same, volume, member, rfl⟩ := managed
        cases parsed.symm.trans same
        exact cleared.2 reliable volume member
      split_ifs <;> exact clean

-----------------------------------------------------------------------------------------
-- Listening and stopping
-----------------------------------------------------------------------------------------

/-- `listen` binds key paths only and hands back listeners at key paths. -/
theorem listen_wp {volumes : List Volume}
    (managed : ∀ volume ∈ volumes,
      site.managed fromStr (Sockets.path site.dir volume.name))
    : wp (watch site fromStr) (listen site.dir volumes)
        (fun result _ => ∀ listeners, result = .ok listeners
          → ∀ l ∈ listeners, site.managed fromStr l.path) d := by
  refine wp_of_along Creation.observe ⟨none, ∅⟩ ?_
  refine wp_then (Sockets.ensureDir_wp rfl) fun ensured after same => ?_
  cases ensured with
  | error e => exact wp_pure.mpr nofun
  | ok =>
      have tracked : Sockets.Tracked after := by
        rw [same]
        exact fun path failed => absurd failed (Finset.notMem_empty path)
      refine wp_then (Sockets.listenAll_wp managed tracked) fun listeners final listens => ?_
      split_ifs
      · exact wp_pure.mpr nofun
      · refine wp_pure.mpr fun made same l member => ?_
        cases same
        obtain ⟨volume, among, located⟩ := listens.paths l member
        rw [located]
        exact managed volume among

/-- `shutdown` clears key paths, by induction on the listeners. -/
theorem shutdown_wp {listeners : List Listener}
    (managed : ∀ l ∈ listeners, site.managed fromStr l.path)
    : wp (watch site fromStr) (shutdown listeners) (fun _ _ => True) d := by
  induction listeners generalizing d with
  | nil => trivial
  | cons l rest ih =>
      obtain ⟨first, others⟩ := List.forall_mem_cons.mp managed
      refine wp_then (clear_wp first) fun result middle _ => ?_
      match result with
      | .ok .absent | .ok .removed => exact ih others
      | .ok .kept | .error e => exact wp_ask trivial fun _ _ _ => ih others

/-- Log lines. -/
theorem logEach_wp {α : Type} {line : α → LogLine} {items : List α}
    : wp (watch site fromStr) (logEach line items) (fun _ _ => True) d := by
  have only : (logEach line items).Only Op.connecting := logEach_only fun _ => trivial
  exact apart_wp only (by simp) (by simp)

/-- Every volume of a loaded configuration has a key path. -/
theorem load_wp
    : wp (watch site fromStr) (Config.load fromStr site.config)
        (fun result _ => ∀ volumes, result = .ok volumes → ∀ volume ∈ volumes,
          site.managed fromStr (Sockets.path site.dir volume.name)) d := by
  refine wp_then read_wp fun result after read => ?_
  cases result with
  | error e => exact wp_pure.mpr nofun
  | ok loaded =>
      have parsed := (read.2 loaded).mp rfl
      refine wp_then logEach_wp fun _ final _ => wp_pure.mpr fun volumes same volume member => ?_
      cases same
      exact ⟨loaded, parsed, volume, member, rfl⟩

/-- The daemon starts with listeners at key paths. -/
theorem start_wp
    : wp (watch site fromStr) (start fromStr site.config site.dir)
        (fun result _ => ∀ listeners, result = .ok listeners
          → ∀ l ∈ listeners, site.managed fromStr l.path) d := by
  refine wp_ask trivial fun _ d _ => wp_ask trivial fun _ d _ => wp_ask trivial fun _ d _ => ?_
  refine wp_then load_wp fun result d loaded => ?_
  cases result with
  | error e => exact wp_ask trivial fun _ _ _ => wp_pure.mpr nofun
  | ok volumes =>
      dsimp only
      split_ifs
      · exact wp_ask trivial fun _ _ _ => wp_ask trivial fun _ _ _ => wp_pure.mpr nofun
      · refine wp_then (listen_wp (loaded volumes rfl)) fun result d listening => ?_
        cases result with
        | error e => exact wp_ask trivial fun _ _ _ => wp_pure.mpr nofun
        | ok listeners =>
            refine wp_then logEach_wp fun _ d _ => wp_ask trivial fun _ d _ => ?_
            refine wp_pure.mpr fun same made => ?_
            cases made
            exact listening listeners rfl

/-- Connections neither bind nor unlink. -/
theorem serving {setup : Setup} {listeners : List Listener}
    : ServeInvariant (watch site fromStr) setup listeners (fun _ _ => True)
        (fun _ _ => True) := by
  refine .of_kept (fun _ => trivial) ?_ (fun _ _ _ => trivial) ?_
  · intro _ d op _ small
    cases op with
    | bind fd path => exact small.elim
    | unlink path => exact small.elim
    | _ => trivial
  · intro l memory d conn after _ _ _
    exact apart_wp handle_only (by simp) (by simp)

/-- The daemon binds key paths only, and unlinks only sockets at key paths. -/
theorem daemon_wp {setup : Setup} {rounds : Nat}
    : wp (watch site setup.fromStr) (daemon setup rounds site.config site.dir)
        (fun _ _ => True) d := by
  refine Tpm2Autoenroll.daemon_wp
    (fun listeners _ => ∀ l ∈ listeners, site.managed setup.fromStr l.path) start_wp ?_
  intro listeners d managed
  exact ⟨_, _, serving, trivial, fun _ _ _ => shutdown_wp managed⟩

-----------------------------------------------------------------------------------------
-- What is never touched
-----------------------------------------------------------------------------------------

/-- Whatever is not a socket is still there, and so is everything away from the key paths. -/
structure Framed (site : Site) (fromStr : Json.Reader) (before after : Directory) : Prop where
  other : ∀ path, before.entry path = .other → after.entry path = .other
  unmanaged : ∀ path, ¬ site.managed fromStr path → after.entry path = before.entry path

/-- Replacing what is at a key path, unless something other than a socket is there. -/
theorem Framed.update {before after : Directory} {path : String} {entry : Entry}
    (framed : Framed site fromStr before d) (managed : site.managed fromStr path)
    (ours : d.entry path ≠ .other) (changed : after.entry = Function.update d.entry path entry)
    : Framed site fromStr before after := by
  refine ⟨fun place other => ?_, fun place unmanaged => ?_⟩
  · have still := framed.other place other
    have apart : place ≠ path := fun here => ours (here ▸ still)
    rw [changed, Function.update_of_ne apart]
    exact still
  · have apart : place ≠ path := fun here => unmanaged (here ▸ managed)
    rw [changed, Function.update_of_ne apart]
    exact framed.unmanaged place unmanaged

/-- Every step that the watch allows leaves that alone. -/
theorem Framed.step {before after : Directory} {op : Op} {answer : Res op}
    (allowed : (watch site fromStr).allows d op)
    (step : (watch site fromStr).step d ⟨op, answer⟩ after)
    (framed : Framed site fromStr before d)
    : Framed site fromStr before after := by
  have same (entries : after.entry = d.entry) : Framed site fromStr before after := by
    refine ⟨fun path other => ?_, fun path unmanaged => ?_⟩
    · exact (congrFun entries path).trans (framed.other path other)
    · exact (congrFun entries path).trans (framed.unmanaged path unmanaged)
  by_cases settled : op.settled
  · exact same (congrArg Directory.entry (Directory.step_settled settled step))
  cases op with
  | unlink path =>
      cases answer with
      | error e => exact same (congrArg Directory.entry step.1)
      | ok =>
          refine framed.update allowed.1 ?_ (congrArg Directory.entry step)
          rw [allowed.2]
          nofun
  | bind fd path =>
      cases answer with
      | error e => exact same (congrArg Directory.entry step)
      | ok =>
          refine framed.update allowed ?_ (congrArg Directory.entry step.1)
          rw [step.2]
          nofun
  | close fd =>
      have released : after = d.release fd := step
      exact same (by rw [released, Directory.release_entry])
  | chmod path mode => exact same (congrArg Directory.entry step)
  | listen fd backlog => exact same (congrArg Directory.entry step)
  | _ => exact absurd trivial settled

/-- A run leaves that alone, wherever it is stopped. -/
theorem Framed.run {α : Type} {program : Sys α} {post : α → Directory → Prop}
    {before after : Directory} {trace : Trace} {outcome : Option α}
    (specified : wp (watch site fromStr) program post before)
    (run : program.Runs trace outcome) (path : (watch site fromStr).Path before trace after)
    : Framed site fromStr before after := by
  refine wp_safe specified run path (fun _ _ _ _ allowed step => ?_) ?_
  · exact Framed.step allowed step
  · exact ⟨fun _ => id, fun _ _ => rfl⟩

/-- One of the functions that touch the directory, run to its end or killed on the way, or the
end of the process, which closes its descriptors.
-/
inductive Step (site : Site) (fromStr : Json.Reader) : Directory → Directory → Prop
  | listen {loaded : Config.Loaded} {trace : Trace} {before after : Directory}
    {outcome : Option (Except String (List Listener))}
    (parsed : Config.parse fromStr site.text = .ok loaded)
    (run : (Tpm2Autoenroll.listen site.dir loaded.volumes).Runs trace outcome)
    (path : (watch site fromStr).Path before trace after)
    : Step site fromStr before after
  | shutdown {listeners : List Listener} {trace : Trace} {before after : Directory}
    {outcome : Option Unit}
    (ours : ∀ l ∈ listeners, site.managed fromStr l.path)
    (run : (Tpm2Autoenroll.shutdown listeners).Runs trace outcome)
    (path : (watch site fromStr).Path before trace after)
    : Step site fromStr before after
  | clearSockets {trace : Trace} {before after : Directory} {outcome : Option ExitCode}
    (run : (Tpm2Autoenroll.clearSockets fromStr site.config site.dir).Runs trace outcome)
    (path : (watch site fromStr).Path before trace after)
    : Step site fromStr before after
  | ended (before : Directory) : Step site fromStr before before.abandon

theorem Step.framed {before after : Directory} (step : Step site fromStr before after)
    : Framed site fromStr before after := by
  cases step with
  | listen parsed run path =>
      exact .run (listen_wp fun volume member => ⟨_, parsed, volume, member, rfl⟩) run path
  | shutdown ours run path => exact .run (shutdown_wp ours) run path
  | clearSockets run path => exact .run clearSockets_wp run path
  | ended => exact ⟨fun _ => id, fun _ _ => rfl⟩

/-- Any sequence of such steps, by induction on it. -/
theorem framed_of_steps {before after : Directory}
    (steps : Relation.ReflTransGen (Step site fromStr) before after)
    : Framed site fromStr before after := by
  induction steps with
  | refl => exact ⟨fun _ => id, fun _ _ => rfl⟩
  | tail _ last ih =>
      have framed := last.framed
      refine ⟨fun path other => framed.other path (ih.other path other), ?_⟩
      intro path unmanaged
      exact (framed.unmanaged path unmanaged).trans (ih.unmanaged path unmanaged)

end Cleanup

/-- Wherever the daemon is killed, `clear_sockets` with the same configuration and with
`lstat` and `unlink` succeeding leaves no socket at any path the daemon had bound; and no
sequence of `listen`, `shutdown` and `clear_sockets`, each completed or killed, changes what is
not a socket or is not at the key path of a configured volume.
-/
theorem crash_safe_cleanup {setup : Setup} {rounds : Nat} {site : Site}
    : (∀ before killed cleared trace clearing outcome code,
        (daemon setup rounds site.config site.dir).Runs trace outcome
        → (Cleanup.watch site setup.fromStr).Path before trace killed
        → (clearSockets setup.fromStr site.config site.dir).Runs clearing (some code)
        → (Cleanup.watch { site with reliable := True } setup.fromStr).Path killed.abandon
          clearing cleared
        → ∀ fd path, ⟨.bind fd path, .ok ()⟩ ∈ trace → cleared.entry path ≠ .socket)
      ∧ (∀ before after,
        Relation.ReflTransGen (Cleanup.Step site setup.fromStr) before after
        → (∀ path, before.entry path = .other → after.entry path = .other)
          ∧ ∀ path, ¬ site.managed setup.fromStr path
            → after.entry path = before.entry path) := by
  refine ⟨?_, ?_⟩
  · intro before killed cleared trace clearing outcome code run path clearingRun clearingPath
      fd bound member
    have managed : site.managed setup.fromStr bound := by
      obtain ⟨first, rest, rfl⟩ := List.append_of_mem member
      obtain ⟨middle, head, _⟩ := path_append.mp path
      exact wp_allows Cleanup.daemon_wp run head
    let reliable : Site := { site with reliable := True }
    have specified : wp (Cleanup.watch reliable setup.fromStr)
        (clearSockets setup.fromStr reliable.config reliable.dir)
        (fun _ after => reliable.reliable → ∀ path, reliable.managed setup.fromStr path
          → after.entry path ≠ .socket) killed.abandon :=
      Cleanup.clearSockets_wp
    exact wp_post specified clearingRun clearingPath trivial bound managed
  · intro before after steps
    have framed := Cleanup.framed_of_steps steps
    exact ⟨framed.other, framed.unmanaged⟩

end Tpm2Autoenroll
