import Tpm2Autoenroll.Serving.Directory

/-! What `listen` leaves in the directory: when a socket nobody listens on stays behind. -/

namespace Tpm2Autoenroll

open Interaction Prog Monitor

/-- The listeners that `listen` hands back. -/
def returnedListeners : Except String (List Listener) → List Listener
  | .ok listeners => listeners
  | .error _ => []

/-- At every volume's path there is no socket, or one that belongs to a returned listener. -/
def NoDeadSockets (dir : String) (volumes : List Volume) (listeners : List Listener)
    (d : Directory) : Prop :=
  ∀ volume ∈ volumes, d.entry (Sockets.path dir volume.name) = .socket
    → ∃ l ∈ listeners, l.path = Sockets.path dir volume.name ∧ d.owner l.path = some l.fd

/-- Once the loop of `listen` is over, no dead socket is left exactly when none was given up. -/
theorem Sockets.Listens.noDeadSockets {site : Site} {volumes : List Volume} {s after : State}
    {listeners : List Listener} (reliable : site.reliable)
    (listens : Listens site volumes s listeners after)
    : NoDeadSockets site.dir volumes listeners after.1
      ↔ ∀ volume ∈ volumes, path site.dir volume.name ∉ after.2.failed := by
  constructor
  · intro clean volume member failed
    obtain ⟨socket, unowned⟩ := listens.tracked _ failed
    obtain ⟨l, _, at_path, owned⟩ := clean volume member socket
    rw [at_path, unowned] at owned
    cases owned
  · intro unfailed volume member socket
    exact listens.served reliable volume member socket (unfailed volume member)

/-- Where `lstat` and `unlink` succeed, `listen` leaves no dead socket exactly when it got as
far as looking at the volumes or none of their paths held a socket before, and no volume's path
is one where `chmod` or `listen` failed after the last `bind` that succeeded there.
-/
theorem listen_noDeadSockets {site : Site} {volumes : List Volume} {before after : Directory}
    {trace : Trace} {result : Except String (List Listener)} (reliable : site.reliable)
    (run : (listen site.dir volumes).Runs trace (some result))
    (path : (Directory.watch site fun _ => True).Path before trace after)
    : NoDeadSockets site.dir volumes (returnedListeners result) after
      ↔ ((∃ first rest, trace = first ++ rest
            ∧ (Sockets.ensureDir site.dir).Runs first (some (.ok ())))
          ∨ ∀ volume ∈ volumes, before.entry (Sockets.path site.dir volume.name) ≠ .socket)
        ∧ ∀ volume ∈ volumes,
          Sockets.path site.dir volume.name ∉ (Creation.of trace).failed := by
  have watched : (Sockets.watch site fun _ => True).Path (before, ⟨none, ∅⟩) trace
      (after, Creation.of trace) :=
    path_along.mpr ⟨path, rfl⟩
  obtain ⟨ensured, first, rest, rfl, headRun, tailRun⟩ := runs_bind_some.mp run
  obtain ⟨middle, headPath, tailPath⟩ := path_append.mp watched
  let start : Sockets.State := (before, ⟨none, ∅⟩)
  have looked : wp (Sockets.watch site fun _ => True) (Sockets.ensureDir site.dir)
      (fun _ after => after = start) start :=
    Sockets.ensureDir_wp rfl
  have untouched := wp_post looked headRun headPath
  obtain rfl : middle = start := untouched
  cases ensured with
  | error e =>
      obtain ⟨rfl, rfl⟩ := runs_pure_some.mp tailRun
      obtain ⟨rfl, given⟩ := Prod.mk.inj (path_nil.mp tailPath)
      have noneFailed : ∀ volume ∈ volumes,
          Sockets.path site.dir volume.name ∉ (Creation.of (first ++ [])).failed := by
        rw [given]
        simp
      have notEnsured : ¬ ∃ start rest, first ++ [] = start ++ rest
          ∧ (Sockets.ensureDir site.dir).Runs start (some (.ok ())) := by
        intro ⟨start, rest, split, ok⟩
        rw [List.append_nil] at split
        cases (ok.stops (split ▸ headRun)).2
      constructor
      · intro clean
        refine ⟨Or.inr fun volume member socket => ?_, noneFailed⟩
        obtain ⟨_, among, _⟩ := clean volume member socket
        cases among
      · intro ⟨vacant, _⟩ volume member socket
        rcases vacant with ensured | vacant
        · exact absurd ensured notEnsured
        · exact absurd socket (vacant volume member)
  | ok =>
      obtain ⟨listeners, loop, last, rfl, loopRun, lastRun⟩ := runs_bind_some.mp tailRun
      obtain ⟨final, loopPath, lastPath⟩ := path_append.mp tailPath
      have tracked : Sockets.Tracked start :=
        fun path failed => absurd failed (Finset.notMem_empty path)
      have looped : wp (Sockets.watch site fun _ => True) (listenAll site.dir volumes)
          (Sockets.Listens site volumes start) start :=
        Sockets.listenAll_wp (fun _ _ => trivial) tracked
      have listens := wp_post looped loopRun loopPath
      have ended : last = [] ∧ returnedListeners result = listeners := by
        split_ifs at lastRun with empty
        · obtain ⟨rfl, rfl⟩ := runs_pure_some.mp lastRun
          exact ⟨rfl, (List.eq_nil_of_length_eq_zero empty).symm⟩
        · obtain ⟨rfl, rfl⟩ := runs_pure_some.mp lastRun
          exact ⟨rfl, rfl⟩
      obtain ⟨rfl, returned⟩ := ended
      rw [← path_nil.mp lastPath] at listens
      rw [returned]
      refine (listens.noDeadSockets reliable).trans ?_
      refine (and_iff_right ?_).symm
      exact Or.inl ⟨first, _, rfl, headRun⟩

namespace RefusedListen

/-- One volume. -/
def rootVolume : Volume where
  name := "root"
  device := "/dev/vda2"
  tpm2Device := "auto"
  pcrs := ⟨[7], by simp, by simp, by simp⟩
  bank := .sha256

/-- The directory where the daemon looks for it, with nothing failing but what the trace says. -/
def site : Site := ⟨Sockets.defaultDir, Config.defaultPath, "", True⟩

def rootKey : String := Sockets.path site.dir "root"

def refused : Errno := .other "Address already in use (os error 98)"

/-- Everything works but the last step of `bind`. -/
def trace : Trace := [
  ⟨.mkdir site.dir 0o700, .ok ()⟩,
  ⟨.chmod site.dir 0o700, .ok ()⟩,
  ⟨.lstat rootKey, .error .noent⟩,
  ⟨.socketAddr rootKey, .ok ()⟩,
  ⟨.socket, .ok 3⟩,
  ⟨.bind 3 rootKey, .ok ()⟩,
  ⟨.chmod rootKey 0o600, .ok ()⟩,
  ⟨.listen 3 Sockets.backlog, .error refused⟩,
  ⟨.close 3, ()⟩,
  ⟨.log (.couldNotListen "root" rootKey s!"listen {rootKey}: {refused.display}"), ()⟩]

theorem runs
    : (listen site.dir [rootVolume]).Runs trace
        (some (.error "no usable listening sockets")) := by
  exact .call _ <| .call _ <| .call _ <| .call _ <| .call _ <| .call _ <| .call _ <| .call _
    <| .call _ <| .call _ <| .ret _

/-- A directory with nothing in it. -/
def vacant : Directory := ⟨fun _ => .absent, fun _ => none, fun _ _ => nofun⟩

/-- The socket is there and nobody owns it. -/
def deadSocket : Directory := (vacant.create 3 rootKey).release 3

theorem path
    : (Directory.watch site fun _ => True).Path vacant trace deadSocket := by
  have unused : ∀ path, vacant.owner path ≠ some 3 := fun _ => nofun
  exact .cons rfl <| .cons rfl <| .cons ⟨rfl, fun _ => rfl⟩ <| .cons rfl
    <| .cons ⟨rfl, unused⟩ <| .cons ⟨rfl, rfl⟩ <| .cons rfl <| .cons rfl <| .cons rfl
    <| .cons rfl <| .nil _

/-- A volume that is dropped because `listen` failed leaves its socket behind. -/
theorem leaves_deadSocket
    : (listen site.dir [rootVolume]).Runs trace
        (some (.error "no usable listening sockets"))
      ∧ (Directory.watch site fun _ => True).Path vacant trace deadSocket
      ∧ ¬ NoDeadSockets site.dir [rootVolume] [] deadSocket := by
  refine ⟨runs, path, fun clean => ?_⟩
  have socket : deadSocket.entry rootKey = .socket := vacant.create_entry 3 rootKey
  obtain ⟨_, among, _⟩ := clean rootVolume (List.mem_singleton_self _) socket
  cases among

/-- What decides it in that run. -/
theorem noDeadSockets_iff
    : NoDeadSockets site.dir [rootVolume]
        (returnedListeners (.error "no usable listening sockets")) deadSocket
      ↔ ((∃ first rest, trace = first ++ rest
            ∧ (Sockets.ensureDir site.dir).Runs first (some (.ok ())))
          ∨ ∀ volume ∈ [rootVolume],
            vacant.entry (Sockets.path site.dir volume.name) ≠ .socket)
        ∧ ∀ volume ∈ [rootVolume],
          Sockets.path site.dir volume.name ∉ (Creation.of trace).failed := by
  have reliable : site.reliable := trivial
  exact listen_noDeadSockets reliable runs path

end RefusedListen

end Tpm2Autoenroll
