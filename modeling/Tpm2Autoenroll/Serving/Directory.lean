import Mathlib.Data.Finset.Basic
import Tpm2Autoenroll.Serving.Footprints

/-! The directory of the key sockets as the daemon's system calls see it and change it, and
what each function of `sockets.rs` does to it.
-/

namespace Tpm2Autoenroll

open Interaction Prog Monitor

/-- What is at a path. -/
inductive Entry
  | absent
  | socket
  | other
  deriving DecidableEq

def Entry.of (fileType : FileType) : Entry := if fileType = .socket then .socket else .other

/-- What stays the same around the directory: its own path, the configuration file with its
text, and whether `lstat` and `unlink` can be relied on to succeed.
-/
structure Site where
  dir : String
  config : String
  text : String
  reliable : Prop

/-- The directory: what is at each path, and the open descriptor that a socket belongs to. -/
@[ext]
structure Directory where
  entry : String → Entry
  owner : String → Option Fd
  owned : ∀ path fd, owner path = some fd → entry path = .socket

namespace Directory

/-- Nothing is at the path any more. -/
def remove (d : Directory) (path : String) : Directory where
  entry := Function.update d.entry path .absent
  owner := Function.update d.owner path none
  owned := by
    intro other fd owned
    by_cases here : other = path
    · simp [here] at owned
    · rw [Function.update_of_ne here] at owned ⊢
      exact d.owned other fd owned

/-- A socket of the descriptor is at the path. -/
def create (d : Directory) (fd : Fd) (path : String) : Directory where
  entry := Function.update d.entry path .socket
  owner := Function.update d.owner path (some fd)
  owned := by
    intro other holder owned
    by_cases here : other = path
    · simp [here]
    · rw [Function.update_of_ne here] at owned ⊢
      exact d.owned other holder owned

/-- The descriptor is closed; a socket it had in the filesystem stays there. -/
def release (d : Directory) (fd : Fd) : Directory where
  entry := d.entry
  owner path := if d.owner path = some fd then none else d.owner path
  owned := by
    intro path holder owned
    split_ifs at owned
    exact d.owned path holder owned

/-- Every descriptor is closed, as when the process is killed. -/
def abandon (d : Directory) : Directory where
  entry := d.entry
  owner _ := none
  owned := by
    intro path fd owned
    cases owned

@[simp]
theorem create_entry (d : Directory) (fd : Fd) (path : String)
    : (d.create fd path).entry path = .socket :=
  Function.update_self _ _ _

@[simp]
theorem create_owner (d : Directory) (fd : Fd) (path : String)
    : (d.create fd path).owner path = some fd :=
  Function.update_self _ _ _

@[simp]
theorem release_entry (d : Directory) (fd : Fd) : (d.release fd).entry = d.entry := rfl

/-- How an answer depends on the directory and what the call does to it. `bind` never takes a
path that is in use, and a new descriptor is not one that is still open.
-/
def Step (site : Site) (d : Directory) (event : Event) (after : Directory) : Prop :=
  match event with
  | ⟨.lstat path, .ok stat⟩ =>
      after = d ∧ (path ≠ site.dir → d.entry path = Entry.of stat.fileType)
  | ⟨.lstat path, .error .noent⟩ => after = d ∧ (path ≠ site.dir → d.entry path = .absent)
  | ⟨.lstat path, .error _⟩ => after = d ∧ (path ≠ site.dir → ¬ site.reliable)
  | ⟨.unlink path, .ok ()⟩ => after = d.remove path
  | ⟨.unlink _, .error _⟩ => after = d ∧ ¬ site.reliable
  | ⟨.socket, .ok fd⟩ => after = d ∧ ∀ path, d.owner path ≠ some fd
  | ⟨.bind fd path, .ok ()⟩ => after = d.create fd path ∧ d.entry path = .absent
  | ⟨.close fd, _⟩ => after = d.release fd
  | ⟨.readFile path, answer⟩ => after = d ∧ (path = site.config → answer = .ok site.text)
  | _ => after = d

/-- The watch over the directory: only managed paths are bound, and only sockets at managed
paths are unlinked.
-/
def watch (site : Site) (managed : String → Prop) : Monitor Res Directory where
  allows d op :=
    match op with
    | .bind _ path => managed path
    | .unlink path => managed path ∧ d.entry path = .socket
    | _ => True
  step := Step site

end Directory

/-- Which sockets were created and then given up: the path of the last `bind` that succeeded,
and the paths where the `chmod` or `listen` after it failed.
-/
structure Creation where
  current : Option String
  failed : Finset String
  deriving DecidableEq

namespace Creation

def observe (creation : Creation) (event : Event) : Creation :=
  match event with
  | ⟨.bind _ path, .ok ()⟩ => ⟨some path, creation.failed.erase path⟩
  | ⟨.unlink path, .ok ()⟩ => { creation with failed := creation.failed.erase path }
  | ⟨.chmod path _, .error _⟩ =>
      if creation.current = some path then
        { creation with failed := insert path creation.failed }
      else creation
  | ⟨.listen _ _, .error _⟩ =>
      match creation.current with
      | some path => { creation with failed := insert path creation.failed }
      | none => creation
  | _ => creation

def of (trace : Trace) : Creation := trace.foldl observe ⟨none, ∅⟩

end Creation

/-- Requests that leave the directory and the creation of sockets alone. -/
@[simp]
def Op.settled : Op → Prop
  | .unlink _ | .bind _ _ | .close _ | .chmod _ _ | .listen _ _ => False
  | _ => True

theorem Directory.step_settled {site : Site} {d after : Directory} {op : Op} {answer : Res op}
    (settled : op.settled) (step : Directory.Step site d ⟨op, answer⟩ after)
    : after = d := by
  cases op with
  | lstat path =>
      match answer with
      | .ok stat | .error .noent | .error .intr | .error .again | .error .exist | .error .pipe
      | .error .noprotoopt | .error (.other _) => exact step.1
  | socket =>
      cases answer with
      | ok fd => exact step.1
      | error e => exact step
  | readFile path => exact step.1
  | unlink path => exact settled.elim
  | bind fd path => exact settled.elim
  | close fd => exact settled.elim
  | chmod path mode => exact settled.elim
  | listen fd backlog => exact settled.elim
  | _ => exact step

theorem Creation.observe_settled {creation : Creation} {op : Op} {answer : Res op}
    (settled : op.settled)
    : creation.observe ⟨op, answer⟩ = creation := by
  cases op with
  | unlink path => exact settled.elim
  | bind fd path => exact settled.elim
  | chmod path mode => exact settled.elim
  | listen fd backlog => exact settled.elim
  | _ => rfl

namespace Sockets

variable {site : Site} {managed : String → Prop}

/-- The directory together with the sockets that were given up. -/
abbrev State := Directory × Creation

/-- The watch over both. -/
abbrev watch (site : Site) (managed : String → Prop) : Monitor Res State :=
  (Directory.watch site managed).along Creation.observe

/-- A part that leaves both alone. -/
theorem settled_wp {α : Type} {program : Sys α} {s : State} (only : program.Only Op.settled)
    : wp (watch site managed) program (fun _ after => after = s) s := by
  refine wp_invariant only nofun ?_ ?_ rfl
  · intro state op settled _
    cases op with
    | unlink path => exact settled.elim
    | bind fd path => exact settled.elim
    | _ => trivial
  · intro state op answer after settled same step
    rw [← same]
    exact Prod.ext (Directory.step_settled settled step.1)
      (step.2.trans (Creation.observe_settled settled))

/-- A request that leaves both alone. -/
theorem settled_ask {α : Type} {op : Op} {next : Res op → Sys α} {post : α → State → Prop}
    {s : State} (settled : op.settled)
    (rest : ∀ answer, (Directory.watch site managed).step s.1 ⟨op, answer⟩ s.1
      → wp (watch site managed) (next answer) post s)
    : wp (watch site managed) (ask op >>= next) post s := by
  refine wp_ask ?_ fun answer after step => ?_
  · cases op with
    | unlink path => exact settled.elim
    | bind fd path => exact settled.elim
    | _ => trivial
  · have same : after = s := Prod.ext (Directory.step_settled settled step.1)
      (step.2.trans (Creation.observe_settled settled))
    subst same
    exact rest answer step.1

-----------------------------------------------------------------------------------------
-- Clearing
-----------------------------------------------------------------------------------------

/-- What `clear` leaves: it removed a socket or nothing at all, what it says about the path is
so, and it does not fail where `lstat` and `unlink` do not.
-/
structure Clears (site : Site) (path : String) (s : State) (result : Except String Cleared)
    (after : State) : Prop where
  moved : after = s
    ∨ s.1.entry path = .socket
      ∧ after = (s.1.remove path, { s.2 with failed := s.2.failed.erase path })
  removed : ∀ cleared, result = .ok cleared → cleared ≠ .kept → after.1.entry path = .absent
  kept : result = .ok .kept → after = s ∧ s.1.entry path = .other
  certain : site.reliable → ∀ error, result ≠ .error error

theorem clear_wp {path : String} (member : managed path) (apart : path ≠ site.dir) {s : State}
    : wp (watch site managed) (clear path) (Clears site path s) s := by
  refine settled_ask trivial fun answer step => ?_
  match answer with
  | .error .noent =>
      exact {
        moved := Or.inl rfl
        removed := fun _ _ _ => step.2 apart
        kept := nofun
        certain := fun _ => nofun
      }
  | .error .intr | .error .again | .error .exist | .error .pipe | .error .noprotoopt
  | .error (.other _) =>
      exact {
        moved := Or.inl rfl
        removed := nofun
        kept := nofun
        certain := fun reliable => absurd reliable (step.2 apart)
      }
  | .ok stat =>
      have entry : s.1.entry path = Entry.of stat.fileType := step.2 apart
      by_cases socket : stat.fileType = .socket
      · dsimp only
        rw [if_neg (not_not.mpr socket)]
        rw [Entry.of, if_pos socket] at entry
        refine wp_ask ⟨member, entry⟩ fun answer after step => ?_
        obtain ⟨directory, creation⟩ := step
        cases answer with
        | ok =>
            have same : after
                = (s.1.remove path, { s.2 with failed := s.2.failed.erase path }) :=
              Prod.ext directory creation
            exact {
              moved := Or.inr ⟨entry, same⟩
              removed := fun _ _ _ => by rw [same]; exact Function.update_self _ _ _
              kept := nofun
              certain := fun _ => nofun
            }
        | error e =>
            exact {
              moved := Or.inl (Prod.ext directory.1 creation)
              removed := nofun
              kept := nofun
              certain := fun reliable => absurd reliable directory.2
            }
      · dsimp only
        rw [if_pos socket]
        rw [Entry.of, if_neg socket] at entry
        exact {
          moved := Or.inl rfl
          removed := fun _ made other => absurd (Except.ok.inj made).symm other
          kept := fun _ => ⟨rfl, entry⟩
          certain := fun _ => nofun
        }

-----------------------------------------------------------------------------------------
-- Binding
-----------------------------------------------------------------------------------------

/-- What was given up is a socket that nobody owns. -/
def Tracked (s : State) : Prop :=
  ∀ path ∈ s.2.failed, s.1.entry path = .socket ∧ s.1.owner path = none

/-- Nothing has changed at a path. -/
def Same (path : String) (s after : State) : Prop :=
  after.1.entry path = s.1.entry path
  ∧ after.1.owner path = s.1.owner path
  ∧ (path ∈ after.2.failed ↔ path ∈ s.2.failed)

theorem Same.refl (path : String) (s : State) : Same path s s := ⟨rfl, rfl, Iff.rfl⟩

theorem Same.trans {path : String} {s middle after : State} (first : Same path s middle)
    (second : Same path middle after)
    : Same path s after := by
  refine ⟨second.1.trans first.1, second.2.1.trans first.2.1, second.2.2.trans first.2.2⟩

/-- What was given up elsewhere is still so when only one path has changed. -/
theorem Tracked.of_same {path : String} {s after : State} (tracked : Tracked s)
    (elsewhere : ∀ other, other ≠ path → Same other s after)
    (here : path ∈ after.2.failed → after.1.entry path = .socket ∧ after.1.owner path = none)
    : Tracked after := by
  intro other member
  by_cases apart : other = path
  · subst apart
    exact here member
  · obtain ⟨sameEntry, sameOwner, sameFailed⟩ := elsewhere other apart
    obtain ⟨entry, owner⟩ := tracked other (sameFailed.mp member)
    exact ⟨sameEntry.trans entry, sameOwner.trans owner⟩

/-- What binding a path leaves: other paths as they were, and at this one a socket of the
returned descriptor, or on failure no socket but one that was given up, unless `lstat` or
`unlink` failed.
-/
structure Places (site : Site) (path : String) (s : State) (result : Except String Fd)
    (after : State) : Prop where
  elsewhere : ∀ other, other ≠ path → Same other s after
  tracked : Tracked after
  bound : ∀ fd, result = .ok fd
    → after.1.entry path = .socket ∧ after.1.owner path = some fd
  unbound : ∀ error, result = .error error
    → site.reliable → after.1.entry path = .socket → path ∈ after.2.failed

/-- Closing a descriptor that has no socket in the filesystem changes nothing. -/
theorem release_same {d : Directory} {fd : Fd} (free : ∀ path, d.owner path ≠ some fd)
    : d.release fd = d := by
  refine Directory.ext rfl ?_
  exact funext fun path => if_neg (free path)

/-- A socket that was bound and is listened on. -/
theorem places_bound {s : State} {fd : Fd} {path : String} (tracked : Tracked s)
    : Places site path s (.ok fd) (s.1.create fd path, ⟨some path, s.2.failed.erase path⟩) := by
  have elsewhere (other : String) (apart : other ≠ path)
      : Same other s (s.1.create fd path, ⟨some path, s.2.failed.erase path⟩) := by
    refine ⟨Function.update_of_ne apart _ _, Function.update_of_ne apart _ _, ?_⟩
    simp [apart]
  exact {
    elsewhere
    tracked := tracked.of_same elsewhere fun member => absurd member (Finset.notMem_erase _ _)
    bound := by
      intro made same
      cases same
      exact ⟨s.1.create_entry _ _, s.1.create_owner _ _⟩
    unbound := nofun
  }

/-- A socket that was bound and then given up. -/
theorem places_abandoned {s : State} {fd : Fd} {path : String} {error : String}
    (tracked : Tracked s) (free : ∀ other, s.1.owner other ≠ some fd)
    : Places site path s (.error error)
        ((s.1.create fd path).release fd,
          ⟨some path, insert path (s.2.failed.erase path)⟩) := by
  have owner {other : String} (apart : other ≠ path)
      : ((s.1.create fd path).release fd).owner other = s.1.owner other := by
    have same : (s.1.create fd path).owner other = s.1.owner other :=
      Function.update_of_ne apart _ _
    show (if _ = some fd then none else _) = _
    rw [same, if_neg (free other)]
  have here : ((s.1.create fd path).release fd).owner path = none :=
    if_pos (s.1.create_owner _ _)
  have elsewhere (other : String) (apart : other ≠ path)
      : Same other s ((s.1.create fd path).release fd,
          ⟨some path, insert path (s.2.failed.erase path)⟩) := by
    refine ⟨Function.update_of_ne apart _ _, owner apart, ?_⟩
    simp [apart]
  exact {
    elsewhere
    tracked := tracked.of_same elsewhere fun _ => ⟨s.1.create_entry fd _, here⟩
    bound := nofun
    unbound := fun _ _ _ _ => Finset.mem_insert_self _ _
  }

/-- Nothing bound, nothing changed. -/
theorem places_nothing {s : State} {path : String} {error : String} (tracked : Tracked s)
    (vacant : s.1.entry path ≠ .socket)
    : Places site path s (.error error) s where
  elsewhere other _ := .refl other s
  tracked
  bound := nofun
  unbound _ _ _ socket := absurd socket vacant

/-- Once there is a socket for a free path, it is bound, or its creation fails and it is
closed again.
-/
theorem bindAndListen_wp {fd : Fd} {path : String} (member : managed path) {s : State}
    (tracked : Tracked s) (absent : s.1.entry path = .absent)
    (free : ∀ other, s.1.owner other ≠ some fd)
    : wp (watch site managed) (bindAndListen fd path) (Places site path s) s := by
  have vacant : s.1.entry path ≠ .socket := by
    rw [absent]
    nofun
  -- Every early return closes the socket.
  have closing {here : State} {error : String}
      (placed : Places site path s (.error error) (here.1.release fd, here.2))
      : wp (watch site managed)
          (do
            ask (.close fd)
            return .error error)
          (Places site path s) here := by
    refine wp_ask trivial fun _ after step => ?_
    rw [show after = (here.1.release fd, here.2) from Prod.ext step.1 step.2]
    exact placed
  refine wp_ask member fun answer after step => ?_
  obtain ⟨directory, creation⟩ := step
  cases answer with
  | error e =>
      rw [show after = s from Prod.ext directory creation]
      refine closing ?_
      rw [release_same free]
      exact places_nothing tracked vacant
  | ok =>
      rw [show after = (s.1.create fd path, ⟨some path, s.2.failed.erase path⟩) from
        Prod.ext directory.1 creation]
      refine wp_ask trivial fun answer after step => ?_
      obtain ⟨directory, creation⟩ := step
      cases answer with
      | error e =>
          have given : after.2 = ⟨some path, insert path (s.2.failed.erase path)⟩ :=
            creation.trans (if_pos rfl)
          rw [show after = (s.1.create fd path, ⟨some path, insert path (s.2.failed.erase path)⟩)
            from Prod.ext directory given]
          exact closing (places_abandoned tracked free)
      | ok =>
          rw [show after = (s.1.create fd path, ⟨some path, s.2.failed.erase path⟩) from
            Prod.ext directory creation]
          refine wp_ask trivial fun answer after step => ?_
          obtain ⟨directory, creation⟩ := step
          cases answer with
          | error e =>
              rw [show after
                  = (s.1.create fd path, ⟨some path, insert path (s.2.failed.erase path)⟩)
                from Prod.ext directory creation]
              exact closing (places_abandoned tracked free)
          | ok =>
              rw [show after = (s.1.create fd path, ⟨some path, s.2.failed.erase path⟩) from
                Prod.ext directory creation]
              exact places_bound tracked

/-- Creating a socket at a free path. -/
theorem create_wp {path : String} (member : managed path) {s : State} (tracked : Tracked s)
    (absent : s.1.entry path = .absent)
    : wp (watch site managed) (create path) (Places site path s) s := by
  have vacant : s.1.entry path ≠ .socket := by
    rw [absent]
    nofun
  refine settled_ask trivial fun answer _ => ?_
  cases answer with
  | error e => exact places_nothing tracked vacant
  | ok =>
      refine settled_ask trivial fun answer step => ?_
      cases answer with
      | error e => exact places_nothing tracked vacant
      | ok fd => exact bindAndListen_wp member tracked absent step.2

/-- Clearing a path leaves the others as they were. -/
theorem Clears.elsewhere {path other : String} {s after : State}
    {result : Except String Cleared} (clears : Clears site path s result after)
    (apart : other ≠ path)
    : Same other s after := by
  rcases clears.moved with same | ⟨_, same⟩
  · rw [same]
    exact .refl other s
  · rw [same]
    refine ⟨Function.update_of_ne apart _ _, Function.update_of_ne apart _ _, ?_⟩
    simp [apart]

theorem Clears.tracked {path : String} {s after : State} {result : Except String Cleared}
    (clears : Clears site path s result after) (tracked : Tracked s)
    : Tracked after := by
  refine tracked.of_same (fun other => clears.elsewhere) fun member => ?_
  rcases clears.moved with same | ⟨_, same⟩
  · rw [same] at member ⊢
    exact tracked path member
  · rw [same] at member
    exact absurd member (Finset.notMem_erase _ _)

/-- Binding clears the path first and never takes what is not a socket. -/
theorem bind_wp {path : String} (member : managed path) (apart : path ≠ site.dir) {s : State}
    (tracked : Tracked s)
    : wp (watch site managed) (bind path) (Places site path s) s := by
  refine wp_then (clear_wp member apart) fun result after clears => ?_
  have creating {cleared : Cleared} (made : result = .ok cleared) (gone : cleared ≠ .kept)
      : wp (watch site managed) (create path) (Places site path s) after := by
    have absent := clears.removed cleared made gone
    refine wp_mono (create_wp member (clears.tracked tracked) absent) ?_
    intro fd final places
    exact {
      places with
      elsewhere := fun other away =>
        (clears.elsewhere away).trans (places.elsewhere other away)
    }
  match result with
  | .error e =>
      exact {
        elsewhere := fun other away => clears.elsewhere away
        tracked := clears.tracked tracked
        bound := nofun
        unbound := fun _ _ reliable => absurd rfl (clears.certain reliable e)
      }
  | .ok .kept =>
      obtain ⟨same, entry⟩ := clears.kept rfl
      rw [same]
      refine places_nothing tracked ?_
      rw [entry]
      nofun
  | .ok .absent => exact creating rfl nofun
  | .ok .removed => exact creating rfl nofun

-----------------------------------------------------------------------------------------
-- Listening
-----------------------------------------------------------------------------------------

/-- The key of a volume is never the directory itself. -/
theorem path_ne_dir {dir volume : String} : path dir volume ≠ dir := by
  intro same
  have lengths := congrArg String.length same
  have slash : (toString "/").length = 1 := rfl
  simp only [path, String.length_append, slash] at lengths
  have itself : (toString dir).length = dir.length := rfl
  omega

/-- What the loop of `listen` leaves: listeners at paths of the volumes, other paths as they
were, and at each volume's path a socket of a listener unless it was given up or `lstat` or
`unlink` failed.
-/
structure Listens (site : Site) (volumes : List Volume) (s : State)
    (listeners : List Listener) (after : State) : Prop where
  paths : ∀ l ∈ listeners, ∃ volume ∈ volumes, l.path = path site.dir volume.name
  elsewhere : ∀ other, (∀ volume ∈ volumes, other ≠ path site.dir volume.name)
    → Same other s after
  tracked : Tracked after
  served : site.reliable → ∀ volume ∈ volumes,
    after.1.entry (path site.dir volume.name) = .socket
    → path site.dir volume.name ∉ after.2.failed
    → ∃ l ∈ listeners, l.path = path site.dir volume.name ∧ after.1.owner l.path = some l.fd

/-- By induction on the volumes: a later volume either has the same path, and then what it
leaves there counts, or does not touch it.
-/
theorem listenAll_wp {volumes : List Volume}
    (all : ∀ volume ∈ volumes, managed (path site.dir volume.name)) {s : State}
    (tracked : Tracked s)
    : wp (watch site managed) (listenAll site.dir volumes) (Listens site volumes s) s := by
  induction volumes generalizing s with
  | nil =>
      exact {
        paths := fun _ member => (nomatch member)
        elsewhere := fun other _ => .refl other s
        tracked
        served := fun _ _ member => (nomatch member)
      }
  | cons volume rest ih =>
      obtain ⟨first, others⟩ := List.forall_mem_cons.mp all
      refine wp_then (bind_wp first path_ne_dir tracked) fun result middle places => ?_
      -- What holds after the rest for this volume, given what it has added.
      have combine (added : List Listener) {listeners : List Listener} {after : State}
          (fits : ∀ l ∈ added, l.path = path site.dir volume.name)
          (here : site.reliable → middle.1.entry (path site.dir volume.name) = .socket
            → path site.dir volume.name ∉ middle.2.failed
            → ∃ l ∈ added, l.path = path site.dir volume.name
              ∧ middle.1.owner l.path = some l.fd)
          (listens : Listens site rest middle listeners after)
          : Listens site (volume :: rest) s (added ++ listeners) after := by
        refine ⟨fun l among => ?_, fun other apart => ?_, listens.tracked,
          fun reliable v member socket unfailed => ?_⟩
        · rcases List.mem_append.mp among with ours | later
          · exact ⟨volume, List.mem_cons_self, fits l ours⟩
          · obtain ⟨v, member, same⟩ := listens.paths l later
            exact ⟨v, List.mem_cons_of_mem _ member, same⟩
        · obtain ⟨away, awayRest⟩ := List.forall_mem_cons.mp apart
          exact (places.elsewhere other away).trans (listens.elsewhere other awayRest)
        · by_cases again : ∃ w ∈ rest, path site.dir v.name = path site.dir w.name
          · obtain ⟨w, later, same⟩ := again
            rw [same] at socket unfailed ⊢
            obtain ⟨l, among, facts⟩ := listens.served reliable w later socket unfailed
            exact ⟨l, List.mem_append_right _ among, facts⟩
          · have away : ∀ w ∈ rest, path site.dir v.name ≠ path site.dir w.name :=
              fun w later same => again ⟨w, later, same⟩
            obtain ⟨entry, owner, failed⟩ := listens.elsewhere _ away
            rcases List.mem_cons.mp member with rfl | later
            · rw [entry] at socket
              obtain ⟨l, among, at_path, owned⟩ :=
                here reliable socket fun before => unfailed (failed.mpr before)
              refine ⟨l, List.mem_append_left _ among, at_path, ?_⟩
              rw [at_path, owner, ← at_path]
              exact owned
            · exact absurd rfl (away v later)
      cases result with
      | ok fd =>
          obtain ⟨entry, owner⟩ := places.bound fd rfl
          refine wp_then (ih others places.tracked) fun listeners after listens => ?_
          refine combine [⟨fd, path site.dir volume.name, volume⟩] ?_ ?_ listens
          · intro l ours
            rw [List.mem_singleton.mp ours]
          · exact fun _ _ _ => ⟨_, List.mem_singleton_self _, rfl, owner⟩
      | error e =>
          refine wp_then (settled_wp ⟨trivial, fun _ => trivial⟩) fun _ after same => ?_
          rw [same]
          refine wp_mono (ih others places.tracked) fun listeners after listens => ?_
          refine combine [] (fun _ none => (nomatch none)) ?_ listens
          exact fun reliable socket unfailed =>
            absurd (places.unbound e rfl reliable socket) unfailed

/-- Looking after the directory itself touches nothing in it. -/
theorem ensureDir_wp {s : State} (fresh : s.2.current = none)
    : wp (watch site managed) (ensureDir site.dir) (fun _ after => after = s) s := by
  refine settled_ask trivial fun answer _ => ?_
  match answer with
  | .ok () =>
      refine wp_ask trivial fun answer after step => ?_
      obtain ⟨directory, creation⟩ := step
      cases answer with
      | ok => exact Prod.ext directory creation
      | error e =>
          have other : s.2.current ≠ some site.dir := by
            rw [fresh]
            nofun
          exact Prod.ext directory (creation.trans (if_neg other))
  | .error .exist =>
      refine settled_ask trivial fun answer _ => ?_
      cases answer with
      | error e => rfl
      | ok stat =>
          dsimp only
          split_ifs <;> rfl
  | .error .noent | .error .intr | .error .again | .error .pipe | .error .noprotoopt
  | .error (.other _) => rfl

end Sockets

end Tpm2Autoenroll
