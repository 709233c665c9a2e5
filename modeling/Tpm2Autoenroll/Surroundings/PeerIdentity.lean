import Tpm2Autoenroll.Processes.PidTable
import Tpm2Autoenroll.Serving.Outcomes

/-! Which process the peer check looks at, on a kernel where processes exit, are reaped and
their pids are used again while the check is going on.
-/

namespace Tpm2Autoenroll

open Interaction Prog Monitor
open Processes

-----------------------------------------------------------------------------------------
-- What fdinfo shows of a pidfd
-----------------------------------------------------------------------------------------

namespace Text

/-- Lines of text, each with its line feed. -/
def unlines (lines : List (List Char)) : List Char := lines.flatMap (· ++ ['\n'])

/-- By induction on the lines. -/
theorem unlines_eq (lines : List (List Char))
    : unlines lines = ['\n'].intercalate (lines ++ [[]]) := by
  induction lines with
  | nil => simp [unlines, List.intercalate]
  | cons line rest ih =>
      rw [unlines, List.flatMap_cons, ← unlines, ih]
      cases rest <;> simp [List.intercalate]

/-- Lines of text read back, but for carriage returns at their ends. -/
theorem charLines_unlines {lines : List (List Char)} (plain : ∀ line ∈ lines, '\n' ∉ line)
    : charLines (unlines lines) = lines.map withoutReturn := by
  have pieces : (unlines lines).splitOn '\n' = lines ++ [[]] := by
    rw [unlines_eq]
    refine List.splitOn_intercalate '\n' ?_ (by simp)
    intro line member
    rcases List.mem_append.mp member with member | member
    · exact plain line member
    · simp [List.mem_singleton.mp member]
  unfold charLines
  simp [pieces]

/-- The characters of a number in decimal are digits, after a sign if it is negative. -/
theorem toList_toString (n : Int)
    : (toString n).toList
      = if n < 0 then '-' :: Nat.toDigits 10 n.natAbs else Nat.toDigits 10 n.natAbs := by
  cases n with
  | ofNat k => simp [toString, Int.repr]
  | negSucc k => simp [toString, Int.repr, Int.negSucc_lt_zero]

/-- Digits without a sign. -/
theorem parseI32_toDigits (n : Nat)
    : parseI32 (Nat.toDigits 10 n) = if n < 2147483648 then some (n : Int) else none := by
  have digit : ∀ c ∈ Nat.toDigits 10 n, c.isDigit := fun c member =>
    Nat.isDigit_of_mem_toDigits (by omega) (by omega) member
  unfold parseI32
  split
  next rest same => exact absurd (digit '-' (by simp [same])) (by decide)
  next rest same => exact absurd (digit '+' (by simp [same])) (by decide)
  next => rw [decimal_toDigits, Option.bind_some]

/-- A number in decimal is read as that number if it is in range. -/
theorem parseI32_toString (n : Int)
    : parseI32 (toString n).toList
      = if -2147483648 ≤ n ∧ n < 2147483648 then some n else none := by
  rw [toList_toString]
  split_ifs with negative inRange inRange
  · simp only [parseI32, decimal_toDigits, Option.bind_some]
    rw [if_pos (by omega)]
    simp only [Option.some.injEq]
    omega
  · simp only [parseI32, decimal_toDigits, Option.bind_some]
    rw [if_neg (by omega)]
  · rw [parseI32_toDigits, if_pos (by omega)]
    simp only [Option.some.injEq]
    omega
  · rw [parseI32_toDigits, if_neg (by omega)]

/-- Whatever is read is in range. -/
theorem parseI32_range {text : List Char} {n : Int} (parsed : parseI32 text = some n)
    : -2147483648 ≤ n ∧ n < 2147483648 := by
  unfold parseI32 at parsed
  split at parsed <;>
  · obtain ⟨digits, _, ranged⟩ := Option.bind_eq_some_iff.mp parsed
    split_ifs at ranged
    cases ranged
    omega

/-- Trimming takes a tab off text without white space. -/
theorem trimChars_tab {text : List Char} (plain : ∀ c ∈ text, isWhitespace c = false)
    : trimChars ('\t' :: text) = text := by
  refine (trimChars_eq_iff plain).mpr ⟨['\t'], [], by simp, fun c member => ?_, by simp⟩
  rw [List.mem_singleton.mp member]
  rfl

theorem mem_toString {n : Int} {c : Char} (member : c ∈ (toString n).toList)
    : c = '-' ∨ c.isDigit = true := by
  have digit (member : c ∈ Nat.toDigits 10 n.natAbs) : c.isDigit = true :=
    Nat.isDigit_of_mem_toDigits (by omega) (by omega) member
  rw [toList_toString] at member
  split_ifs at member
  · exact (List.mem_cons.mp member).imp id digit
  · exact Or.inr (digit member)

theorem isWhitespace_toString {n : Int} {c : Char} (member : c ∈ (toString n).toList)
    : isWhitespace c = false := by
  rcases mem_toString member with rfl | digit
  · decide
  · have range : 48 ≤ c.toNat ∧ c.toNat ≤ 57 := by
      simpa [Char.isDigit, UInt32.le_iff_toNat_le] using digit
    simp only [isWhitespace, Bool.or_eq_false_iff, Bool.and_eq_false_iff, beq_eq_false_iff_ne,
      decide_eq_false_iff_not]
    omega

theorem withoutReturn_isPrefix (line : List Char) : withoutReturn line <+: line := by
  unfold withoutReturn
  split_ifs
  · exact List.dropLast_prefix line
  · exact List.prefix_refl line

end Text

namespace Peer

/-- What `pidfd_pid` finds in the text of an fdinfo. -/
def pidLine (info : String) : Option Int :=
  ((Text.charLines info.toList).findSome? fun line => stripStart line "Pid:".toList).bind
    fun value => Text.parseI32 (Text.trimChars value)

/-- The first line of the text that starts with `Pid:` gives this number, as the kernel writes
it.
-/
def Shows (info : String) (pid : Int) : Prop :=
  ∃ before after,
    info.toList
      = Text.unlines (before ++ ("Pid:\t".toList ++ (toString pid).toList) :: after)
    ∧ (∀ line ∈ before ++ after, '\n' ∉ line)
    ∧ ∀ line ∈ before, ¬ "Pid:".toList <+: line

/-- A line is stripped of what it starts with. -/
theorem stripStart_eq_some {line start rest : List Char}
    : stripStart line start = some rest ↔ line = start ++ rest := by
  simp [stripStart, List.dropPrefix?_eq_some_iff]

/-- The number that is shown is the one that is found. -/
theorem pidLine_of_shows {info : String} {pid read : Int} (shows : Shows info pid)
    (found : pidLine info = some read)
    : read = pid := by
  obtain ⟨before, after, text, plain, others⟩ := shows
  have blank (c : Char) (member : c ∈ (toString pid).toList) : Text.isWhitespace c = false :=
    Text.isWhitespace_toString member
  have noFeed : '\n' ∉ "Pid:\t".toList ++ (toString pid).toList := by
    intro member
    rcases List.mem_append.mp member with label | digits
    · exact absurd label (by decide)
    · exact absurd (blank _ digits) (by decide)
  have lines : ∀ line ∈ before ++ ("Pid:\t".toList ++ (toString pid).toList) :: after,
      '\n' ∉ line := by
    intro line member
    rcases List.mem_append.mp member with member | member
    · exact plain line (List.mem_append_left _ member)
    · rcases List.mem_cons.mp member with rfl | member
      · exact noFeed
      · exact plain line (List.mem_append_right _ member)
  have skipped : ((before.map Text.withoutReturn).findSome?
      fun line => stripStart line "Pid:".toList) = none := by
    refine List.findSome?_eq_none_iff.mpr fun line member => ?_
    obtain ⟨whole, earlier, rfl⟩ := List.mem_map.mp member
    cases stripped : stripStart (Text.withoutReturn whole) "Pid:".toList with
    | none => rfl
    | some rest =>
        have starts : "Pid:".toList <+: Text.withoutReturn whole :=
          ⟨rest, (stripStart_eq_some.mp stripped).symm⟩
        exact absurd (starts.trans (Text.withoutReturn_isPrefix whole)) (others whole earlier)
  have kept : Text.withoutReturn ("Pid:\t".toList ++ (toString pid).toList)
      = "Pid:\t".toList ++ (toString pid).toList := by
    refine if_neg fun last => ?_
    have member := List.mem_of_getLast? last
    rcases List.mem_append.mp member with label | digits
    · exact absurd label (by decide)
    · exact absurd (blank _ digits) (by decide)
  have stripped : stripStart ("Pid:\t".toList ++ (toString pid).toList) "Pid:".toList
      = some ('\t' :: (toString pid).toList) :=
    stripStart_eq_some.mpr rfl
  rw [pidLine, text, Text.charLines_unlines lines, List.map_append, List.findSome?_append,
    skipped, Option.none_or, List.map_cons, kept, List.findSome?_cons, stripped,
    Option.bind_some, Text.trimChars_tab blank] at found
  rw [Text.parseI32_toString] at found
  split_ifs at found
  exact (Option.some.inj found).symm

-----------------------------------------------------------------------------------------
-- What the check does
-----------------------------------------------------------------------------------------

/-- The pid behind a pidfd comes from its fdinfo. -/
theorem pidfdPid_ok {fd : Fd} {pid : Int} {trace : Trace}
    (run : (pidfdPid fd).Runs trace (some (.ok pid)))
    : ∃ info, trace = [⟨.readFile s!"/proc/self/fdinfo/{fd}", .ok info⟩]
      ∧ pidLine info = some pid
      ∧ 0 < pid := by
  obtain ⟨answer, later, rfl, going⟩ := runs_ask.mp run
  cases answer with
  | error e => cases going
  | ok info =>
      dsimp only at going
      split at going
      · cases going
      next shown found =>
        split_ifs at going with exited
        · cases going
        · cases going
          exact ⟨info, rfl, found, by omega⟩

/-- A pid is accepted by the two things that are read by it. -/
theorem judge_ok {expected volume : String} {pid : Int} {trace : Trace}
    (run : (judge expected volume pid).Runs trace (some (.ok ())))
    : ∃ cgroup exe,
        trace = [⟨.readFile s!"/proc/{pid}/cgroup", .ok cgroup⟩,
          ⟨.readLink s!"/proc/{pid}/exe", .ok exe⟩]
        ∧ inUnit cgroup (unitFor volume) = true
        ∧ isExpectedExe expected exe = true := by
  obtain ⟨answer, later, rfl, going⟩ := runs_ask.mp run
  cases answer with
  | error e => cases going
  | ok cgroup =>
      dsimp only at going
      split_ifs at going with outside
      · cases going
      · obtain ⟨link, last, rfl, judged⟩ := runs_ask.mp going
        cases link with
        | error e => cases judged
        | ok exe =>
            dsimp only at judged
            split_ifs at judged with other
            · cases judged
            · cases judged
              exact ⟨cgroup, exe, rfl, by simpa using outside, by simpa using other⟩

/-- Where the kernel has SO_PEERPIDFD, a check that succeeds makes these six requests: it pins
the peer, resolves the pid behind the pidfd, reads by that pid twice and signals the pidfd.
-/
theorem check_ok {expected volume : String} {conn : Fd} {trace : Trace}
    (supported : ⟨.peerPidfd conn, .error .noprotoopt⟩ ∉ trace)
    (run : (check expected conn volume).Runs trace (some (.ok ())))
    : ∃ cred fd info pid cgroup exe,
        trace = [⟨.peercred conn, .ok cred⟩, ⟨.peerPidfd conn, .ok fd⟩,
          ⟨.readFile s!"/proc/self/fdinfo/{fd}", .ok info⟩,
          ⟨.readFile s!"/proc/{pid}/cgroup", .ok cgroup⟩,
          ⟨.readLink s!"/proc/{pid}/exe", .ok exe⟩, ⟨.pidfdSignal fd, .ok ()⟩]
        ∧ pidLine info = some pid
        ∧ 0 < pid
        ∧ inUnit cgroup (unitFor volume) = true
        ∧ isExpectedExe expected exe = true := by
  obtain ⟨answer, later, rfl, going⟩ := runs_ask.mp run
  cases answer with
  | error e => cases going
  | ok cred =>
      dsimp only at going
      split_ifs at going with user
      · cases going
      obtain ⟨pinned, first, second, rfl, pinning, going⟩ := runs_bind_some.mp going
      obtain ⟨given, rest, rfl, told⟩ := runs_ask.mp pinning
      match given with
      | .error .noprotoopt =>
          exact absurd (by simp) supported
      | .error .intr | .error .again | .error .noent | .error .exist | .error .pipe
      | .error (.other _) =>
          cases told
          cases going
      | .ok fd =>
          cases told
          obtain ⟨judged, third, fourth, rfl, resolving, judging⟩ := runs_bind_some.mp going
          cases judged with
          | error e => cases judging
          | ok pid =>
              obtain ⟨info, rfl, found, positive⟩ := pidfdPid_ok resolving
              obtain ⟨verdict, fifth, sixth, rfl, reading, ending⟩ := runs_bind_some.mp judging
              cases verdict with
              | error e => cases ending
              | ok =>
                  obtain ⟨cgroup, exe, rfl, inside, expectedExe⟩ := judge_ok reading
                  obtain ⟨signalled, _, rfl, ended⟩ := runs_ask.mp ending
                  cases signalled with
                  | error e => cases ended
                  | ok =>
                      cases ended
                      exact ⟨cred, fd, info, pid, cgroup, exe, rfl, found, positive, inside, expectedExe⟩

/-- Any answers like these to those six requests make it succeed. -/
theorem check_runs {expected volume : String} {conn fd : Fd} {cred : Ucred} {pid : Int}
    {info cgroup exe : String} (root : cred.uid = 0) (found : pidLine info = some pid)
    (positive : 0 < pid) (inside : inUnit cgroup (unitFor volume) = true)
    (same : isExpectedExe expected exe = true)
    : (check expected conn volume).Runs
        [⟨.peercred conn, .ok cred⟩, ⟨.peerPidfd conn, .ok fd⟩,
          ⟨.readFile s!"/proc/self/fdinfo/{fd}", .ok info⟩,
          ⟨.readFile s!"/proc/{pid}/cgroup", .ok cgroup⟩,
          ⟨.readLink s!"/proc/{pid}/exe", .ok exe⟩, ⟨.pidfdSignal fd, .ok ()⟩]
        (some (.ok ())) := by
  have resolved : (pidfdPid fd).Runs [⟨.readFile s!"/proc/self/fdinfo/{fd}", .ok info⟩]
      (some (.ok pid)) := by
    refine runs_ask.mpr ⟨.ok info, [], rfl, ?_⟩
    rw [pidLine] at found
    dsimp only
    rw [found]
    dsimp only
    rw [if_neg (by omega)]
    exact .ret _
  have judged : (judge expected volume pid).Runs
      [⟨.readFile s!"/proc/{pid}/cgroup", .ok cgroup⟩,
        ⟨.readLink s!"/proc/{pid}/exe", .ok exe⟩] (some (.ok ())) := by
    refine runs_ask.mpr ⟨.ok cgroup, _, rfl, ?_⟩
    simp only [inside, Bool.not_true, Bool.false_eq_true, if_false]
    refine runs_ask.mpr ⟨.ok exe, [], rfl, ?_⟩
    simp [same]
  have pinned : (peerPidfd conn).Runs [⟨.peerPidfd conn, .ok fd⟩] (some (.ok (some fd))) :=
    runs_ask.mpr ⟨.ok fd, [], rfl, .ret _⟩
  have signalled : (alive fd).Runs [⟨.pidfdSignal fd, .ok ()⟩] (some (.ok ())) :=
    runs_ask.mpr ⟨.ok (), [], rfl, .ret _⟩
  refine runs_ask.mpr ⟨.ok cred, _, rfl, ?_⟩
  simp only [root, ne_eq, not_true_eq_false, if_false]
  refine runs_bind_some.mpr ⟨_, _, _, rfl, pinned, ?_⟩
  refine runs_bind_some.mpr ⟨_, _, _, rfl, resolved, ?_⟩
  exact runs_bind_some.mpr ⟨_, _, _, rfl, judged, signalled⟩

end Peer

-----------------------------------------------------------------------------------------
-- The kernel
-----------------------------------------------------------------------------------------

/-- The number that a path below `/proc` names its process by. -/
def procPid (path : String) : Option Int :=
  (Peer.stripStart path.toList "/proc/".toList).bind fun rest =>
    Text.parseI32 (rest.takeWhile (· != '/'))

/-- A file of a process belongs to the number in its path. -/
theorem procPid_file {path : String} {pid : Int} {file : List Char}
    (text : path.toList = "/proc/".toList ++ ((toString pid).toList ++ '/' :: file))
    (inRange : -2147483648 ≤ pid ∧ pid < 2147483648)
    : procPid path = some pid := by
  have number : ((toString pid).toList ++ '/' :: file).takeWhile (· != '/')
      = (toString pid).toList := by
    have plain : ∀ c ∈ (toString pid).toList, (c != '/') = true := by
      intro c member
      rcases Text.mem_toString member with rfl | digit
      · decide
      · refine bne_iff_ne.mpr fun slash => ?_
        rw [slash] at digit
        exact absurd digit (by decide)
    rw [List.takeWhile_append_of_pos plain]
    simp
  rw [procPid, Peer.stripStart_eq_some.mpr text, Option.bind_some, number,
    Text.parseI32_toString, if_pos inRange]

/-- The description of a descriptor of one's own belongs to no number. -/
theorem procPid_fdinfo (fd : Fd) : procPid s!"/proc/self/fdinfo/{fd}" = none := by
  have text : (s!"/proc/self/fdinfo/{fd}").toList
      = "/proc/".toList ++ ("self/fdinfo/".toList ++ (toString fd).toList) := by
    simp [toString]
  rw [procPid, Peer.stripStart_eq_some.mpr text]
  rfl

/-- The process table, the process behind each pidfd, and what was read below `/proc` so far
with the process it was read from.
-/
structure Kernel (P : Type) where
  table : PidTable P
  pidfds : Fd → Option P
  reads : List (P × Event)

namespace Kernel

variable {P : Type}

/-- What is read by number is read from the process that has the number. -/
def ReadsFrom (k : Kernel P) (path : String) (event : Event) (after : Kernel P) : Prop :=
  match procPid path with
  | some pid =>
      ∃ p, k.table.holder pid = some p ∧ after = { k with reads := k.reads ++ [(p, event)] }
  | none => after = k

/-- How a kernel with SO_PEERPIDFD answers, given the process that made each connection: a
pidfd is for the peer of the connection, its fdinfo shows the peer's number, or -1 once the peer
is reaped, and signalling it succeeds only while the peer is unreaped.
-/
def Answers (peer : Fd → P) (k : Kernel P) (event : Event) (after : Kernel P) : Prop :=
  match event with
  | ⟨.peerPidfd conn, .ok fd⟩ =>
      after = { k with pidfds := Function.update k.pidfds fd (some (peer conn)) }
  | ⟨.peerPidfd _, .error e⟩ => e ≠ .noprotoopt ∧ after = k
  | ⟨.readFile path, .ok text⟩ =>
      k.ReadsFrom path event after
      ∧ ∀ fd p, path = s!"/proc/self/fdinfo/{fd}" → k.pidfds fd = some p
        → ∃ pid, Peer.Shows text pid
          ∧ (k.table.holder pid = some p ∨ pid = -1 ∧ ¬ k.table.Unreaped p)
  | ⟨.readLink path, .ok _⟩ => k.ReadsFrom path event after
  | ⟨.pidfdSignal fd, .ok ()⟩ =>
      (∀ p, k.pidfds fd = some p → k.table.Unreaped p) ∧ after = k
  | _ => after = k

/-- The kernel in a run: before each answer any processes may start, exit and be reaped. -/
def watch (peer : Fd → P) : Monitor Res (Kernel P) where
  allows _ _ := True
  step k event after :=
    ∃ table, PidTable.Evolves k.table table ∧ { k with table }.Answers peer event after

variable {peer : Fd → P} {k after : Kernel P}

/-- The connection at hand is pinned by a new pidfd. -/
theorem pinned {conn fd : Fd} (step : (watch peer).step k ⟨.peerPidfd conn, .ok fd⟩ after)
    : after.pidfds fd = some (peer conn) ∧ after.reads = k.reads := by
  obtain ⟨table, _, rfl⟩ := step
  exact ⟨Function.update_self .., rfl⟩

/-- The fdinfo of a pidfd shows the number of the process behind it while that has one. -/
theorem resolved {fd : Fd} {p : P} {info : String} (behind : k.pidfds fd = some p)
    (step : (watch peer).step k ⟨.readFile s!"/proc/self/fdinfo/{fd}", .ok info⟩ after)
    : after.pidfds fd = some p ∧ after.reads = k.reads
      ∧ ∃ shown, Peer.Shows info shown
        ∧ (after.table.holder shown = some p ∨ shown = -1) := by
  obtain ⟨table, _, read, shows⟩ := step
  rw [ReadsFrom, procPid_fdinfo] at read
  obtain ⟨shown, text, held⟩ := shows fd p rfl behind
  rw [read]
  exact ⟨behind, rfl, shown, text, held.imp id And.left⟩

/-- What is read by number meanwhile comes from the process that has the number. -/
theorem readFile_step {path text : String} {pid : Int} (number : procPid path = some pid)
    (step : (watch peer).step k ⟨.readFile path, .ok text⟩ after)
    : PidTable.Evolves k.table after.table ∧ after.pidfds = k.pidfds
      ∧ ∃ p, after.table.holder pid = some p
        ∧ after.reads = k.reads ++ [(p, ⟨.readFile path, .ok text⟩)] := by
  obtain ⟨table, evolves, read, _⟩ := step
  rw [ReadsFrom, number] at read
  obtain ⟨p, held, rfl⟩ := read
  exact ⟨evolves, rfl, p, held, rfl⟩

theorem readLink_step {path text : String} {pid : Int} (number : procPid path = some pid)
    (step : (watch peer).step k ⟨.readLink path, .ok text⟩ after)
    : PidTable.Evolves k.table after.table ∧ after.pidfds = k.pidfds
      ∧ ∃ p, after.table.holder pid = some p
        ∧ after.reads = k.reads ++ [(p, ⟨.readLink path, .ok text⟩)] := by
  obtain ⟨table, evolves, read⟩ := step
  rw [Answers, ReadsFrom, number] at read
  obtain ⟨p, held, rfl⟩ := read
  exact ⟨evolves, rfl, p, held, rfl⟩

/-- A process that can be signalled is unreaped. -/
theorem signalled {fd : Fd} {p : P} (behind : k.pidfds fd = some p)
    (step : (watch peer).step k ⟨.pidfdSignal fd, .ok ()⟩ after)
    : PidTable.Evolves k.table after.table ∧ after.reads = k.reads
      ∧ after.table.Unreaped p := by
  obtain ⟨table, evolves, live, rfl⟩ := step
  exact ⟨evolves, rfl, live p behind⟩

/-- Where the kernel has SO_PEERPIDFD, no event says that it has not. -/
theorem supported {trace : Trace} (path : (watch peer).Path k trace after) (conn : Fd)
    : ⟨.peerPidfd conn, .error .noprotoopt⟩ ∉ trace := by
  induction path with
  | nil => exact List.not_mem_nil
  | cons first later ih =>
      intro member
      rcases List.mem_cons.mp member with rfl | member
      · obtain ⟨_, _, answered, _⟩ := first
        exact answered rfl
      · exact ih member

end Kernel

/-- The identity of a peer survives the reuse of pids. However processes start, exit and are
reaped while the check is going on, on a kernel that supports SO_PEERPIDFD: if it succeeds, the
cgroup text and the exe link that it accepted were both read from the process that made the
connection.
-/
theorem identity_survives_reuse {P : Type} {peer : Fd → P} {expected volume : String} {conn : Fd}
    {trace : Trace} {before after : Kernel P}
    (run : (Peer.check expected conn volume).Runs trace (some (.ok ())))
    (path : (Kernel.watch peer).Path before trace after)
    : ∃ (pid : Int) (cgroup exe : String),
        (⟨.readFile s!"/proc/{pid}/cgroup", .ok cgroup⟩ : Event) ∈ trace
        ∧ (⟨.readLink s!"/proc/{pid}/exe", .ok exe⟩ : Event) ∈ trace
        ∧ Peer.inUnit cgroup (Peer.unitFor volume) = true
        ∧ Peer.isExpectedExe expected exe = true
        ∧ after.reads = before.reads
          ++ [(peer conn, ⟨.readFile s!"/proc/{pid}/cgroup", .ok cgroup⟩),
            (peer conn, ⟨.readLink s!"/proc/{pid}/exe", .ok exe⟩)] := by
  obtain ⟨cred, fd, info, pid, cgroup, exe, rfl, found, positive, inside, same⟩ :=
    Peer.check_ok (Kernel.supported path conn) run
  have range : -2147483648 ≤ pid ∧ pid < 2147483648 := by
    obtain ⟨_, _, parsed⟩ := Option.bind_eq_some_iff.mp found
    exact Text.parseI32_range parsed
  have cgroupPid : procPid s!"/proc/{pid}/cgroup" = some pid :=
    procPid_file (by simp [toString]; rfl) range
  have exePid : procPid s!"/proc/{pid}/exe" = some pid :=
    procPid_file (by simp [toString]; rfl) range
  simp only [path_cons, path_nil] at path
  obtain ⟨k1, ⟨_, _, rfl⟩, k2, pinning, k3, resolving, k4, cgroupStep, k5, exeStep, k6, signal,
    rfl⟩ := path
  obtain ⟨behind, reads⟩ := Kernel.pinned pinning
  obtain ⟨behind3, reads3, shown, shows, held⟩ := Kernel.resolved behind resolving
  obtain ⟨tillCgroup, pidfds4, p, held4, reads4⟩ := Kernel.readFile_step cgroupPid cgroupStep
  obtain ⟨tillExe, pidfds5, q, held5, reads5⟩ := Kernel.readLink_step exePid exeStep
  obtain ⟨tillSignal, reads6, unreaped⟩ :=
    Kernel.signalled (pidfds5 ▸ pidfds4 ▸ behind3) signal
  have number : k3.table.holder pid = some (peer conn) := by
    obtain rfl := Peer.pidLine_of_shows shows found
    exact held.resolve_right (by omega)
  -- The peer has its number from where it was resolved until it was signalled.
  have first := PidTable.holder_between tillCgroup (tillExe.trans tillSignal) number unreaped
  have second := PidTable.holder_between (tillCgroup.trans tillExe) tillSignal number unreaped
  obtain rfl : p = peer conn := Option.some.inj (held4.symm.trans first)
  obtain rfl : q = peer conn := Option.some.inj (held5.symm.trans second)
  refine ⟨pid, cgroup, exe, by simp, by simp, inside, same, ?_⟩
  rw [reads6, reads5, reads4, reads3, reads]
  simp

section Reuse

/-- The peer alone, as process 1 with pid 7. -/
private def alone : PidTable Nat := PidTable.empty.spawn 7 1 (Set.notMem_empty 1)

/-- Pid 8 went to process 2. -/
private def crowded : PidTable Nat := alone.spawn 8 2 (by simp [alone, PidTable.empty, PidTable.spawn])

/-- Process 2 was reaped and pid 8 went to process 3. -/
private def reused : PidTable Nat :=
  ((crowded.exit 2).reap 8).spawn 8 3
    (by simp [crowded, alone, PidTable.empty, PidTable.spawn, PidTable.exit, PidTable.reap])

private theorem alone_crowded : PidTable.Evolves alone crowded :=
  .single (.spawn (by simp [alone, PidTable.empty, PidTable.spawn]) _)

private theorem crowded_reused : PidTable.Evolves crowded reused := by
  have held : crowded.holder 8 = some 2 := by simp [crowded, PidTable.spawn]
  have exits : PidTable.Step crowded (crowded.exit 2) := .exit ⟨8, held⟩
  have reaps : PidTable.Step (crowded.exit 2) ((crowded.exit 2).reap 8) :=
    .reap held (Set.mem_insert 2 _)
  have spawns : PidTable.Step ((crowded.exit 2).reap 8) reused :=
    .spawn (by simp [PidTable.reap]) _
  exact ((Relation.ReflTransGen.single exits).tail reaps).tail spawns

/-- The fdinfo of the peer's pidfd. -/
private def info : String := "pos:\t0\nflags:\t02000002\nPid:\t7\nNSpid:\t7\n"

private theorem info_shows : Peer.Shows info 7 :=
  ⟨["pos:\t0".toList, "flags:\t02000002".toList], ["NSpid:\t7".toList], by decide +kernel,
    by decide +kernel, by decide +kernel⟩

private def cgroup : String := "0::/system.slice/systemd-cryptsetup@root.service\n"

private def exe : String := "/usr/bin/systemd-cryptsetup"

/-- What is read of the peer. -/
private def found : List (Nat × Event) :=
  [(1, ⟨.readFile "/proc/7/cgroup", .ok cgroup⟩), (1, ⟨.readLink "/proc/7/exe", .ok exe⟩)]

/-- A check during which pid 8 goes from one process to another. -/
private def checked : Trace :=
  [⟨.peercred 5, .ok ⟨0, 7⟩⟩, ⟨.peerPidfd 5, .ok 9⟩,
    ⟨.readFile "/proc/self/fdinfo/9", .ok info⟩, ⟨.readFile "/proc/7/cgroup", .ok cgroup⟩,
    ⟨.readLink "/proc/7/exe", .ok exe⟩, ⟨.pidfdSignal 9, .ok ()⟩]

private theorem runs_checked : (Peer.check exe 5 "root").Runs checked (some (.ok ())) := by
  have number : Peer.pidLine info = some 7 := by decide +kernel
  have inside : Peer.inUnit cgroup (Peer.unitFor "root") = true := by decide +kernel
  have same : Peer.isExpectedExe exe exe = true := by decide +kernel
  exact Peer.check_runs rfl number (by decide) inside same

/-- The kernel once process 1 is behind pidfd 9. -/
private def pinned (table : PidTable Nat) (reads : List (Nat × Event)) : Kernel Nat :=
  ⟨table, Function.update (fun _ => none) 9 (some 1), reads⟩

private theorem pinned_behind {table : PidTable Nat} {reads : List (Nat × Event)} {fd : Fd}
    {p : Nat} (behind : (pinned table reads).pidfds fd = some p)
    : p = 1 := by
  by_cases here : fd = 9
  · rw [here] at behind
    exact (Option.some.inj behind).symm
  · simp [pinned, here] at behind

private theorem path_checked
    : (Kernel.watch fun _ => 1).Path ⟨alone, fun _ => none, []⟩ checked (pinned reused found) := by
  have held : crowded.holder 7 = some 1 := by simp [crowded, alone, PidTable.spawn]
  have still : reused.holder 7 = some 1 := by
    simp [reused, crowded, alone, PidTable.spawn, PidTable.exit, PidTable.reap]
  have own : procPid "/proc/7/cgroup" = some 7 := by decide +kernel
  have exePid : procPid "/proc/7/exe" = some 7 := by decide +kernel
  have resolved : (Kernel.watch fun _ => 1).step (pinned alone [])
      ⟨.readFile "/proc/self/fdinfo/9", .ok info⟩ (pinned crowded []) := by
    refine ⟨crowded, alone_crowded, rfl, fun fd p _ behind => ?_⟩
    rw [pinned_behind behind]
    exact ⟨7, info_shows, Or.inl held⟩
  have read : (Kernel.watch fun _ => 1).step (pinned crowded [])
      ⟨.readFile "/proc/7/cgroup", .ok cgroup⟩ (pinned reused (found.take 1)) := by
    refine ⟨reused, crowded_reused, ?_, fun fd p same => ?_⟩
    · rw [Kernel.ReadsFrom, own]
      exact ⟨1, still, rfl⟩
    · have none := procPid_fdinfo fd
      rw [← same, own] at none
      cases none
  have link : (Kernel.watch fun _ => 1).step (pinned reused (found.take 1))
      ⟨.readLink "/proc/7/exe", .ok exe⟩ (pinned reused found) := by
    refine ⟨reused, .refl, ?_⟩
    rw [Kernel.Answers, Kernel.ReadsFrom, exePid]
    exact ⟨1, still, rfl⟩
  have live : (Kernel.watch fun _ => 1).step (pinned reused found)
      ⟨.pidfdSignal 9, .ok ()⟩ (pinned reused found) := by
    refine ⟨reused, .refl, fun p behind => ?_, rfl⟩
    rw [pinned_behind behind]
    exact ⟨7, still⟩
  exact .cons ⟨alone, .refl, rfl⟩ (.cons ⟨alone, .refl, rfl⟩
    (.cons resolved (.cons read (.cons link (.cons live (.nil _))))))

/-- There the texts that were accepted are the peer's. -/
theorem identity_survives_reuse_root
    : ∃ (pid : Int) (cgroup exe : String),
        (⟨.readFile s!"/proc/{pid}/cgroup", .ok cgroup⟩ : Event) ∈ checked
        ∧ (⟨.readLink s!"/proc/{pid}/exe", .ok exe⟩ : Event) ∈ checked
        ∧ Peer.inUnit cgroup (Peer.unitFor "root") = true
        ∧ Peer.isExpectedExe Tpm2Autoenroll.exe exe = true
        ∧ found = []
          ++ [(1, ⟨.readFile s!"/proc/{pid}/cgroup", .ok cgroup⟩),
            (1, ⟨.readLink s!"/proc/{pid}/exe", .ok exe⟩)] :=
  identity_survives_reuse runs_checked path_checked

end Reuse

end Tpm2Autoenroll
