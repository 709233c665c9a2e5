import Tpm2Autoenroll.Children.Lifetimes
import Tpm2Autoenroll.Serving.Levels

/-! The children of the daemon over a whole run: there is never more than one, the daemon is not
held up by it for longer than it allowed for, and it is waited for before anything else is done.
-/

namespace Tpm2Autoenroll

open Interaction Prog

/-- The child that runs, if any, and what is known of it. -/
abbrev ChildUse := Option (Child × Child.Life)

namespace ChildUse

def observe (use : ChildUse) : Interaction.Event Outcome → ChildUse
  | ⟨.child process made, answer⟩ =>
      (Child.follow (use.map Prod.snd) ⟨made, answer⟩).map fun life => (process, life)
  | _ => use

/-- What a run shows from its beginning. -/
def of (trace : Interaction.Trace Outcome) : ChildUse := trace.foldl observe none

/-- A call on a child is on the one that runs and in keeping with how a child is tended to;
everything else is done while none runs.
-/
def allows (use : ChildUse) : Action → Prop
  | .child process made =>
      (∀ running ∈ use, running.1 = process)
        ∧ Child.tended process.timeout (use.map Prod.snd) made
  | _ => use = none

def watch : Monitor Outcome ChildUse := .observing allows observe

variable {use : ChildUse} {patience : Patience}

/-- What is specified of the calls on a child holds of them in the daemon. -/
theorem ofChild_wp {α : Type} {process : Child} {program : Child.Steps α}
    {post : α → Option Child.Life → Prop} {s : Option Child.Life}
    (specified : wp (Child.tending process.timeout) program post s)
    : wp watch (program.interpret (ofChild process))
        (fun value after => ∃ life, after = life.map (process, ·) ∧ post value life)
        (s.map (process, ·)) := by
  refine wp_mono (wp_interpret (fun s use => use = s.map (process, ·))
    (fun _ _ _ _ => trivial) ?_ specified rfl) ?_
  · rintro made s _ rfl allowed
    have same : (s.map (process, ·)).map Prod.snd = s := by
      cases s <;> rfl
    refine ⟨⟨?_, same.symm ▸ allowed⟩, fun answer after step => ⟨_, rfl, ?_⟩⟩
    · intro running member
      obtain ⟨life, _, rfl⟩ := Option.map_eq_some_iff.mp member
      rfl
    · rw [show after = observe (s.map (process, ·)) _ from step]
      exact congrArg (fun s => (Child.follow s _).map _) same
  · rintro value after ⟨life, rfl, holds⟩
    exact ⟨life, rfl, holds⟩

/-- No child runs before and after. -/
abbrev Returns {α : Type} (program : Prog Outcome α) : Prop := program.Keeps watch (· = none)

/-- Calls on a memfd come while no child runs. -/
theorem onMemfd_returns {α : Type} {program : KeyFile.Steps α}
    : Returns (program.interpret onMemfd) := by
  refine .interpret (fun _ _ => trivial) ?_ program
  rintro made _ rfl
  exact ⟨rfl, fun answer after step => step⟩

theorem letGo_returns {process : Child} : Returns process.letGo := by
  unfold Child.letGo
  cases process.key with
  | none => exact .pure
  | some key => exact onMemfd_returns

/-- Every request is carried out between children. -/
theorem carries {op : Op} : Returns (carryOutOp patience op) := by
  cases op with
  | secretFile secret =>
      refine onMemfd_returns.bind fun result => ?_
      cases result with
      | error e => exact .pure
      | ok key =>
          rintro _ rfl
          exact ⟨rfl, fun fd after step => step⟩
  | child process =>
      have ran : Returns ((process.ran patience).interpret (ofChild process)) := by
        rintro _ rfl
        refine wp_mono (ofChild_wp Child.run_tends) ?_
        rintro _ _ ⟨_, rfl, rfl⟩
        exact rfl
      exact ran.bind fun out => letGo_returns.bind fun _ => .pure
  | _ =>
      rintro _ rfl
      exact ⟨rfl, fun _ after step => step⟩

/-- Carrying requests out leaves no child behind. -/
theorem implemented_returns {α : Type} (program : Sys α) : Returns (implemented patience program) :=
  .interpret (fun _ _ => trivial) (fun _ => carries) program

end ChildUse

/-- No child holds the daemon up for long, and none is left behind. In every run, however its calls
fail and wherever it is cut off, a child is spawned only when none is left; until it is waited for
nothing else is done; the daemon sleeps only in polls on what it still expects of that child, each
for exactly the rest of the time that the child has from the first reading of the clock on; it waits
only for a child that was reported to have exited or that it killed, which it does not kill twice;
and when it is over, no child is left.
-/
theorem children_tended {setup : Setup} {patience : Patience} {rounds : Nat} {config dir : String}
    {trace : Interaction.Trace Outcome} {outcome : Option ExitCode}
    (run : (implemented patience (daemon setup rounds config dir)).Runs trace outcome)
    : (∀ before event later, trace = before ++ event :: later
        → (ChildUse.of before).allows event.op)
      ∧ (outcome ≠ none → ChildUse.of trace = none) := by
  have returns := @ChildUse.implemented_returns patience _ (daemon setup rounds config dir) none rfl
  constructor
  · rintro before event later rfl
    exact wp_allows returns run (Monitor.path_observing.mpr rfl)
  · intro ended
    obtain ⟨code, rfl⟩ := Option.ne_none_iff_exists'.mp ended
    have path : ChildUse.watch.Path none trace (ChildUse.of trace) :=
      Monitor.path_observing.mpr rfl
    have left := wp_post returns run path
    exact left

open Scene in
/-- systemd-cryptenroll is waited for when it is done. -/
theorem children_tended_home
    : ∃ process before, process.program = "systemd-cryptenroll"
        ∧ (ChildUse.of before).allows (.child process .wait) := by
  let process : Child :=
    .cryptenroll ⟨5, "/dev/vda3"⟩ "auto" [7] .sha256 ⟨6, ⟨Text.asBytes "correct horse"⟩⟩
  have fine : (play (twoVolumes "yes" fun _ => [0xaa])).trace.all smooth = true := by
    decide +kernel
  have called : (play (twoVolumes "yes" fun _ => [0xaa])).trace.any (fun event =>
      event.op = .child process) = true := by
    decide +kernel
  obtain ⟨patience, left, _, right, run, answer, good, ran⟩ := exists_carriedOut fine called
  cases answer with
  | error e => cases good
  | ok out =>
      obtain ⟨pid, middle, last, rfl⟩ := waits ran
      let spawning : Interaction.Event Outcome := ⟨.child process .spawn, .ok pid⟩
      refine ⟨process, left ++ spawning :: middle, rfl, ?_⟩
      refine (children_tended run).1 _ ⟨.child process .wait, .ok out.status⟩ (last ++ right) ?_
      rw [List.append_assoc, List.cons_append, List.cons_append, List.append_assoc]
      rfl

end Tpm2Autoenroll
