import Mathlib.Algebra.Order.BigOperators.Group.List
import Mathlib.Algebra.Order.Group.Nat
import Tpm2Autoenroll.Children.Attaining
import Tpm2Autoenroll.Children.Wiping
import Tpm2Autoenroll.Model.Implementation
import Tpm2Autoenroll.Serving.Scenes

/-! The daemon that makes memfds and runs children by single requests, and the one that carries
these out: they have the same runs.
-/

namespace Tpm2Autoenroll

open Interaction Prog Monitor
open Text (Bytes)

-----------------------------------------------------------------------------------------
-- Memfds
-----------------------------------------------------------------------------------------

namespace KeyFile

/-- A passphrase can be written whole. -/
theorem writeAll_may {interruptions : Nat} {buf : Bytes}
    : may anyhow (writeAll interruptions buf) (fun result _ => result = .ok ()) () := by
  unfold writeAll
  cases buf with
  | nil =>
      rw [writeRounds]
      exact rfl
  | cons next later =>
      rw [List.length_cons, ← Nat.add_assoc, writeRounds]
      refine may_perform_bind (.ok (Fin.last _)) rfl ?_
      dsimp only
      rw [Fin.val_last, if_neg (List.length_pos_of_ne_nil (List.cons_ne_nil _ _)).ne',
        List.drop_length]
      cases interruptions + later.length <;> exact rfl

/-- A memfd can always be made. -/
theorem new_may {interruptions : Nat} {secret : Secret}
    : may anyhow (new interruptions secret) (fun result _ => ∃ key, result = .ok key) () := by
  refine may_perform_bind (.ok ()) rfl (may_bind.mpr (may_mono writeAll_may ?_))
  rintro _ _ rfl
  exact may_perform_bind (.ok ()) rfl ⟨_, rfl⟩

/-- Letting go of one comes to an end. -/
theorem drop_completes {key : SecretFile} : ∃ trace, key.drop.Runs trace (some ()) := by
  have footprint : key.drop.Only fun _ => True :=
    (wipe_only.mono fun _ _ => trivial).bind fun _ =>
      ⟨trivial, fun _ => ⟨trivial, fun _ => trivial⟩⟩
  have answers (c : Call) (_ : True) : Nonempty (Answer c) := by
    cases c with
    | write data | pwrite data => exact ⟨.ok (Fin.last _)⟩
    | run => exact ⟨.error ""⟩
    | close => exact ⟨()⟩
    | memfdCreate | flush | ftruncate => exact ⟨.ok ()⟩
  obtain ⟨trace, _, run⟩ := footprint.completes answers
  exact ⟨trace, run⟩

end KeyFile

/-- What gave an output was spawned, and waited for at last. -/
theorem Child.run_waits {cmd : Child.Command} {timeout cap trips : Nat}
    {calls : Interaction.Trace Child.Answer} {out : Output}
    (run : (Child.run cmd timeout cap trips).Runs calls (some (.ok out)))
    : ∃ pid collecting,
        calls = ⟨.spawn, .ok pid⟩ :: (collecting ++ [⟨.wait, .ok out.status⟩]) := by
  obtain ⟨spawned, later, rfl, rest⟩ := Child.runs_call.mp run
  cases spawned with
  | error e =>
      obtain ⟨_, failed⟩ := runs_pure_some.mp rest
      cases failed
  | ok pid =>
      obtain ⟨collected, collecting, ending, rfl, _, reaps⟩ := runs_bind_some.mp rest
      match collected with
      | .ok (some (stdout, stderr)) =>
          obtain ⟨status, last, rfl, returned⟩ := Child.runs_call.mp reaps
          cases status with
          | error e =>
              obtain ⟨_, failed⟩ := runs_pure_some.mp returned
              cases failed
          | ok status =>
              obtain ⟨rfl, same⟩ := runs_pure_some.mp returned
              cases same
              exact ⟨pid, collecting, rfl⟩
      | .ok none | .error _ =>
          obtain ⟨_, _, rfl, waits⟩ := Child.runs_call.mp reaps
          obtain ⟨_, _, rfl, returned⟩ := Child.runs_call.mp waits
          obtain ⟨_, failed⟩ := runs_pure_some.mp returned
          cases failed

-----------------------------------------------------------------------------------------
-- Requests
-----------------------------------------------------------------------------------------

/-- An output of a child has to fit into what is collected of it. -/
def Fitting : Event → Prop
  | ⟨.child process, .ok out⟩ => process.command.Fits process.stdoutCap out
  | _ => True

/-- Answers that can be had: all outputs that fit, and that a memfd or a child cannot be made. -/
def Obtainable : Event → Prop
  | ⟨.secretFile _, .error e⟩ => ∃ errno : Errno, e = s!"memfd_create: {errno.display}"
  | ⟨.child process, .error e⟩ =>
      ∃ errno : Errno, e = s!"could not run {process.command.program}: {errno.display}"
  | event => Fitting event

/-- How much a child has to be read of. -/
def bulk : Event → Nat
  | ⟨.child _, .ok out⟩ => out.stdout.length + out.stderr.length
  | _ => 0

variable {patience : Patience}

theorem timeout_pos (process : Child) : 0 < process.timeout := by
  unfold Child.timeout
  split <;> decide

/-- What is done with the memfd of a child comes to an end. -/
theorem letGo_completes {process : Child} : ∃ trace, process.letGo.Runs trace (some ()) := by
  unfold Child.letGo
  cases process.key with
  | none => exact ⟨[], .ret ()⟩
  | some key =>
      obtain ⟨trace, run⟩ := @KeyFile.drop_completes ⟨key.secret.bytes.length⟩
      have each : ∀ event ∈ trace, ∃ part, (onMemfd event.op).Runs part (some event.res) :=
        fun event _ => ⟨_, runs_perform_some.mpr rfl⟩
      obtain ⟨done, carried⟩ := exists_carried each
      exact ⟨done, run.carried carried⟩

/-- An answer of a child that can be had, as it is carried out. -/
theorem child_carried {process : Child} {answer : Except String Output}
    {calls : Interaction.Trace Child.Answer}
    (run : (process.ran patience).Runs calls (some answer))
    : ∃ part, (carryOutOp patience (.child process)).Runs part (some answer) := by
  have each : ∀ event ∈ calls, ∃ part, (ofChild process event.op).Runs part (some event.res) :=
    fun event _ => ⟨_, runs_perform_some.mpr rfl⟩
  obtain ⟨done, carried⟩ := exists_carried each
  obtain ⟨rest, gone⟩ := @letGo_completes process
  exact ⟨done ++ (rest ++ []), (run.carried carried).follow (gone.follow (.ret answer))⟩

theorem secretFile_carried {secret : Secret} {fd : Fd}
    : ∃ part, (carryOutOp patience (.secretFile secret)).Runs part (some (.ok fd)) := by
  obtain ⟨calls, _, _, run, _, key, rfl⟩ :=
    exists_run_of_may (@KeyFile.new_may patience.interruptions secret)
  have each : ∀ event ∈ calls, ∃ part, (onMemfd event.op).Runs part (some event.res) :=
    fun event _ => ⟨_, runs_perform_some.mpr rfl⟩
  obtain ⟨done, carried⟩ := exists_carried each
  refine ⟨done ++ [⟨.fileno, fd⟩], runs_bind_some.mpr ⟨.ok key, _, _, rfl, ?_, ?_⟩⟩
  · exact run.carried carried
  · exact @Runs.call Action Outcome (Except String Fd) .fileno (fun fd => .ret (.ok fd)) fd _ _
      (.ret _)

/-- Every answer that can be had is had, given the patience. -/
theorem obtained {event : Event} (obtainable : Obtainable event)
    (patient : bulk event + 3 < patience.trips)
    : ∃ part, (carryOutOp patience event.op).Runs part (some event.res) := by
  obtain ⟨op, answer⟩ := event
  cases op with
  | secretFile secret =>
      cases answer with
      | ok fd => exact secretFile_carried
      | error e =>
          obtain ⟨errno, rfl⟩ := obtainable
          exact ⟨[⟨.memfd .memfdCreate, .error errno⟩], .call _ (.ret _)⟩
  | child process =>
      cases answer with
      | ok out =>
          obtain ⟨calls, _, _, run, _, rfl⟩ :=
            exists_run_of_may (Child.run_may (timeout_pos process) obtainable patient)
          exact child_carried run
      | error e =>
          obtain ⟨errno, rfl⟩ := obtainable
          exact @child_carried _ process _ [⟨.spawn, .error errno⟩] (.call _ (.ret _))
  | _ => exact ⟨_, runs_perform_some.mpr rfl⟩

/-- What a child is carried out as is answered with what fits. -/
theorem fitting {event : Event} {part : Interaction.Trace Outcome}
    (run : (carryOutOp patience event.op).Runs part (some event.res))
    : Fitting event := by
  obtain ⟨op, answer⟩ := event
  cases op with
  | child process =>
      cases answer with
      | error e => trivial
      | ok out =>
          obtain ⟨_, _, _, rfl, ran, letting⟩ := runs_bind_some.mp run
          obtain ⟨_, _, _, rfl, _, returned⟩ := runs_bind_some.mp letting
          obtain ⟨_, rfl⟩ := runs_pure_some.mp returned
          obtain ⟨calls, run, _⟩ := interpret_runs.mp ran
          exact (Child.attained_iff (timeout_pos process)).mp ⟨_, calls, run⟩
  | _ => trivial

/-- A call of a child is carried out as that. -/
theorem eq_of_ofChild {process : Child} {made : Child.Call} {answer : Child.Answer made}
    {part : Interaction.Trace Outcome} (run : (ofChild process made).Runs part (some answer))
    : part = [⟨.child process made, answer⟩] :=
  runs_perform_some.mp run

/-- A child that is carried out is spawned first. -/
theorem spawns {process : Child} {part : Interaction.Trace Outcome}
    {answer : Except String Output}
    (ran : (carryOutOp patience (.child process)).Runs part (some answer))
    : ∃ spawned rest, part = ⟨.child process .spawn, spawned⟩ :: rest := by
  obtain ⟨_, _, _, rfl, ran, _⟩ := runs_bind_some.mp ran
  obtain ⟨calls, run, carried⟩ := interpret_runs.mp ran
  obtain ⟨spawned, later, rfl, _⟩ := Child.runs_call.mp run
  obtain ⟨_, _, rfl, head, _⟩ := @Carried.split _ _ _ _ _ [⟨.spawn, spawned⟩] later _ carried
  obtain rfl := eq_of_ofChild (carried_singleton.mp head)
  exact ⟨spawned, _, rfl⟩

/-- A child with an output is spawned, and waited for to have its status. -/
theorem waits {process : Child} {part : Interaction.Trace Outcome} {out : Output}
    (ran : (carryOutOp patience (.child process)).Runs part (some (.ok out)))
    : ∃ pid middle right, part = ⟨.child process .spawn, .ok pid⟩
        :: (middle ++ ⟨.child process .wait, .ok out.status⟩ :: right) := by
  obtain ⟨_, _, _, rfl, ran, letting⟩ := runs_bind_some.mp ran
  obtain ⟨_, _, _, rfl, _, returned⟩ := runs_bind_some.mp letting
  obtain ⟨_, rfl⟩ := runs_pure_some.mp returned
  obtain ⟨calls, run, carried⟩ := interpret_runs.mp ran
  obtain ⟨pid, collecting, rfl⟩ := Child.run_waits run
  obtain ⟨_, _, rfl, first, carried⟩ :=
    @Carried.split Child.Call _ Child.Answer _ _ [⟨.spawn, .ok pid⟩] _ _ carried
  obtain ⟨middle, _, rfl, _, last⟩ := carried.split
  obtain rfl := eq_of_ofChild (carried_singleton.mp first)
  obtain rfl := eq_of_ofChild (carried_singleton.mp last)
  exact ⟨pid, middle, _, by rw [List.append_assoc, List.append_assoc]; rfl⟩

/-- A run whose answers can be had is carried out. -/
theorem exists_implemented {α : Type} {program : Sys α} {trace : Trace} {outcome : Option α}
    (run : program.Runs trace outcome) (obtainable : ∀ event ∈ trace, Obtainable event)
    : ∃ patience done, (implemented patience program).Runs done outcome
        ∧ Carried (carryOutOp patience) trace done := by
  have patient : ∀ event ∈ trace, bulk event + 3 < (trace.map bulk).sum + 4 := fun event member =>
    Nat.add_lt_add_of_le_of_lt (List.le_sum_of_mem (List.mem_map_of_mem member)) (by decide)
  let patience : Patience := ⟨0, (trace.map bulk).sum + 4⟩
  obtain ⟨done, carried⟩ := exists_carried fun event member =>
    @obtained patience event (obtainable event member) (patient event member)
  exact ⟨patience, done, run.carried carried, carried⟩

/-- A completed run comes of one whose children were answered with what fits. -/
theorem exists_requests {α : Type} {program : Sys α} {done : Interaction.Trace Outcome} {value : α}
    (run : (implemented patience program).Runs done (some value))
    : ∃ trace, program.Runs trace (some value) ∧ Carried (carryOutOp patience) trace done
        ∧ ∀ event ∈ trace, Fitting event := by
  obtain ⟨trace, run, carried⟩ := interpret_runs.mp run
  refine ⟨trace, run, carried, fun event member => ?_⟩
  obtain ⟨_, part, _, _, run⟩ := carried.mem member
  exact fitting run

/-- The two levels agree. A completed run of the daemon with its memfds and children carried out
comes of a run in which each of them is a single request, with the same result, and the outputs that
its children are answered with fit into what is collected of them; and every run in which they fit,
completed or not, also one in which memfds and children cannot be made, is one that is carried out.
-/
theorem levels_agree {setup : Setup} {rounds : Nat} {config dir : String}
    : (∀ patience done code,
        (implemented patience (daemon setup rounds config dir)).Runs done (some code)
        → ∃ trace, (daemon setup rounds config dir).Runs trace (some code)
          ∧ Carried (carryOutOp patience) trace done ∧ ∀ event ∈ trace, Fitting event)
      ∧ ∀ trace outcome, (daemon setup rounds config dir).Runs trace outcome
        → (∀ event ∈ trace, Obtainable event)
        → ∃ patience done, (implemented patience (daemon setup rounds config dir)).Runs done outcome
          ∧ Carried (carryOutOp patience) trace done :=
  ⟨fun _ _ _ run => exists_requests run,
    fun _ _ run obtainable => exists_implemented run obtainable⟩

-----------------------------------------------------------------------------------------
-- Scenes
-----------------------------------------------------------------------------------------

namespace Scene

/-- Nothing goes wrong with memfds and children. -/
def smooth : Event → Bool
  | ⟨.child process, .ok out⟩ =>
      out.stdout.length ≤ (if process.command.stdout then process.stdoutCap else 0)
        && out.stderr.length ≤ if process.command.stderr then Child.stderrCap else 0
  | ⟨.child _, .error _⟩ | ⟨.secretFile _, .error _⟩ => false
  | _ => true

theorem obtainable_of_smooth {event : Event} (smooth : smooth event = true) : Obtainable event := by
  obtain ⟨op, answer⟩ := event
  cases op with
  | child process =>
      cases answer with
      | error e => cases smooth
      | ok out =>
          obtain ⟨outs, errs⟩ := Bool.and_eq_true_iff.mp smooth
          exact ⟨of_decide_eq_true outs, of_decide_eq_true errs⟩
  | secretFile secret =>
      cases answer with
      | error e => cases smooth
      | ok fd => trivial
  | _ => trivial

/-- A run on a scene, carried out, and where in it a request is. -/
theorem exists_carriedOut {scene : Scene} {op : Op} (smooth : (play scene).trace.all smooth = true)
    (called : (play scene).trace.any (fun event => event.op = op) = true)
    : ∃ patience left part right,
        (implemented patience (daemon setup 2 Config.defaultPath Sockets.defaultDir)).Runs
          (left ++ (part ++ right)) (play scene).outcome
        ∧ ∃ answer, Scene.smooth ⟨op, answer⟩ = true
          ∧ (carryOutOp patience op).Runs part (some answer) := by
  have driven : (daemon setup 2 Config.defaultPath Sockets.defaultDir).Runs (play scene).trace
      (play scene).outcome :=
    runs_drive _ scene
  have fine := List.all_eq_true.mp smooth
  obtain ⟨patience, done, run, carried⟩ := exists_implemented driven fun event member =>
    obtainable_of_smooth (fine event member)
  obtain ⟨event, member, same⟩ := List.any_eq_true.mp called
  obtain rfl := of_decide_eq_true same
  obtain ⟨left, part, right, rfl, ran⟩ := carried.mem member
  exact ⟨patience, left, part, right, run, event.res, fine event member, ran⟩

/-- It goes like that where the human declines to re-enroll. -/
theorem declined_smooth : (play (twoVolumes "no" fun _ => [0xaa])).trace.all smooth = true := by
  decide +kernel

end Scene

end Tpm2Autoenroll
