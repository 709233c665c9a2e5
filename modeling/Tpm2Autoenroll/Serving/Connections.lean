import Tpm2Autoenroll.Serving.Outcomes
import Tpm2Autoenroll.Serving.Rules

/-! Histories that end inside a connection, and the rule that collects what each part of the
connection establishes.
-/

namespace Tpm2Autoenroll

open Interaction Prog Monitor

/-- The history ends inside the connection `conn` accepted on `fd`: `earlier` holds of what
came before it was accepted and `here` of what happened since.
-/
def Within (fd conn : Fd) (earlier here : Trace → Prop) (past : Trace) : Prop :=
  ∃ before since,
    past = before ++ ⟨.accept fd, .ok conn⟩ :: since
    ∧ earlier before
    ∧ (∀ event ∈ since, ∀ other, event.op ≠ .accept other)
    ∧ here since

variable {fd conn : Fd} {earlier here : Trace → Prop} {past : Trace}

/-- A connection that was accepted just now. -/
theorem Within.begin (held : earlier past)
    : Within fd conn earlier (· = []) (past ++ [⟨.accept fd, .ok conn⟩]) :=
  ⟨past, [], rfl, held, fun _ member => (nomatch member), rfl⟩

theorem Within.mono {looser weaker : Trace → Prop} (within : Within fd conn earlier here past)
    (loosen : ∀ before, earlier before → looser before)
    (weaken : ∀ since, here since → weaker since)
    : Within fd conn looser weaker past := by
  obtain ⟨before, since, split, held, alone, facts⟩ := within
  exact ⟨before, since, split, loosen before held, alone, weaken since facts⟩

/-- A connection about which nothing is known. -/
theorem Within.any (within : Within fd conn earlier here past)
    : Within fd conn earlier (fun _ => True) past :=
  within.mono (fun _ => id) fun _ _ => trivial

/-- What held before the connection holds after it if more history does not hurt. -/
theorem Within.outside (within : Within fd conn earlier here past)
    (persists : ∀ before more, earlier before → earlier (before ++ more))
    : earlier past := by
  obtain ⟨before, since, rfl, held, _, _⟩ := within
  exact persists before _ held

/-- More events of the connection. -/
theorem Within.append {more : Trace → Prop} {trace : Trace}
    (within : Within fd conn earlier here past)
    (alone : ∀ event ∈ trace, ∀ other, event.op ≠ .accept other)
    (gain : ∀ since, here since → more (since ++ trace))
    : Within fd conn earlier more (past ++ trace) := by
  obtain ⟨before, since, rfl, held, before_alone, facts⟩ := within
  refine ⟨before, since ++ trace, by simp, held, ?_, gain since facts⟩
  intro event member
  rcases List.mem_append.mp member with member | member
  · exact before_alone event member
  · exact alone event member

/-- The last accepted connection of a history is the one it ends in. -/
theorem Within.latest {other accepted : Fd} {before during : Trace}
    (within : Within fd conn earlier here (before ++ ⟨.accept other, .ok accepted⟩ :: during))
    (alone : ∀ event ∈ during, ∀ other, event.op ≠ .accept other)
    : fd = other ∧ conn = accepted ∧ earlier before ∧ here during := by
  obtain ⟨first, since, split, held, sinceAlone, facts⟩ := within
  rcases List.append_eq_append_iff.mp split with ⟨gap, rfl, rest⟩ | ⟨gap, rfl, rest⟩
  · cases gap with
    | nil =>
        obtain ⟨same, rfl⟩ := List.cons.inj rest
        cases same
        exact ⟨rfl, rfl, by simpa using held, facts⟩
    | cons event gap =>
        obtain ⟨_, inside⟩ := List.cons.inj rest
        exact absurd rfl (alone ⟨.accept fd, .ok conn⟩ (by simp [inside]) fd)
  · cases gap with
    | nil =>
        obtain ⟨same, rfl⟩ := List.cons.inj rest
        cases same
        exact ⟨rfl, rfl, by simpa using held, facts⟩
    | cons event gap =>
        obtain ⟨_, inside⟩ := List.cons.inj rest
        exact absurd rfl (sinceAlone ⟨.accept other, .ok accepted⟩ (by simp [inside]) other)

/-- A part of the connection whose requests the monitor does not restrict: it adds to the
history one of its completed runs.
-/
theorem Within.wp {α : Type} {allows : Trace → Op → Prop} {allowed : Op → Prop} {left : Prop}
    {program : Sys α} {more : α → Trace → Prop} (within : Within fd conn earlier here past)
    (only : program.Only allowed left) (quiet : ∀ past op, allowed op → allows past op)
    (alone : ∀ other, ¬ allowed (.accept other))
    (gain : ∀ since trace value,
      here since → program.Runs trace (some value) → more value (since ++ trace))
    : Prog.wp (history allows) program
        (fun value final => Within fd conn earlier (more value) final) past := by
  refine wp_history only quiet fun trace value run => ?_
  refine within.append ?_ fun since facts => gain since trace value facts run
  intro event member other same
  exact alone other (same ▸ only.mem run member)

/-- A single request of the connection, after which facts that more history does not hurt
still hold.
-/
theorem Within.ask {α : Type} {allows : Trace → Op → Prop} {op : Op} {next : Res op → Sys α}
    {post : α → Trace → Prop} (within : Within fd conn earlier here past)
    (lasting : ∀ since more, here since → here (since ++ more)) (allowed : allows past op)
    (alone : ∀ other, op ≠ .accept other)
    (rest : ∀ answer final,
      Within fd conn earlier here final → Prog.wp (history allows) (next answer) post final)
    : Prog.wp (history allows) (Tpm2Autoenroll.ask op >>= next) post past := by
  refine wp_ask allowed fun answer final step => ?_
  rw [history_step.mp step]
  refine rest answer _ (within.append ?_ fun since facts => lasting since _ facts)
  intro event member
  rw [List.mem_singleton.mp member]
  exact alone

-----------------------------------------------------------------------------------------
-- Configured listeners
-----------------------------------------------------------------------------------------

/-- What the start of the daemon leaves in the history for one of its listeners: the
configuration it read has the volume, and the socket was bound at the volume's path.
-/
def Configured (fromStr : Json.Reader) (config dir : String) (l : Listener) (past : Trace)
    : Prop :=
  ∃ text loaded, (⟨.readFile config, .ok text⟩ : Event) ∈ past
    ∧ Config.parse fromStr text = .ok loaded
    ∧ l.Bound dir loaded.volumes past

theorem Configured.append {fromStr : Json.Reader} {config dir : String} {l : Listener}
    {past : Trace} (configured : Configured fromStr config dir l past) (more : Trace)
    : Configured fromStr config dir l (past ++ more) := by
  obtain ⟨text, loaded, read, parsed, bound⟩ := configured
  refine ⟨text, loaded, List.mem_append_left _ read, parsed, ?_⟩
  exact bound.mono (List.Subset.refl _) (List.subset_append_left _ _)

/-- A history monitor that restricts nothing outside connections is kept by the daemon if
every connection of a configured listener keeps it.
-/
theorem daemon_history_wp {setup : Setup} {rounds : Nat} {config dir : String}
    {allows : Trace → Op → Prop}
    (outside : ∀ past op, op.starting ∨ op.serving ∨ op.clearing → allows past op)
    (handled : ∀ {l conn memory past} {earlier : Trace → Prop},
      (∀ past, earlier past → Configured setup.fromStr config dir l past)
      → Within l.fd conn earlier (· = []) past
      → Prog.wp (history allows) (handle setup conn l.volume memory)
          (fun _ final => Within l.fd conn earlier (fun _ => True) final) past)
    : Prog.wp (history allows) (daemon setup rounds config dir) (fun _ _ => True) [] := by
  have started : Prog.wp (history allows) (start setup.fromStr config dir)
      (fun result past => ∀ listeners, result = .ok listeners
        → ∀ l ∈ listeners, Configured setup.fromStr config dir l past) [] := by
    refine wp_history start_only (fun past op small => outside past op (.inl small)) ?_
    intro trace result run listeners made l member
    obtain ⟨text, loaded, read, parsed, bound⟩ := start_listeners (made ▸ run)
    exact ⟨text, loaded, read, parsed, bound l member⟩
  refine daemon_wp (fun listeners past =>
    ∀ l ∈ listeners, Configured setup.fromStr config dir l past) started ?_
  intro listeners past held
  have inv : ServeInvariant (history allows) setup listeners
      (fun _ past => ∀ l ∈ listeners, Configured setup.fromStr config dir l past)
      (fun _ past => ∀ l ∈ listeners, Configured setup.fromStr config dir l past) := by
    refine .of_kept (fun _ => trivial) ?_ ?_ ?_
    · intro _ past op _ small
      exact outside past op (.inr (.inl small))
    · intro _ past op answer after step _ held l member
      rw [history_step.mp step]
      exact (held l member).append _
    · intro l memory past conn after member step held
      rw [history_step.mp step]
      have configured (past : Trace)
          (all : ∀ l ∈ listeners, Configured setup.fromStr config dir l past)
          : Configured setup.fromStr config dir l past :=
        all l member
      refine wp_mono (handled configured (.begin held)) ?_
      intro _ final within other among
      exact within.outside (fun before more held l member => (held l member).append more) other
        among
  refine ⟨_, _, inv, held, fun _ _ _ => shutdown_wp ?_⟩
  exact fun past op small => outside past op (.inr (.inr small))

end Tpm2Autoenroll
