import Tpm2Autoenroll.Children.Wiping

/-! From the making of a memfd to its close: what is in it when a child is given it, and that it is
closed once.
-/

namespace Tpm2Autoenroll.KeyFile

open Interaction Prog Monitor
open Buffering
open Text (Bytes)

namespace Pages

/-- The file holds these bytes of the passphrase and no more. -/
def Holds (m : Pages) (bytes : Bytes) : Prop :=
  (List.range m.written).map m.cells = bytes.map Cell.secret

variable {m : Pages} {bytes : Bytes}

theorem holds_fresh : fresh.Holds [] := rfl

theorem Holds.length (holds : m.Holds bytes) : m.written = bytes.length := by
  have lengths := congrArg List.length holds
  rwa [List.length_map, List.length_map, List.length_range] at lengths

/-- A write adds what it took. -/
theorem Holds.write (holds : m.Holds bytes) {data : Bytes} {n : Fin (data.length + 1)}
    (moved : n.val ≠ 0)
    : (m.next ⟨.write data, .ok n⟩).Holds (bytes ++ data.take n.val) := by
  have step : m.next ⟨.write data, .ok n⟩
      = { m with
          cells := put m.cells m.written ((data.take n.val).map .secret)
          written := m.written + n.val } :=
    if_neg moved
  have grown := @map_put _ m.cells m.written ((data.take n.val).map .secret)
  rw [length_taken] at grown
  rw [step, Holds, List.map_append]
  exact grown.trans (congrArg (· ++ _) holds)

end Pages

open Pages

/-- The memfd there is, if any. -/
def follow (s : Option Pages) : Interaction.Event Answer → Option Pages
  | ⟨.memfdCreate, .ok _⟩ => some fresh
  | ⟨.memfdCreate, .error _⟩ => s
  | ⟨.close, _⟩ => none
  | event => s.map fun m => m.next event

/-- A memfd is made when there is none, and what is done with one is done with that. It is closed
only when it is accounted for.
-/
def inHand (s : Option Pages) : Call → Prop
  | .memfdCreate => s = none
  | .close => ∃ m, s = some m ∧ m.Accounted
  | _ => ∃ m, s = some m

def lifecycle : Monitor Answer (Option Pages) := observing inHand follow

variable {m : Pages} {secret : Secret}

/-- What goes on between the making of a memfd and its close. -/
def within : Call → Prop
  | .memfdCreate | .close => False
  | _ => True

/-- What is specified of the pages of a memfd holds of it. -/
theorem within_wp {α : Type} {left : Prop} {program : Steps α} {post : α → Pages → Prop}
    (only : program.Only within left)
    (specified : wp closing program post m)
    : wp lifecycle program (fun value s => ∃ m', s = some m' ∧ post value m') (some m) := by
  induction program generalizing m with
  | ret value => exact ⟨m, rfl, specified⟩
  | pending => trivial
  | call c rest ih =>
      have inside : c ≠ .memfdCreate ∧ c ≠ .close := by
        constructor <;> · rintro rfl; exact only.1
      refine ⟨?_, fun answer after step => ?_⟩
      · cases c with
        | memfdCreate => exact only.1.elim
        | close => exact only.1.elim
        | _ => exact ⟨m, rfl⟩
      · have next : after = some (m.next ⟨c, answer⟩) := by
          cases c with
          | memfdCreate => exact only.1.elim
          | close => exact only.1.elim
          | _ => exact step
        rw [next]
        exact ih answer (only.2 answer) (specified.2 answer _ rfl)

theorem writeRounds_within {rounds : Nat} {buf : Bytes}
    : (writeRounds rounds buf).Only within True := by
  induction rounds generalizing buf with
  | zero => cases buf <;> trivial
  | succ rounds ih =>
      cases buf with
      | nil => trivial
      | cons next later =>
          refine ⟨trivial, fun answer => ?_⟩
          cases answer with
          | ok n =>
              change Only _ _ (if n.val = 0 then _ else _)
              split_ifs
              · trivial
              · exact ih
          | error e =>
              cases e with
              | intr => exact ih
              | _ => trivial

/-- What is known once `write_all` has returned. -/
def Stored (m : Pages) (bytes : Bytes) : Except Errno Unit → Prop
  | .ok _ => m.Filling ∧ m.Holds bytes
  | .error _ => m.Accounted

/-- `write_all` writes the bytes in order, by induction on its rounds. -/
theorem writeRounds_stores {rounds : Nat} {done buf : Bytes} (filling : m.Filling)
    (holds : m.Holds done)
    : wp closing (writeRounds rounds buf) (fun result m' => Stored m' (done ++ buf) result) m := by
  induction rounds generalizing done buf m with
  | zero =>
      cases buf with
      | nil => exact ⟨filling, (List.append_nil done).symm ▸ holds⟩
      | cons next later => trivial
  | succ rounds ih =>
      cases buf with
      | nil => exact ⟨filling, (List.append_nil done).symm ▸ holds⟩
      | cons next later =>
          refine wp_call (by simp) fun answer => ?_
          cases answer with
          | error e =>
              cases e with
              | intr => exact ih filling holds
              | again | noent | exist | pipe | noprotoopt | other => exact filling.accounted_fail
          | ok n =>
              dsimp only
              split_ifs with stuck
              · have step : m.next ⟨.write (next :: later), .ok n⟩ = m.fail := if_pos stuck
                rw [step]
                exact filling.accounted_fail
              · have rest := @ih _ _ ((next :: later).drop n.val) (filling.write stuck).1
                  (holds.write stuck)
                rwa [List.append_assoc, List.take_append_drop] at rest

/-- What there is once `new` has returned. -/
def Lent (secret : Secret) (s : Option Pages) : Except String SecretFile → Prop
  | .error _ => s = none
  | .ok key => key.len = secret.bytes.length
      ∧ ∃ m, s = some m ∧ m.Filling ∧ m.Holds secret.bytes

/-- The rule of a call. -/
theorem call_lifecycle {α : Type} {c : Call} {rest : Answer c → Steps α}
    {post : α → Option Pages → Prop} {s : Option Pages} (allowed : inHand s c)
    (later : ∀ answer, wp lifecycle (rest answer) post (follow s ⟨c, answer⟩))
    : wp lifecycle (call c >>= rest) post s := by
  refine ⟨allowed, fun answer after step => ?_⟩
  rw [observing_step.mp step]
  exact later answer

theorem close_wp {α : Type} {rest : Steps α} {post : α → Option Pages → Prop}
    (accounted : m.Accounted) (later : wp lifecycle rest post none)
    : wp lifecycle (do let _ ← call .close; rest) post (some m) :=
  call_lifecycle ⟨m, rfl, accounted⟩ fun _ => later

/-- `new` makes a memfd that holds the passphrase, or leaves none. -/
theorem new_lends {interruptions : Nat}
    : wp lifecycle (new interruptions secret) (fun result s => Lent secret s result) none := by
  refine call_lifecycle rfl fun created => ?_
  cases created with
  | error e => exact rfl
  | ok =>
      have stored := within_wp writeRounds_within
        (@writeRounds_stores _ (interruptions + secret.bytes.length) [] secret.bytes filling_fresh
          holds_fresh)
      refine Prog.wp_bind.mpr (wp_mono stored fun result s facts => ?_)
      obtain ⟨m, rfl, stored⟩ := facts
      cases result with
      | error e => exact close_wp stored rfl
      | ok =>
          obtain ⟨filling, holds⟩ := stored
          refine call_lifecycle ⟨m, rfl⟩ fun flushed => ?_
          cases flushed with
          | error e => exact close_wp filling.accounted_fail rfl
          | ok => exact ⟨rfl, m, rfl, filling, holds⟩

/-- `drop` leaves no memfd. -/
theorem drop_ends {key : SecretFile} (filling : m.Filling) (whole : m.written = key.len)
    : wp lifecycle key.drop (fun _ s => s = none) (some m) := by
  have emptying : m.Emptying key.len 0 := whole ▸ filling.emptying
  have wiping : (wipe key.len 0).Only within := by
    refine wipe_only.mono fun c blanks => ?_
    obtain ⟨data, start, rfl, _⟩ := blanks
    trivial
  refine Prog.wp_bind.mpr (wp_mono (within_wp wiping (wipe_wp emptying)) fun _ s facts => ?_)
  obtain ⟨m', rfl, accounted⟩ := facts
  exact call_lifecycle ⟨m', rfl⟩ fun cut => close_wp accounted rfl

end Tpm2Autoenroll.KeyFile
