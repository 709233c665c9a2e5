import Mathlib.Logic.Relation
import Tpm2Autoenroll.Surroundings.Headers

/-! Which token a re-enrollment is taken to have added, whatever systemd-cryptenroll came to and
whatever others added to the header meanwhile.
-/

namespace Tpm2Autoenroll.Cryptenroll

open Json (Value)
open Token (Tpm2Token)

-----------------------------------------------------------------------------------------
-- What happens to a header
-----------------------------------------------------------------------------------------

/-- The key of the token with this index. -/
def key (index : UInt32) : String := toString index.toNat

theorem key_injective {one other : UInt32} (same : key one = key other) : one = other := by
  have parsed := congrArg Text.parseU32 same
  rw [key, key, Text.parseU32_toString, Text.parseU32_toString] at parsed
  exact Option.some.inj parsed

/-- A header while systemd-cryptenroll runs on it: its entries, whether the old token is wiped,
the token the run has added, and the ones that others have.
-/
structure Progress where
  entries : Json.Map
  wiped : Bool
  own : Option (UInt32 × Value)
  others : List (UInt32 × Value)

namespace Progress

/-- The tokens that were added. -/
def added (s : Progress) : List (UInt32 × Value) := s.own.toList ++ s.others

/-- The tokens that were added at another index than the old one. -/
def fresh (s : Progress) (old : UInt32) : List (UInt32 × Value) :=
  s.added.filter fun token => token.1 ≠ old

/-- What the run and the others do one after the other, until the run is finished or interrupted.
The run wipes nothing before it has added what it adds.
-/
inductive Step (old : UInt32) (s : Progress) : Progress → Prop
  | adds {index : UInt32} {value : Value} (first : s.own = none) (before : s.wiped = false)
    (free : key index ∉ s.entries.keys) (tpm2 : Token.isTpm2 value = true)
    : Step old s
        { s with entries := (key index, value) :: s.entries, own := some (index, value) }
  | wipes (before : s.wiped = false)
    : Step old s
        { s with entries := s.entries.filter fun entry => entry.1 ≠ key old, wiped := true }
  | intrudes {index : UInt32} {value : Value} (free : key index ∉ s.entries.keys)
    (tpm2 : Token.isTpm2 value = true)
    : Step old s
        { s with entries := (key index, value) :: s.entries, others := (index, value) :: s.others }

/-- Distinct indices in decimal, and one systemd-tpm2 token among the entries. -/
structure Initial (old : UInt32) (s : Progress) : Prop where
  distinct : s.entries.keys.Nodup
  canonical : ∀ entry ∈ s.entries, ∃ index, entry.1 = key index
  sole : ∃ value, s.entries.filter (fun entry => Token.isTpm2 entry.2) = [(key old, value)]
  wiped : s.wiped = false
  own : s.own = none
  others : s.others = []

/-- The systemd-tpm2 tokens are the old one, as long as it is there, and those added since. -/
structure Invariant (old : UInt32) (s : Progress) : Prop where
  distinct : s.entries.keys.Nodup
  canonical : ∀ entry ∈ s.entries, ∃ index, entry.1 = key index
  tpm2 : ∃ value, (s.entries.filter fun entry => Token.isTpm2 entry.2).Perm
    ((if s.wiped then [] else [(key old, value)])
      ++ s.added.map fun token => (key token.1, token.2))
  own : ∀ token, s.own = some token → token.1 ≠ old

variable {old : UInt32} {s after : Progress}

theorem Initial.invariant (initial : Initial old s) : Invariant old s where
  distinct := initial.distinct
  canonical := initial.canonical
  tpm2 := by
    obtain ⟨value, sole⟩ := initial.sole
    refine ⟨value, ?_⟩
    rw [sole]
    simp [added, initial.wiped, initial.own, initial.others]
  own := by
    intro token present
    rw [initial.own] at present
    cases present

/-- While the old token is there, nothing can be added at its index. -/
theorem Invariant.ne_old (inv : Invariant old s) (there : s.wiped = false)
    {token : UInt32 × Value} (member : token ∈ s.added)
    : token.1 ≠ old := by
  obtain ⟨value, perm⟩ := inv.tpm2
  have keys : ((s.entries.filter fun entry => Token.isTpm2 entry.2).map Prod.fst).Nodup :=
    inv.distinct.sublist (List.filter_sublist.map _)
  rw [(perm.map Prod.fst).nodup_iff, there] at keys
  simp only [Bool.false_eq_true, if_false, List.singleton_append, List.map_cons,
    List.nodup_cons] at keys
  rintro rfl
  refine keys.1 (List.mem_map.mpr ⟨(key token.1, token.2), ?_, rfl⟩)
  exact List.mem_map.mpr ⟨token, member, rfl⟩

/-- The old token is there until it is wiped. -/
theorem Invariant.old_mem (inv : Invariant old s) (there : s.wiped = false)
    : key old ∈ s.entries.keys := by
  obtain ⟨value, perm⟩ := inv.tpm2
  have inside : (key old, value) ∈ s.entries.filter fun entry => Token.isTpm2 entry.2 := by
    refine perm.mem_iff.mpr (List.mem_append_left _ ?_)
    simp [there]
  exact List.mem_map.mpr ⟨_, List.mem_of_mem_filter inside, rfl⟩

/-- Each step keeps the invariant, by cases on what happens. -/
theorem Invariant.step (inv : Invariant old s) (step : Step old s after) : Invariant old after := by
  obtain ⟨value, perm⟩ := inv.tpm2
  cases step with
  | @adds index new first before free tpm2 =>
      refine ⟨List.nodup_cons.mpr ⟨free, inv.distinct⟩,
        List.forall_mem_cons.mpr ⟨⟨index, rfl⟩, inv.canonical⟩, ⟨value, ?_⟩, ?_⟩
      · rw [List.filter_cons_of_pos (by simpa using tpm2)]
        have others : s.added = s.others := by simp [added, first]
        rw [others] at perm
        exact (perm.cons _).trans List.perm_middle.symm
      · rintro token ⟨⟩ same
        obtain rfl : index = old := same
        exact free (inv.old_mem before)
  | wipes before =>
      refine ⟨inv.distinct.sublist (List.filter_sublist.map _),
        fun entry member => inv.canonical entry (List.mem_of_mem_filter member), ⟨value, ?_⟩, inv.own⟩
      have kept := perm.filter fun entry => decide (entry.1 ≠ key old)
      rw [before] at kept
      have gone : (([(key old, value)] ++ s.added.map fun token => (key token.1, token.2)).filter
            fun entry => decide (entry.1 ≠ key old))
          = s.added.map fun token => (key token.1, token.2) := by
        rw [List.singleton_append, List.filter_cons_of_neg (by simp), List.filter_eq_self]
        intro entry member
        obtain ⟨token, inside, rfl⟩ := List.mem_map.mp member
        simpa using fun same => inv.ne_old before inside (key_injective same)
      simp only [Bool.false_eq_true, if_false, gone] at kept
      rw [List.filter_comm]
      simpa [added] using kept
  | @intrudes index new free tpm2 =>
      refine ⟨List.nodup_cons.mpr ⟨free, inv.distinct⟩,
        List.forall_mem_cons.mpr ⟨⟨index, rfl⟩, inv.canonical⟩, ⟨value, ?_⟩, inv.own⟩
      rw [List.filter_cons_of_pos (by simpa using tpm2)]
      refine (perm.cons _).trans ?_
      simp only [added, List.map_append, List.map_cons]
      rw [← List.append_assoc, ← List.append_assoc]
      exact List.perm_middle.symm

/-- The invariant holds of everything that can come of a header, by induction on the steps. -/
theorem Invariant.reached (inv : Invariant old s) (steps : Relation.ReflTransGen (Step old) s after)
    : Invariant old after := by
  induction steps with
  | refl => exact inv
  | tail _ step ih => exact ih.step step

-----------------------------------------------------------------------------------------
-- Reading the header back
-----------------------------------------------------------------------------------------

/-- The token that an added one is read as. -/
def ReadsAs (token : UInt32 × Value) (read : Tpm2Token) : Prop :=
  read.index = token.1 ∧ Token.token token.1 token.2 = .ok read

/-- What is read has the indices of what was added, by induction on it. -/
theorem indices_eq {tokens : List (UInt32 × Value)} {listed : List Tpm2Token}
    (related : List.Forall₂ ReadsAs tokens listed)
    : listed.map Tpm2Token.index = tokens.map Prod.fst := by
  induction related with
  | nil => rfl
  | cons first _ ih => rw [List.map_cons, List.map_cons, first.1, ih]

/-- No two tokens are added at one index that is not the old one. -/
theorem Invariant.fresh_nodup (inv : Invariant old s) : ((s.fresh old).map Prod.fst).Nodup := by
  obtain ⟨value, perm⟩ := inv.tpm2
  have keys : ((s.entries.filter fun entry => Token.isTpm2 entry.2).map Prod.fst).Nodup :=
    inv.distinct.sublist (List.filter_sublist.map _)
  rw [(perm.map Prod.fst).nodup_iff, List.map_append, List.map_map] at keys
  have distinct : ((s.added.map Prod.fst).map key).Nodup := by
    rw [List.map_map]
    exact (List.nodup_append.mp keys).2.1
  exact (List.Nodup.of_map key distinct).sublist (List.filter_sublist.map _)

/-- The systemd-tpm2 tokens at other keys than the old one are those added there. -/
theorem Invariant.fresh_perm (inv : Invariant old s)
    : ((s.entries.filter fun entry => Token.isTpm2 entry.2).filter
          fun entry => decide (entry.1 ≠ key old)).Perm
        ((s.fresh old).map fun token => (key token.1, token.2)) := by
  obtain ⟨value, perm⟩ := inv.tpm2
  refine (perm.filter _).trans (List.Perm.of_eq ?_)
  have first : (if s.wiped then [] else [(key old, value)]).filter
      (fun entry => decide (entry.1 ≠ key old)) = [] := by
    split_ifs <;> simp
  rw [List.filter_append, first, List.nil_append, List.filter_map, fresh]
  congr 1
  refine List.filter_congr fun token _ => ?_
  simp only [Function.comp_apply, decide_eq_decide]
  exact not_congr ⟨key_injective, congrArg key⟩

/-- Of the tokens that are read, those at other indices than the old one are those added there. -/
theorem Invariant.read (inv : Invariant old s) {root : Value} {tokens : List Tpm2Token}
    (header : (Token.members root).Perm s.entries) (parsed : Token.ofHeader root = .ok tokens)
    : ∃ listed, List.Forall₂ ReadsAs (s.fresh old) listed
        ∧ (tokens.filter fun token => some token.index ≠ some old).Perm listed := by
  obtain ⟨order, reads, sorted⟩ := Token.ofHeader_ok.mp parsed
  have perm : tokens.Perm order := sorted ▸ List.perm_insertionSort _ order
  -- The index that is read is the one a key is written for.
  have sorts : ∀ member token,
      member ∈ (Token.members root).filter (fun entry => Token.isTpm2 entry.2)
        ∧ Token.ReadAs member token
      → (decide (member.1 ≠ key old) = true
        ↔ decide (some token.index ≠ some old) = true) := by
    rintro member token ⟨inside, parsed, _⟩
    obtain ⟨index, keyed⟩ :=
      inv.canonical member (header.mem_iff.mp (List.mem_of_mem_filter inside))
    have at_index : index = token.index := by
      rw [keyed, key, Text.parseU32_toString] at parsed
      exact Option.some.inj parsed
    rw [keyed, at_index]
    simp only [decide_eq_true_eq, ne_eq, Option.some.injEq]
    exact not_congr ⟨key_injective, congrArg key⟩
  have both := (List.forall₂_and_left _ _).mpr ⟨fun _ inside => inside, reads⟩
  have apart := List.rel_filter (fun {member token} related => sorts member token related) both
  have entries := ((header.filter fun entry => Token.isTpm2 entry.2).filter
    fun entry => decide (entry.1 ≠ key old)).symm
  obtain ⟨listed, related, same⟩ :=
    List.perm_comp_forall₂ (inv.fresh_perm.symm.trans entries) apart
  refine ⟨listed, ?_, (perm.filter _).trans same.symm⟩
  rw [List.forall₂_map_left_iff] at related
  refine related.imp fun token read ⟨_, parsed, held⟩ => ?_
  rw [key, Text.parseU32_toString] at parsed
  have index := Option.some.inj parsed
  exact ⟨index.symm, index ▸ held⟩

/-- A token is returned exactly when it is the sole one that is not at the old index, by what is
left when that is taken out.
-/
theorem findNewToken_eq_some {tokens : List Tpm2Token} {read : Tpm2Token}
    (distinct : ((tokens.filter fun token => some token.index ≠ some old).map
      Tpm2Token.index).Nodup)
    : Enroll.findNewToken tokens (some old) = some read
      ↔ read ∈ tokens ∧ read.index ≠ old ∧ ∀ other ∈ tokens, other.index ≠ old → other = read := by
  have members (token : Tpm2Token)
      : token ∈ (tokens.filter fun token => some token.index ≠ some old)
        ↔ token ∈ tokens ∧ token.index ≠ old := by
    simp
  rw [Enroll.findNewToken]
  generalize tokens.filter (fun token => some token.index ≠ some old) = left at distinct members
  constructor
  · intro found
    split at found
    next first =>
      obtain rfl := Option.some.inj found
      obtain ⟨member, apart⟩ := (members first).mp List.mem_cons_self
      refine ⟨member, apart, fun other inside elsewhere => ?_⟩
      exact List.mem_singleton.mp ((members other).mpr ⟨inside, elsewhere⟩)
    next => cases found
  · rintro ⟨member, apart, sole⟩
    have only : ∀ token ∈ left, token = read := by
      intro token inside
      obtain ⟨held, elsewhere⟩ := (members token).mp inside
      exact sole token held elsewhere
    have inside : read ∈ left := (members read).mpr ⟨member, apart⟩
    cases left with
    | nil => cases inside
    | cons first rest =>
        cases rest with
        | nil => rw [only first List.mem_cons_self]
        | cons second rest =>
            have same : first = second :=
              (only first (by simp)).trans (only second (by simp)).symm
            simp [same] at distinct

/-- The new token is identified or declined. It is the sole one that is not at the old index, so
the run's own whenever that was added and nobody added another elsewhere than at the old index; none
when nothing or more than one was added elsewhere than there; and never the old binding.
-/
theorem new_token {start : Progress} {fromStr : Json.Reader} {json : String} {root : Value}
    {tokens : List Tpm2Token} (initial : Initial old start)
    (steps : Relation.ReflTransGen (Step old) start s) (reads : fromStr json = .ok root)
    (header : (Token.members root).Perm s.entries)
    (parsed : Token.parse fromStr json = .ok tokens)
    : (∀ read, Enroll.findNewToken tokens (some old) = some read
        ↔ read ∈ tokens ∧ read.index ≠ old
          ∧ ∀ other ∈ tokens, other.index ≠ old → other = read)
      ∧ (∀ own, s.own = some own → (∀ other ∈ s.others, other.1 = old)
        → ∃ read, Enroll.findNewToken tokens (some old) = some read ∧ ReadsAs own read)
      ∧ (Enroll.findNewToken tokens (some old) = none ↔ (s.fresh old).length ≠ 1) := by
  have inv := initial.invariant.reached steps
  rw [Token.parse, reads] at parsed
  obtain ⟨listed, related, perm⟩ := inv.read header parsed
  have distinct : ((tokens.filter fun token => some token.index ≠ some old).map
      Tpm2Token.index).Nodup := by
    rw [(perm.map _).nodup_iff, indices_eq related]
    exact inv.fresh_nodup
  refine ⟨fun read => findNewToken_eq_some distinct, ?_, ?_⟩
  · intro own present elsewhere
    have alone : s.fresh old = [own] := by
      have none : s.others.filter (fun token => token.1 ≠ old) = [] := by
        simpa using elsewhere
      rw [fresh, added, present, List.filter_append, none]
      simp [inv.own own present]
    rw [alone] at related
    obtain ⟨read, rest, here, nothing, rfl⟩ := List.forall₂_cons_left_iff.mp related
    rw [List.forall₂_nil_left_iff.mp nothing] at perm
    refine ⟨read, ?_, here⟩
    rw [Enroll.findNewToken, List.perm_singleton.mp perm]
  · rw [related.length_eq, ← perm.length_eq, Enroll.findNewToken]
    cases tokens.filter fun token => some token.index ≠ some old with
    | nil => simp
    | cons first rest => cases rest <;> simp

section Examples

private def plain : Value :=
  .object [("tpm2-policy-hash", .string "00"), ("type", .string "systemd-tpm2")]

private def beginning : Progress := ⟨[("0", plain)], false, none, []⟩

private def both : Progress := ⟨[("1", plain), ("0", plain)], false, some (1, plain), []⟩

private def header (entries : Json.Map) : Value := .object [("tokens", .object entries)]

private theorem beginning_initial : Initial 0 beginning where
  distinct := by decide +kernel
  canonical := by
    intro entry member
    exact ⟨0, by rw [List.mem_singleton.mp member]; decide +kernel⟩
  sole := ⟨plain, rfl⟩
  wiped := rfl
  own := rfl
  others := rfl

private theorem adds_both : Relation.ReflTransGen (Step 0) beginning both :=
  have adds : Step 0 beginning { beginning with
      entries := (key 1, plain) :: beginning.entries
      own := some (1, plain) } :=
    .adds rfl rfl (by decide +kernel) (by decide +kernel)
  .single adds

/-- The run's own token beside the old one. -/
theorem new_token_beside
    : Enroll.findNewToken [⟨0, [], none, [0], false, none⟩, ⟨1, [], none, [0], false, none⟩] (some 0)
      = some ⟨1, [], none, [0], false, none⟩ := by
  have reads : (fun _ => .ok (header both.entries) : Json.Reader) "" = .ok (header both.entries) :=
    rfl
  have parsed : Token.parse (fun _ => .ok (header both.entries)) ""
      = .ok [⟨0, [], none, [0], false, none⟩, ⟨1, [], none, [0], false, none⟩] := by decide +kernel
  have found := (new_token beginning_initial adds_both reads (.refl _) parsed).1
  refine (found _).mpr ⟨by simp, by decide, ?_⟩
  intro other member elsewhere
  rcases List.mem_cons.mp member with rfl | later
  · exact absurd rfl elsewhere
  · exact List.mem_singleton.mp later

/-- The run wipes the old token and another process adds one at its index: two tokens were added,
and the run's own is returned.
-/
theorem old_index_reused
    : ∃ s, Relation.ReflTransGen (Step 0) beginning s
        ∧ s.added.length = 2
        ∧ ∃ tokens read,
            Token.parse (fun _ => .ok (header s.entries)) "" = .ok tokens
            ∧ Enroll.findNewToken tokens (some 0) = some read := by
  refine ⟨⟨[("0", plain), ("1", plain)], true, some (1, plain), [(0, plain)]⟩, ?_, rfl,
    [⟨0, [], none, [0], false, none⟩, ⟨1, [], none, [0], false, none⟩],
    ⟨1, [], none, [0], false, none⟩, by decide +kernel, by decide +kernel⟩
  refine (adds_both.tail (.wipes rfl)).tail ?_
  exact @Step.intrudes 0 _ 0 plain (by decide +kernel) (by decide +kernel)

end Examples

end Progress

end Tpm2Autoenroll.Cryptenroll
