import Mathlib.Logic.Function.Basic
import Tpm2Autoenroll.Exchanges.Commands
import Tpm2Autoenroll.Exchanges.Lockouts
import Tpm2Autoenroll.Exchanges.Rounds
import Tpm2Autoenroll.Exchanges.Unmarshalling

/-! The daemon in conversation with a TPM that does what the commands say: each side reads from
the bytes on the wire what the other one wrote, and the daemon learns what the TPM holds.
-/

namespace Tpm2Autoenroll.Tpm2

open Interaction Prog
open Text (Bytes)

-----------------------------------------------------------------------------------------
-- The TPM
-----------------------------------------------------------------------------------------

/-- A digest, no longer than the longest hash. -/
abbrev Digest := { bytes : Bytes // bytes.length ≤ 64 }

/-- What a TPM holds: its registers, its fixed properties, and its open sessions with their policy
digests.
-/
structure Chip where
  register : UInt16 → UInt8 → Digest
  property : UInt32 → Option UInt32
  session : UInt32 → Option Digest

/-- How PolicyPCR extends a policy digest by the registers of a bank and their values. -/
abbrev Extend := Digest → UInt16 → List (UInt8 × Digest) → Digest

/-- The properties of a query in order, as many as fit an answer. -/
def inOrder (property count : UInt32) : List UInt32 :=
  (List.range (min count.toNat 127)).map fun offset => property + UInt32.ofNat offset

namespace Chip

/-- The registers with their values. -/
def values (chip : Chip) (bank : UInt16) (pcrs : List UInt8) : List (UInt8 × Digest) :=
  pcrs.map fun pcr => (pcr, chip.register bank pcr)

/-- The properties of a query that there are, with their values. -/
def properties (chip : Chip) (property count : UInt32) : List Property :=
  (inOrder property count).filterMap fun reported =>
    (chip.property reported).map fun value => (reported, value)

/-- The digest of a session that has just been opened. -/
def fresh : Digest := ⟨List.replicate 32 0, by decide⟩

def put (chip : Chip) (handle : UInt32) (digest : Option Digest) : Chip :=
  { chip with session := Function.update chip.session handle digest }

@[simp]
theorem put_register (chip : Chip) (handle : UInt32) (digest : Option Digest)
    : (chip.put handle digest).register = chip.register :=
  rfl

@[simp]
theorem put_session (chip : Chip) (handle : UInt32) (digest : Option Digest)
    : (chip.put handle digest).session handle = digest := by
  simp [put]

@[simp]
theorem put_put (chip : Chip) (handle : UInt32) (first second : Option Digest)
    : (chip.put handle first).put handle second = chip.put handle second := by
  simp only [put, Function.update_idem]

/-- What is put back as it was makes no difference. -/
theorem put_same {chip : Chip} {handle : UInt32} {digest : Option Digest}
    (same : chip.session handle = digest)
    : chip.put handle digest = chip := by
  rw [← same, put, Function.update_eq_self]

end Chip

/-- What a TPM answers a command with when it executes it, and what it holds afterwards. PCR_Read
leaves out the registers whose values do not fit, but not all of them.
-/
inductive Executes (extend : Extend) (chip : Chip) : Request → Bytes → Chip → Prop
  | getCapability (property count : UInt32) (more : UInt8)
    : Executes extend chip (.getCapability capTpmProperties property count)
        (capabilityPayload more capTpmProperties
          (UInt32.ofNat (chip.properties property count).length)
          ((chip.properties property count).flatMap putProperty))
        chip
  | pcrRead {id : UInt16} {asked told : List UInt8} (bank : Bank) (same : bank.id = id)
    (part : told.Sublist asked) (some : told ≠ []) (few : told.length ≤ 8) (counter : UInt32)
    : Executes extend chip (.pcrRead id asked)
        (putU32 counter ++ putPcrSelection bank told ++ putU32 (UInt32.ofNat told.length)
          ++ (told.map fun pcr => (chip.register bank.id pcr).val).flatMap putTpm2b)
        chip
  | startTrialSession (authHash : UInt16) {handle : UInt32} (nonce : Digest)
    (free : chip.session handle = none)
    : Executes extend chip (.startTrialSession authHash) (putU32 handle ++ putTpm2b nonce.val)
        (chip.put handle (some Chip.fresh))
  | policyPcr (bank : UInt16) (pcrs : List UInt8) {session : UInt32} {digest : Digest}
    (isOpen : chip.session session = some digest)
    : Executes extend chip (.policyPcr session bank pcrs) []
        (chip.put session (some (extend digest bank (chip.values bank pcrs))))
  | policyGetDigest {session : UInt32} {digest : Digest} (isOpen : chip.session session = some digest)
    : Executes extend chip (.policyGetDigest session) (putTpm2b digest.val) chip
  | flushContext {handle : UInt32} {digest : Digest} (isOpen : chip.session handle = some digest)
    : Executes extend chip (.flushContext handle) [] (chip.put handle none)

-----------------------------------------------------------------------------------------
-- The conversation
-----------------------------------------------------------------------------------------

/-- The commands that a TPM may refuse: to flush an open session it has no reason. -/
def Request.refusable : Request → Prop
  | .flushContext _ => False
  | _ => True

/-- How a TPM answers: it executes a command and says so, or, where `refusals` says that this
happens, refuses it and nothing has changed.
-/
inductive Replies (extend : Extend) (refusals : Prop) (chip : Chip) (request : Request)
    : TpmAnswer → Chip → Prop
  | executed {payload : Bytes} {after : Chip} (executes : Executes extend chip request payload after)
    : Replies extend refusals chip request (.response (response 0 payload)) after
  | refused {code : UInt32} (failed : code ≠ 0) (may : refusals) (needless : request.refusable)
    : Replies extend refusals chip request (.response (response code [])) chip

/-- The monitor of a conversation in which nobody else uses the TPM: every command has to be one
that the TPM understands and can execute.
-/
def talking (extend : Extend) (refusals : Prop) : Monitor Res Chip where
  allows chip op :=
    match op with
    | .tpm _ cmd =>
        ∃ request payload after, understand cmd = some request
          ∧ Executes extend chip request payload after
    | _ => True
  step chip event after :=
    match event with
    | ⟨.tpm _ cmd, answer⟩ =>
        ∃ request, understand cmd = some request ∧ Replies extend refusals chip request answer after
    | _ => after = chip

-----------------------------------------------------------------------------------------
-- One command
-----------------------------------------------------------------------------------------

variable {extend : Extend} {refusals : Prop} {tpm : Tpm} {bank : Bank} {chip : Chip}

theorem length_digest (digest : Digest) : (putTpm2b digest.val).length ≤ 66 := by
  have short := digest.property
  simp only [putTpm2b, putU16, List.cons_append, List.nil_append, List.length_cons]
  omega

theorem Chip.length_properties (chip : Chip) (property count : UInt32)
    : (chip.properties property count).length ≤ 127 := by
  have kept := List.length_filterMap_le
    (fun reported => (chip.property reported).map fun value => (reported, value))
    (inOrder property count)
  rw [inOrder, List.length_map, List.length_range] at kept
  exact kept.trans (Nat.min_le_right _ _)

/-- What a TPM answers fits a response. -/
theorem Executes.room {chip after : Chip} {request : Request} {payload : Bytes}
    (executes : Executes extend chip request payload after)
    : 10 + payload.length < 2 ^ 32 := by
  cases executes with
  | getCapability property count more =>
      have few := chip.length_properties property count
      simp only [capabilityPayload, putU32, List.cons_append, List.nil_append, List.length_cons,
        length_putProperties]
      omega
  | @pcrRead id asked told bank same part some few counter =>
      have short : ((told.map fun pcr => (chip.register bank.id pcr).val).flatMap putTpm2b).length
          ≤ told.length * 65537 := by
        have bound := @length_putTpm2b (told.map fun pcr => (chip.register bank.id pcr).val) ?_
        · rwa [List.length_map] at bound
        · intro digest member
          obtain ⟨pcr, _, rfl⟩ := List.mem_map.mp member
          have := (chip.register bank.id pcr).property
          omega
      rw [List.length_append, List.length_append, List.length_append, length_putPcrSelection]
      simp only [putU32, List.length_cons, List.length_nil]
      omega
  | startTrialSession authHash nonce =>
      have short := length_digest nonce
      rw [List.length_append]
      simp only [putU32, List.length_cons, List.length_nil]
      omega
  | @policyGetDigest session digest isOpen =>
      have short := length_digest digest
      omega
  | policyPcr | flushContext => decide

/-- The rule of one command in a conversation. -/
theorem transact_talking {cc : UInt32} {body : Bytes} {request : Request}
    {post : Except String Bytes → Chip → Prop}
    (understood : understand (command cc body) = some request)
    (can : ∃ payload after, Executes extend chip request payload after)
    (executed : ∀ payload after, Executes extend chip request payload after
      → post (.ok payload) after)
    (refused : refusals → request.refusable → ∀ e, post (.error e) chip)
    : wp (talking extend refusals) (tpm.transact cc body).run post chip := by
  obtain ⟨payload, after, executes⟩ := can
  refine Tpm.transact_wp ⟨request, payload, after, understood, executes⟩ ?_
  intro answer result after step same
  obtain ⟨other, read, replies⟩ := step
  obtain rfl : request = other := Option.some.inj (understood.symm.trans read)
  cases replies with
  | executed executes =>
      rw [TpmAnswer.payload_response, responsePayload_response executes.room,
        if_neg (not_not.mpr rfl)] at same
      cases result with
      | error e => cases same
      | ok payload =>
          cases same
          exact executed _ _ executes
  | refused failed may needless =>
      rw [TpmAnswer.payload_response, responsePayload_response (by decide), if_pos failed] at same
      cases result with
      | error e => exact refused may needless e
      | ok payload => cases same

/-- The value is learned, unless the TPM refused something, and nothing has changed. -/
def Learned {α : Type} (refusals : Prop) (value : α) (chip : Chip) (result : Except String α)
    (after : Chip) : Prop :=
  after = chip ∧ (result = .ok value ∨ refusals ∧ ∃ e, result = .error e)

-----------------------------------------------------------------------------------------
-- Policy digests
-----------------------------------------------------------------------------------------

theorem parseDigest_digest (digest : Digest) : parseDigest (putTpm2b digest.val) = .ok digest.val := by
  have short := digest.property
  have small : (putTpm2b digest.val).length < 2 ^ 64 := by
    have := length_digest digest
    omega
  obtain ⟨after, run, _⟩ := readTpm2b_reads (show digest.val.length < 65536 by omega)
    (.new (putTpm2b digest.val)) [] small (List.append_nil _).symm
  rw [parseDigest, run]
  rfl

/-- A session is opened that was not open. -/
theorem startTrialSession_talks (free : ∃ handle, chip.session handle = none)
    : wp (talking extend refusals) tpm.startTrialSession.run
        (fun result after =>
          match result with
          | .ok handle => chip.session handle = none ∧ after = chip.put handle (some Chip.fresh)
          | .error _ => after = chip ∧ refusals)
        chip := by
  obtain ⟨unused, closed⟩ := free
  refine Fallible.wp_bind.mpr
    (transact_talking understand_startTrialSession ⟨_, _, .startTrialSession _ Chip.fresh closed⟩ ?_ ?_)
  · intro payload after executes
    cases executes with
    | @startTrialSession authHash handle nonce free =>
        have small : (putU32 handle ++ putTpm2b nonce.val).length < 2 ^ 64 := by
          have short := length_digest nonce
          rw [List.length_append]
          simp only [putU32, List.length_cons, List.length_nil]
          omega
        show wp _ (ofResult (parseHandle _)).run _ _
        rw [parseHandle_payload small]
        exact ⟨free, rfl⟩
  · intro may _ e
    exact ⟨rfl, may⟩

/-- The session gets the digest of the current values, which is read from it. -/
theorem buildPolicy_talks {session : UInt32} {indices : List UInt8} {digest : Digest}
    (inRange : ∀ pcr ∈ indices, pcr ≤ 23) (isOpen : chip.session session = some digest)
    : wp (talking extend refusals) (tpm.buildPolicy session bank indices).run
        (fun result after =>
          (∃ current, after = chip.put session (some current))
          ∧ (result = .ok (extend digest bank.id
                (chip.values bank.id (Sorting.sortDedup indices))).val
            ∨ refusals ∧ ∃ e, result = .error e))
        chip := by
  refine Fallible.wp_bind.mpr (transact_talking (understand_policyPcr inRange)
    ⟨_, _, .policyPcr _ _ isOpen⟩ ?_ ?_)
  · intro payload after executes
    cases executes with
    | @policyPcr _ _ _ before opened =>
        obtain rfl : digest = before := Option.some.inj (isOpen.symm.trans opened)
        refine Fallible.wp_bind.mpr (transact_talking understand_policyGetDigest
          ⟨_, _, .policyGetDigest (Chip.put_session _ _ _)⟩ ?_ ?_)
        · intro payload after executes
          cases executes with
          | @policyGetDigest _ current opened =>
              rw [Chip.put_session] at opened
              obtain rfl := Option.some.inj opened
              show wp _ (ofResult (parseDigest _)).run _ _
              rw [parseDigest_digest]
              exact ⟨⟨_, rfl⟩, Or.inl rfl⟩
        · intro may _ e
          exact ⟨⟨_, rfl⟩, Or.inr ⟨may, e, rfl⟩⟩
  · intro may _ e
    exact ⟨⟨digest, (Chip.put_same isOpen).symm⟩, Or.inr ⟨may, e, rfl⟩⟩

/-- The session is closed. -/
theorem flush_talks {handle : UInt32} {digest : Digest} (isOpen : chip.session handle = some digest)
    : wp (talking extend refusals) (tpm.flush handle).run
        (fun result after => result = .ok () ∧ after = chip.put handle none) chip := by
  refine Fallible.wp_bind.mpr (transact_talking understand_flush ⟨_, _, .flushContext isOpen⟩ ?_ ?_)
  · intro payload after executes
    cases executes with
    | flushContext => exact ⟨rfl, rfl⟩
  · intro _ needless
    exact needless.elim

/-- What is asked for is the digest of the policy over the current values, and the sessions are
left as they were.
-/
theorem pcrPolicyDigest_talks {indices : List UInt8} (inRange : ∀ pcr ∈ indices, pcr ≤ 23)
    (free : ∃ handle, chip.session handle = none)
    : wp (talking extend refusals) (tpm.pcrPolicyDigest bank indices).run
        (Learned refusals
          (extend Chip.fresh bank.id (chip.values bank.id (Sorting.sortDedup indices))).val chip)
        chip := by
  refine Fallible.wp_bind.mpr (wp_mono (startTrialSession_talks free) ?_)
  intro started middle outcome
  cases started with
  | error e => exact ⟨outcome.1, Or.inr ⟨outcome.2, e, rfl⟩⟩
  | ok handle =>
      obtain ⟨closed, rfl⟩ := outcome
      have isOpen := Chip.put_session chip handle (some Chip.fresh)
      refine Fallible.wp_bind.mpr
        (Fallible.wp_lift.mpr (wp_mono (buildPolicy_talks inRange isOpen) ?_))
      intro result after facts
      obtain ⟨⟨current, rfl⟩, learned⟩ := facts
      refine Fallible.wp_bind.mpr (Fallible.wp_lift.mpr (wp_mono (flush_talks (Chip.put_session _ _ _)) ?_))
      intro released after facts
      obtain ⟨rfl, rfl⟩ := facts
      have same : ((chip.put handle (some Chip.fresh)).put handle (some current)).put handle none
          = chip := by
        rw [Chip.put_put, Chip.put_put, Chip.put_same closed]
      exact ⟨same, learned⟩

-----------------------------------------------------------------------------------------
-- Registers
-----------------------------------------------------------------------------------------

/-- A bank is known by its algorithm. -/
theorem Bank.id_injective : Function.Injective Bank.id := by
  intro first second same
  cases first
  cases second
  cases same
  rfl

/-- The registers with their values as the daemon has them. -/
def Chip.readings (chip : Chip) (bank : UInt16) (pcrs : List UInt8) : List (UInt8 × Bytes) :=
  pcrs.map fun pcr => (pcr, (chip.register bank pcr).val)

/-- What is read of an answer to PCR_Read. -/
theorem parsePcrRead_told {chip : Chip} {told : List UInt8} {counter : UInt32}
    (ascending : told.Pairwise (· < ·)) (inRange : ∀ pcr ∈ told, pcr ≤ 23)
    (few : told.length ≤ 8)
    : parsePcrRead (putU32 counter ++ putPcrSelection bank told
          ++ putU32 (UInt32.ofNat told.length)
          ++ (told.map fun pcr => (chip.register bank.id pcr).val).flatMap putTpm2b)
        = .ok (told, told.map fun pcr => (chip.register bank.id pcr).val) := by
  obtain ⟨⟨first, second, third⟩, made⟩ : ∃ bitmap, told.foldl setPcrBit (0, 0, 0) = bitmap :=
    ⟨_, rfl⟩
  obtain ⟨within, sorted⟩ := setPositions_foldl inRange made
  have short : ∀ digest ∈ told.map (fun pcr => (chip.register bank.id pcr).val),
      digest.length < 65536 := by
    intro digest member
    obtain ⟨pcr, _, rfl⟩ := List.mem_map.mp member
    have := (chip.register bank.id pcr).property
    omega
  have written : putU32 counter ++ putPcrSelection bank told
        ++ putU32 (UInt32.ofNat told.length)
        ++ (told.map fun pcr => (chip.register bank.id pcr).val).flatMap putTpm2b
      = pcrReadPayload counter bank.id [first, second, third]
          (told.map fun pcr => (chip.register bank.id pcr).val) := by
    simp only [pcrReadPayload, putPcrSelection, made, List.append_assoc, List.length_map]
    rfl
  rw [written, parsePcrRead_payload (by simp) (by rw [List.length_map]; omega) short within, sorted,
    Sorting.sortDedup_of_ascending ascending]

/-- Ascending registers do not repeat, by induction on them. -/
theorem repeats_ascending {told : List UInt8} (ascending : told.Pairwise (· < ·))
    : repeats told = false := by
  induction told with
  | nil => rfl
  | cons first rest ih =>
      cases rest with
      | nil => rfl
      | cons second others =>
          obtain ⟨above, later⟩ := List.pairwise_cons.mp ascending
          have below : first < second := above second List.mem_cons_self
          have apart : (first == second) = false :=
            beq_eq_false_iff_ne.mpr fun same => absurd (same ▸ below) (UInt8.lt_irrefl second)
          rw [repeats, apart, Bool.false_or]
          exact ih later

/-- A round that tells some of what is outstanding is taken. -/
theorem absorb_told {outstanding told : List UInt8} {out : List (UInt8 × Bytes)}
    {digests : List Bytes} (ascending : told.Pairwise (· < ·)) (part : told.Sublist outstanding)
    (some : told ≠ []) (even : digests.length = told.length)
    : absorb outstanding out (told, digests)
      = .ok (outstanding.filter (fun pcr => !told.contains pcr), out ++ told.zip digests) := by
  have known : told.find? (fun pcr => !outstanding.contains pcr) = none := by
    refine List.find?_eq_none.mpr fun pcr member => ?_
    simpa using part.mem member
  simp only [absorb, repeats_ascending ascending, known]
  rw [if_neg (not_or.mpr ⟨some, not_not.mpr even⟩)]
  rfl

/-- What comes of a round in which a TPM tells some of what is outstanding. -/
theorem round_told {outstanding told : List UInt8} {out : List (UInt8 × Bytes)}
    {counter : UInt32} (ascending : outstanding.Pairwise (· < ·))
    (inRange : ∀ pcr ∈ outstanding, pcr ≤ 23) (part : told.Sublist outstanding) (some : told ≠ [])
    (few : told.length ≤ 8)
    : ((parsePcrRead (putU32 counter ++ putPcrSelection bank told
            ++ putU32 (UInt32.ofNat told.length)
            ++ (told.map fun pcr => (chip.register bank.id pcr).val).flatMap putTpm2b)).bind
          fun round => absorb outstanding out round)
        = .ok (outstanding.filter (fun pcr => !told.contains pcr),
            out ++ chip.readings bank.id told) := by
  have toldAscending := ascending.sublist part
  have values : told.zip (told.map fun pcr => (chip.register bank.id pcr).val)
      = chip.readings bank.id told := by
    have zipped := @List.zip_map' _ _ _ id (fun pcr => (chip.register bank.id pcr).val) told
    rwa [List.map_id] at zipped
  rw [parsePcrRead_told toldAscending (fun pcr member => inRange pcr (part.mem member)) few]
  refine (absorb_told toldAscending part some (List.length_map _)).trans ?_
  rw [values]

/-- The rounds gather the values of what is outstanding, by induction on them. -/
theorem readPcrRounds_talks {rounds : Nat} {outstanding : List UInt8}
    {out : List (UInt8 × Bytes)} (enough : outstanding.length ≤ rounds)
    (ascending : outstanding.Pairwise (· < ·)) (inRange : ∀ pcr ∈ outstanding, pcr ≤ 23)
    : wp (talking extend refusals) (tpm.readPcrRounds bank rounds outstanding out).run
        (fun result after =>
          after = chip
          ∧ ((∃ gathered, result = .ok (out ++ gathered)
                ∧ gathered.Perm (chip.readings bank.id outstanding))
            ∨ refusals ∧ ∃ e, result = .error e))
        chip := by
  induction rounds generalizing outstanding out with
  | zero =>
      obtain rfl := List.eq_nil_of_length_eq_zero (Nat.le_zero.mp enough)
      exact ⟨rfl, Or.inl ⟨[], congrArg Except.ok (List.append_nil out).symm, .nil⟩⟩
  | succ rounds ih =>
      cases outstanding with
      | nil => exact ⟨rfl, Or.inl ⟨[], congrArg Except.ok (List.append_nil out).symm, .nil⟩⟩
      | cons pcr more =>
          have first : [pcr].Sublist (Sorting.sortDedup (pcr :: more)) :=
            List.singleton_sublist.mpr (Sorting.mem_sortDedup.mpr List.mem_cons_self)
          have possible := @Executes.pcrRead extend chip _ _ _ bank rfl first (List.cons_ne_nil _ _)
            (by simp) 0
          refine Fallible.wp_bind.mpr
            (transact_talking (understand_pcrRead inRange) ⟨_, _, possible⟩ ?_ ?_)
          · intro payload after executes
            rw [Sorting.sortDedup_of_ascending ascending] at executes
            cases executes with
            | @pcrRead _ _ told other same part some few counter =>
                obtain rfl : other = bank := Bank.id_injective same
                have judged := @round_told other chip _ told out counter ascending inRange part
                  some few
                have taken := @absorb_told _ told out
                  (told.map fun pcr => (chip.register other.id pcr).val)
                  (ascending.sublist part) part some (List.length_map _)
                refine Fallible.wp_bind.mpr ?_
                rw [judged]
                show wp _ (tpm.readPcrRounds other rounds _ _).run _ chip
                refine wp_mono (ih ?_ (ascending.filter _) ?_) fun result after facts => ?_
                · exact Nat.le_of_lt_succ ((absorb_length taken).trans_le enough)
                · exact fun pcr member => inRange pcr (List.mem_of_mem_filter member)
                · obtain ⟨unchanged, ⟨gathered, rfl, perm⟩ | failed⟩ := facts
                  · refine ⟨unchanged, Or.inl ⟨_, congrArg Except.ok (List.append_assoc _ _ _), ?_⟩⟩
                    have all := perm_remaining (Sorting.nodup_of_ascending ascending)
                      (Sorting.nodup_of_ascending (ascending.sublist part)) fun pcr => part.mem
                    refine (perm.append_left _).trans ?_
                    rw [Chip.readings, Chip.readings, ← List.map_append]
                    exact all.map _
                  · exact ⟨unchanged, Or.inr failed⟩
          · intro may _ e
            exact ⟨rfl, Or.inr ⟨may, e, rfl⟩⟩

/-- The registers that are asked for are read, in order and with their values. -/
theorem readPcrs_talks {indices : List UInt8} (inRange : ∀ pcr ∈ indices, pcr ≤ 23)
    : wp (talking extend refusals) (tpm.readPcrs bank indices).run
        (Learned refusals (chip.readings bank.id (Sorting.sortDedup indices)) chip) chip := by
  have ascending := Sorting.sortDedup_ascending indices
  refine Fallible.wp_bind.mpr (wp_mono (readPcrRounds_talks le_rfl ascending ?_) ?_)
  · exact fun pcr member => inRange pcr (Sorting.mem_sortDedup.mp member)
  · intro result after facts
    obtain ⟨unchanged, ⟨gathered, rfl, perm⟩ | ⟨may, e, rfl⟩⟩ := facts
    · refine ⟨unchanged, Or.inl (congrArg Except.ok ?_)⟩
      rw [List.nil_append]
      have keys : (chip.readings bank.id (Sorting.sortDedup indices)).map Prod.fst
          = Sorting.sortDedup indices := by
        rw [Chip.readings, List.map_map]
        exact List.map_id _
      have distinct : (gathered.map Prod.fst).Nodup := by
        refine (perm.map Prod.fst).nodup_iff.mpr ?_
        show ((chip.readings bank.id (Sorting.sortDedup indices)).map Prod.fst).Nodup
        rw [keys]
        exact Sorting.nodup_of_ascending ascending
      have sorted := List.perm_insertionSort (fun a b : UInt8 × Bytes => a.1 ≤ b.1) gathered
      refine (sorted.trans perm).eq_of_pairwise ?_ (Sorting.ascending_insertionSort distinct) ?_
      · intro a b _ _ below above
        exact absurd (UInt8.lt_trans below above) (UInt8.lt_irrefl _)
      · rw [← keys] at ascending
        exact List.pairwise_map.mp ascending
    · exact ⟨unchanged, Or.inr ⟨may, e, rfl⟩⟩

-----------------------------------------------------------------------------------------
-- The lockout
-----------------------------------------------------------------------------------------

/-- The dictionary-attack state that a TPM holds. -/
def Chip.lockout (chip : Chip) (permanent : UInt32) : Lockout where
  inLockout := permanent.toNat.testBit 9
  counter := (chip.property ptLockoutCounter).getD 0
  maxAuthFail := (chip.property ptMaxAuthFail).getD 0

/-- What is told of a property is its value, by induction on those that are asked for. -/
theorem lastValue_filterMap {chip : Chip} {property : UInt32} {asked : List UInt32}
    : lastValue property (asked.filterMap fun reported =>
          (chip.property reported).map fun value => (reported, value))
        = if property ∈ asked then chip.property property else none := by
  induction asked with
  | nil => rfl
  | cons reported rest ih =>
      cases held : chip.property reported with
      | none =>
          rw [List.filterMap_cons_none (by rw [held]; rfl), ih]
          by_cases same : property = reported
          · rw [same, held, ite_self, ite_self]
          · simp [same]
      | some value =>
          rw [List.filterMap_cons_some (by rw [held]; rfl), lastValue_cons, ih]
          by_cases same : reported = property
          · subst same
            by_cases later : reported ∈ rest <;> simp [held, later]
          · have other : property ≠ reported := fun equal => same equal.symm
            simp [same, other]

/-- The properties of the lockout query are told with their values. -/
theorem lastValue_properties {chip : Chip} {property : UInt32}
    (among : property ∈ inOrder ptPermanent (ptMaxAuthFail - ptPermanent + 1))
    : lastValue property (chip.properties ptPermanent (ptMaxAuthFail - ptPermanent + 1))
      = chip.property property := by
  rw [Chip.properties, lastValue_filterMap, if_pos among]

/-- The lockout state that the TPM holds is the one that is read. -/
theorem lockout_talks {permanent : UInt32} (reports : chip.property ptPermanent = some permanent)
    : wp (talking extend refusals) tpm.lockout.run
        (Learned refusals (chip.lockout permanent) chip) chip := by
  refine Fallible.wp_bind.mpr (transact_talking understand_lockout
    ⟨_, _, .getCapability _ _ 0⟩ ?_ ?_)
  · intro payload after executes
    cases executes with
    | getCapability property count more =>
        have few := chip.length_properties ptPermanent (ptMaxAuthFail - ptPermanent + 1)
        have counted : (UInt32.ofNat (chip.properties ptPermanent
            (ptMaxAuthFail - ptPermanent + 1)).length).toNat
            = (chip.properties ptPermanent (ptMaxAuthFail - ptPermanent + 1)).length := by
          rw [UInt32.toNat_ofNat']
          omega
        have parsed : parseProperties (capabilityPayload more capTpmProperties
              (UInt32.ofNat (chip.properties ptPermanent
                (ptMaxAuthFail - ptPermanent + 1)).length)
              ((chip.properties ptPermanent (ptMaxAuthFail - ptPermanent + 1)).flatMap
                putProperty))
            = .ok (chip.lockout permanent) := by
          have accepted := (@parseProperties_pairs more _ _ [] (chip.lockout permanent)
            (Or.inr counted.le)).mpr
          rw [List.append_nil] at accepted
          refine accepted ⟨counted.le, permanent, ?_, ?_⟩
          · rw [counted, List.take_length, lastValue_properties (by decide), reports]
          · rw [counted, List.take_length, lockoutOf, lastValue_properties (by decide),
              lastValue_properties (by decide), Chip.lockout]
        show wp _ (ofResult (parseProperties _)).run _ _
        rw [parsed]
        exact ⟨rfl, Or.inl rfl⟩
  · intro may _ e
    exact ⟨rfl, Or.inr ⟨may, e, rfl⟩⟩

-----------------------------------------------------------------------------------------
-- Understanding each other
-----------------------------------------------------------------------------------------

/-- The requests of a conversation. -/
def Op.talks : Op → Prop
  | .tpm _ _ | .log _ => True
  | _ => False

/-- A TPM can answer whatever is allowed. -/
theorem talking_answers {chip : Chip} {op : Op} (talks : Op.talks op)
    (allowed : (talking extend refusals).allows chip op)
    : ∃ answer after, (talking extend refusals).step chip ⟨op, answer⟩ after := by
  cases op with
  | tpm fd cmd =>
      obtain ⟨request, payload, after, understood, executes⟩ := allowed
      exact ⟨.response (response 0 payload), after, request, understood, .executed executes⟩
  | log line => exact ⟨(), chip, rfl⟩
  | _ => exact talks.elim

/-- A TPM that extends digests by appending, with every register at zero. -/
def Chip.blank : Chip where
  register _ _ := Chip.fresh
  property reported := if reported = ptPermanent then some 0 else none
  session _ := none

end Tpm2Autoenroll.Tpm2
