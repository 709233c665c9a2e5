import Mathlib.Data.Nat.Bitwise
import Tpm2Autoenroll.Exchanges.Commands
import Tpm2Autoenroll.Serving.Footprints

/-! The TPM's dictionary-attack state, from the properties it reports in whatever order and
however often.
-/

namespace Tpm2Autoenroll

open Interaction Prog
open Text (Bytes)

namespace Tpm2

/-- A property and its value. -/
abbrev Property := UInt32 × UInt32

def putProperty (pair : Property) : Bytes := putU32 pair.1 ++ putU32 pair.2

/-- The body of a TPM2_GetCapability response that declares `count` properties. -/
def capabilityPayload (more : UInt8) (capability count : UInt32) (body : Bytes) : Bytes :=
  [more] ++ (putU32 capability ++ (putU32 count ++ body))

/-- The value that was reported last for a property. -/
def lastValue (property : UInt32) (pairs : List Property) : Option UInt32 :=
  (pairs.reverse.find? fun pair => pair.1 == property).map Prod.snd

/-- The state that these properties describe, once TPM_PT_PERMANENT is known to be `permanent`. -/
def lockoutOf (permanent : UInt32) (pairs : List Property) : Lockout where
  inLockout := permanent.toNat.testBit 9
  counter := (lastValue ptLockoutCounter pairs).getD 0
  maxAuthFail := (lastValue ptMaxAuthFail pairs).getD 0

-----------------------------------------------------------------------------------------
-- The loop
-----------------------------------------------------------------------------------------

theorem length_putProperty (pair : Property) : (putProperty pair).length = 8 := rfl

/-- By induction on the properties. -/
theorem length_putProperties (pairs : List Property)
    : (pairs.flatMap putProperty).length = 8 * pairs.length := by
  induction pairs with
  | nil => rfl
  | cons pair rest ih =>
      rw [List.flatMap_cons, List.length_append, ih, length_putProperty, List.length_cons]
      omega

@[simp]
theorem lastValue_nil (property : UInt32) : lastValue property [] = none := rfl

theorem lastValue_cons (property : UInt32) (pair : Property) (rest : List Property)
    : lastValue property (pair :: rest)
      = (lastValue property rest).or (if pair.1 = property then some pair.2 else none) := by
  simp only [lastValue, List.reverse_cons, List.find?_append, Option.map_or]
  congr 1
  by_cases same : pair.1 = property <;> simp [same]

/-- What one pair changes, field by field. -/
theorem Properties.record_eq (seen : Properties) (property value : UInt32)
    : seen.record property value = {
        permanent := (if property = ptPermanent then some value else none).or seen.permanent
        counter := (if property = ptLockoutCounter then some value else none).or seen.counter
        maxAuthFail := (if property = ptMaxAuthFail then some value else none).or seen.maxAuthFail
      } := by
  have first : ptLockoutCounter ≠ ptPermanent := by decide
  have second : ptMaxAuthFail ≠ ptPermanent := by decide
  have third : ptMaxAuthFail ≠ ptLockoutCounter := by decide
  unfold Properties.record
  split_ifs with permanent counter maximum <;> simp_all

/-- The loop keeps the last value of each property, by induction on the pairs. -/
theorem foldl_record (pairs : List Property) (seen : Properties)
    : pairs.foldl (fun seen pair => seen.record pair.1 pair.2) seen = {
        permanent := (lastValue ptPermanent pairs).or seen.permanent
        counter := (lastValue ptLockoutCounter pairs).or seen.counter
        maxAuthFail := (lastValue ptMaxAuthFail pairs).or seen.maxAuthFail
      } := by
  induction pairs generalizing seen with
  | nil => simp
  | cons pair rest ih =>
      rw [List.foldl_cons, ih, Properties.record_eq]
      simp only [lastValue_cons, Option.or_assoc]

/-- Reading as many pairs as were written, by induction on them. -/
theorem readProperties_advances (pairs : List Property) (seen : Properties)
    : Advances (readProperties pairs.length seen) (pairs.flatMap putProperty)
        (pairs.foldl (fun seen pair => seen.record pair.1 pair.2) seen) := by
  induction pairs generalizing seen with
  | nil => exact .pure seen
  | cons pair rest ih =>
      rw [List.flatMap_cons, putProperty, List.append_assoc]
      exact (readU32_advances pair.1).bind ((readU32_advances pair.2).bind (ih _))

/-- What is read were that many pairs, by induction on their number. -/
theorem readProperties_took {count : Nat} {seen last : Properties} {r after : Reader}
    (run : (readProperties count seen).run r = .ok (last, after))
    : ∃ pairs : List Property, pairs.length = count
        ∧ Took r (pairs.flatMap putProperty) after
        ∧ last = pairs.foldl (fun seen pair => seen.record pair.1 pair.2) seen := by
  induction count generalizing seen r with
  | zero =>
      obtain ⟨rfl, rfl⟩ := run_pure_ok.mp run
      exact ⟨[], rfl, ⟨rfl, rfl⟩, rfl⟩
  | succ count ih =>
      obtain ⟨property, r1, first, run⟩ := run_bind_ok.mp run
      obtain ⟨value, r2, second, run⟩ := run_bind_ok.mp run
      obtain ⟨pairs, counted, ⟨left, same⟩, rfl⟩ := ih run
      obtain ⟨before, kept⟩ := readU32_took first
      obtain ⟨between, held⟩ := readU32_took second
      refine ⟨(property, value) :: pairs, by rw [List.length_cons, counted], ⟨?_, ?_⟩, rfl⟩
      · rw [before, between, left, List.flatMap_cons, putProperty]
        simp only [List.append_assoc]
      · rw [same, held, kept]

-----------------------------------------------------------------------------------------
-- The payload
-----------------------------------------------------------------------------------------

/-- TPMA_PERMANENT.inLockout is bit 9. -/
theorem permanentInLockout_bit (permanent : UInt32)
    : (permanent &&& permanentInLockout != 0) = permanent.toNat.testBit 9 := by
  have mask : permanentInLockout.toNat = 2 ^ 9 := by decide
  have bits : (permanent &&& permanentInLockout).toNat
      = (permanent.toNat.testBit 9).toNat * 2 ^ 9 := by
    rw [UInt32.toNat_and, mask, Nat.and_two_pow]
  rw [Bool.eq_iff_iff, bne_iff_ne, ne_eq, ← UInt32.toNat_inj, bits]
  cases permanent.toNat.testBit 9 <;> simp

/-- The fields of an accepted response, in the order they are read. -/
theorem readLockout_took {r after : Reader} {lockout : Lockout}
    (run : readLockout.run r = .ok (lockout, after))
    : ∃ more r1, readU8.run r = .ok (more, r1)
        ∧ ∃ r2, readU32.run r1 = .ok (capTpmProperties, r2)
        ∧ ∃ count r3, readU32.run r2 = .ok (count, r3)
        ∧ ∃ seen, (readProperties count.toNat ⟨none, none, none⟩).run r3 = .ok (seen, after)
        ∧ ∃ permanent, seen.permanent = some permanent
        ∧ lockout = ⟨permanent.toNat.testBit 9, seen.counter.getD 0, seen.maxAuthFail.getD 0⟩ := by
  obtain ⟨more, r1, first, rest⟩ := run_bind_ok.mp run
  obtain ⟨capability, r2, second, rest⟩ := run_bind_ok.mp rest
  refine ⟨more, r1, first, ?_⟩
  by_cases properties : capability = capTpmProperties
  · subst properties
    simp only [ne_eq, not_true_eq_false, if_false, run_bind_ok] at rest
    obtain ⟨count, r3, third, seen, r4, fourth, rest⟩ := rest
    refine ⟨r2, second, count, r3, third, seen, ?_⟩
    cases reported : seen.permanent with
    | none =>
        rw [reported] at rest
        cases rest
    | some permanent =>
        rw [reported] at rest
        obtain ⟨rfl, rfl⟩ := run_pure_ok.mp rest
        exact ⟨fourth, permanent, rfl, by rw [permanentInLockout_bit]⟩
  · rw [if_pos properties] at rest
    cases rest

/-- A response for the properties that holds what it declares is read to its last pair. -/
theorem readLockout_advances {more : UInt8} {count permanent : UInt32} {pairs : List Property}
    (counted : pairs.length = count.toNat) (reported : lastValue ptPermanent pairs = some permanent)
    : Advances readLockout
        (capabilityPayload more capTpmProperties count (pairs.flatMap putProperty))
        (lockoutOf permanent pairs) := by
  have loop := readProperties_advances pairs ⟨none, none, none⟩
  rw [foldl_record, counted, reported] at loop
  simp only [Option.or_none] at loop
  refine (readU8_advances more).bind ((readU32_advances capTpmProperties).bind ?_)
  rw [if_neg (not_not_intro rfl), ← List.append_nil (pairs.flatMap putProperty)]
  refine (readU32_advances count).bind (loop.bind ?_)
  simp only [permanentInLockout_bit]
  exact .pure _

theorem parseProperties_run {payload : Bytes} {lockout : Lockout}
    : parseProperties payload = .ok lockout
      ↔ ∃ after, readLockout.run (.new payload) = .ok (lockout, after) := by
  rw [parseProperties]
  cases readLockout.run (.new payload) with
  | error e => simp [Except.map]
  | ok taken =>
      obtain ⟨read, after⟩ := taken
      simp [Except.map]

/-- A response is accepted exactly when it is one for the properties, holds as many as it declares
and TPM_PT_PERMANENT among them.
-/
theorem parseProperties_ok {payload : Bytes} {lockout : Lockout}
    : parseProperties payload = .ok lockout
      ↔ ∃ more count pairs rest permanent,
          payload = capabilityPayload more capTpmProperties count (pairs.flatMap putProperty ++ rest)
          ∧ pairs.length = count.toNat
          ∧ lastValue ptPermanent pairs = some permanent
          ∧ lockout = lockoutOf permanent pairs := by
  rw [parseProperties_run]
  constructor
  · rintro ⟨after, run⟩
    obtain ⟨more, r1, first, r2, second, count, r3, third, seen, fourth, permanent, reported, rfl⟩
      := readLockout_took run
    obtain ⟨pairs, counted, ⟨left, _⟩, rfl⟩ := readProperties_took fourth
    rw [foldl_record] at reported ⊢
    simp only [Option.or_none] at reported ⊢
    refine ⟨more, count, pairs, after.rest, permanent, ?_, counted, reported, rfl⟩
    have whole := (readU8_took first).1
    rw [Reader.rest_new, (readU32_took second).1, (readU32_took third).1, left] at whole
    exact whole
  · rintro ⟨more, count, pairs, rest, permanent, rfl, counted, reported, rfl⟩
    have bounded := count.toNat_lt
    have room : (Reader.new (capabilityPayload more capTpmProperties count
        (pairs.flatMap putProperty ++ rest))).pos
        + (capabilityPayload more capTpmProperties count (pairs.flatMap putProperty)).length
        < 2 ^ 64 := by
      simp only [Reader.new, capabilityPayload, putU32, List.length_append, List.length_cons,
        List.length_nil, length_putProperties, counted]
      omega
    obtain ⟨after, run, _⟩ := readLockout_advances counted reported _ rest room
      (by simp only [Reader.rest_new, capabilityPayload, List.append_assoc])
    exact ⟨after, run⟩

theorem putProperty_injective : Function.Injective putProperty := by
  rintro ⟨property, value⟩ ⟨other, held⟩ same
  obtain ⟨named, valued⟩ := List.append_inj same rfl
  exact Prod.ext (putU32_injective named) (putU32_injective valued)

/-- Properties that are found at the beginning of others were written there, by induction on the
ones found. What follows the others may not be long enough for one more.
-/
theorem putProperties_prefix {pairs shown : List Property} {rest left : Bytes}
    (same : pairs.flatMap putProperty ++ rest = shown.flatMap putProperty ++ left)
    (whole : rest.length < 8 ∨ shown.length ≤ pairs.length)
    : shown <+: pairs := by
  induction shown generalizing pairs with
  | nil => exact List.nil_prefix
  | cons pair others ih =>
      rw [List.flatMap_cons, List.append_assoc] at same
      cases pairs with
      | nil =>
          have length := congrArg List.length same
          simp only [List.flatMap_nil, List.nil_append, List.length_append,
            length_putProperty] at length
          simp only [List.length_cons, List.length_nil] at whole
          omega
      | cons first pairs =>
          rw [List.flatMap_cons, List.append_assoc] at same
          obtain ⟨head, tail⟩ := List.append_inj same rfl
          rw [putProperty_injective head]
          simp only [List.length_cons, Nat.add_le_add_iff_right] at whole
          exact (List.prefix_cons_inj pair).mpr (ih tail whole)

/-- The parts of a response are determined by it. -/
theorem capabilityPayload_inj {more other : UInt8} {capability named count declared : UInt32}
    {body rest : Bytes}
    (same : capabilityPayload more capability count body
      = capabilityPayload other named declared rest)
    : capability = named ∧ count = declared ∧ body = rest := by
  obtain ⟨_, same⟩ := List.append_inj same rfl
  obtain ⟨first, same⟩ := List.append_inj same rfl
  obtain ⟨second, same⟩ := List.append_inj same rfl
  exact ⟨putU32_injective first, putU32_injective second, same⟩

/-- A response for the properties is accepted exactly when it holds all it declares, with
TPM_PT_PERMANENT among them.
-/
theorem parseProperties_pairs {more : UInt8} {count : UInt32} {pairs : List Property}
    {rest : Bytes} {lockout : Lockout}
    (whole : rest.length < 8 ∨ count.toNat ≤ pairs.length)
    : parseProperties
          (capabilityPayload more capTpmProperties count (pairs.flatMap putProperty ++ rest))
        = .ok lockout
      ↔ count.toNat ≤ pairs.length
        ∧ ∃ permanent, lastValue ptPermanent (pairs.take count.toNat) = some permanent
          ∧ lockout = lockoutOf permanent (pairs.take count.toNat) := by
  rw [parseProperties_ok]
  constructor
  · rintro ⟨_, _, shown, left, permanent, same, counted, reported, rfl⟩
    obtain ⟨_, rfl, body⟩ := capabilityPayload_inj same
    rw [← counted] at whole ⊢
    have found := putProperties_prefix body whole
    rw [← List.prefix_iff_eq_take.mp found]
    exact ⟨found.length_le, permanent, reported, rfl⟩
  · rintro ⟨enough, permanent, reported, rfl⟩
    refine ⟨more, count, pairs.take count.toNat,
      (pairs.drop count.toNat).flatMap putProperty ++ rest, permanent, ?_, ?_, reported, rfl⟩
    · rw [← List.append_assoc, ← List.flatMap_append, List.take_append_drop]
    · rw [List.length_take, Nat.min_eq_left enough]

/-- A response for another capability is refused, whatever it holds. -/
theorem parseProperties_capability {more : UInt8} {capability : UInt32} {body : Bytes}
    (other : capability ≠ capTpmProperties)
    : ∃ e, parseProperties ([more] ++ (putU32 capability ++ body)) = .error e := by
  cases parsed : parseProperties ([more] ++ (putU32 capability ++ body)) with
  | error e => exact ⟨e, rfl⟩
  | ok lockout =>
      obtain ⟨_, _, _, _, _, same, _⟩ := parseProperties_ok.mp parsed
      obtain ⟨_, same⟩ := List.append_inj same rfl
      exact absurd (putU32_injective (List.append_inj same rfl).1) other

/-- A response that ends before its last declared property is refused. -/
theorem parseProperties_short {more : UInt8} {count : UInt32} {body : Bytes} {n : Nat}
    (short : n < 9 + 8 * count.toNat)
    : ∃ e, parseProperties ((capabilityPayload more capTpmProperties count body).take n)
        = .error e := by
  cases parsed
    : parseProperties ((capabilityPayload more capTpmProperties count body).take n) with
  | error e => exact ⟨e, rfl⟩
  | ok lockout =>
      obtain ⟨other, declared, pairs, rest, permanent, same, counted, _⟩ :=
        parseProperties_ok.mp parsed
      -- As many bytes as are declared would have to be left, and fewer are.
      have declares : count = declared := by
        have begins : capabilityPayload other capTpmProperties declared
            (pairs.flatMap putProperty ++ rest)
            <+: capabilityPayload more capTpmProperties count body := by
          rw [← same]
          exact List.take_prefix _ _
        obtain ⟨later, whole⟩ := begins
        have regrouped : capabilityPayload other capTpmProperties declared
            (pairs.flatMap putProperty ++ rest ++ later)
            = capabilityPayload more capTpmProperties count body := by
          simpa only [capabilityPayload, List.append_assoc] using whole
        exact (capabilityPayload_inj regrouped).2.1.symm
      have length := congrArg List.length same
      simp only [List.length_take, capabilityPayload, List.length_append, putU32,
        List.length_cons, List.length_nil, length_putProperties, counted, declares] at length
      rw [declares] at short
      omega

-----------------------------------------------------------------------------------------
-- The decision
-----------------------------------------------------------------------------------------

/-- Asking for the lockout state is one exchange, and what a good response holds is what comes of
it.
-/
theorem Tpm.lockout_exchange {tpm : Tpm} {trace : Trace} {result : Except String Lockout}
    (run : tpm.lockout.run.Runs trace (some result))
    : ∃ answer, trace = [⟨.tpm tpm.fd (command ccGetCapability lockoutBody), answer⟩]
        ∧ ∀ payload, answer.payload = some payload → result = parseProperties payload := by
  rcases Fallible.runs_bind.mp run with
    ⟨e, rfl, failed⟩ | ⟨payload, first, second, rfl, asked, parsed⟩
  · obtain ⟨answer, rfl, same⟩ := Tpm.transact_answer failed
    refine ⟨answer, rfl, fun payload good => ?_⟩
    rw [good] at same
    cases same
  · obtain ⟨answer, rfl, same⟩ := Tpm.transact_answer asked
    obtain ⟨rfl, rfl⟩ := runs_pure_some.mp parsed
    refine ⟨answer, List.append_nil _, fun other good => ?_⟩
    rw [good] at same
    cases same
    rfl

end Tpm2

/-- Any request but a GetCapability command. -/
def Op.notCapability : Op → Prop
  | .tpm _ cmd => Tpm2.commandCode cmd ≠ Tpm2.putU32 Tpm2.ccGetCapability
  | _ => True

namespace Preflight

open Tpm2

variable {fromStr : Json.Reader} {name : String} {config : Volume} {device : Device} {tpm : Tpm}

/-- What is decided from the tokens takes no further look at the lockout state. -/
theorem fromTokens_notCapability {tokens : List Token.Tpm2Token}
    : (fromTokens tokens config tpm).Only Op.notCapability := by
  refine fromTokens_requests (fun _ => trivial) (Tpm.pcrPolicyDigest_only ?_ ?_ ?_ ?_ ?_)
  · show putU32 ccStartAuthSession ≠ _
    decide
  · intro session
    show putU32 ccPolicyPcr ≠ _
    decide
  · intro session
    show putU32 ccPolicyGetDigest ≠ _
    decide
  · intro session
    show putU32 ccFlushContext ≠ _
    decide
  · exact fun _ _ => trivial

/-- Where the lockout state cannot be read nothing is decided but to leave the volume alone. -/
theorem check_unread {trace : Trace} {decision : Decision} {buf payload : Bytes} {e : String}
    (run : (check fromStr name config device tpm).Runs trace (some decision))
    (answered : (⟨.tpm tpm.fd (command ccGetCapability Tpm.lockoutBody), .response buf⟩ : Event)
      ∈ trace)
    (good : responsePayload buf = .ok payload) (refused : parseProperties payload = .error e)
    : decision = .leave s!"could not read the TPM's lockout state: {e}" := by
  have elsewhere {program : Sys Decision} {part : Trace} (only : program.Only Op.notCapability)
      (partRun : program.Runs part (some decision))
      : ⟨.tpm tpm.fd (command ccGetCapability Tpm.lockoutBody), .response buf⟩ ∉ part :=
    fun member => only.mem partRun member rfl
  have listing : (Token.read fromStr device).Only Op.notCapability := Token.read_requests trivial
  obtain ⟨tokens, first, second, rfl, listed, continued⟩ := runs_bind_some.mp run
  have before : ⟨.tpm tpm.fd (command ccGetCapability Tpm.lockoutBody), .response buf⟩ ∉ first :=
    fun member => listing.mem listed member rfl
  have after := (List.mem_append.mp answered).resolve_left before
  cases tokens with
  | error e => exact absurd after (elsewhere (only_pure _) continued)
  | ok tokens =>
      obtain ⟨read, _, third, rfl, asked, decided⟩ := runs_bind_some.mp continued
      obtain ⟨answer, rfl, same⟩ := Tpm.lockout_exchange asked
      rcases List.mem_cons.mp after with now | later
      · cases now
        have unread := same payload (by rw [TpmAnswer.payload_response, good]; rfl)
        rw [unread, refused] at decided
        exact (runs_pure_some.mp decided).2
      · cases read with
        | error e => exact absurd later (elsewhere (only_pure _) decided)
        | ok l =>
            refine absurd later (elsewhere ?_ decided)
            dsimp only
            split_ifs
            · trivial
            · exact only_ask trivial fun _ => fromTokens_notCapability

end Preflight

open Tpm2 in
/-- A response for the TPM properties is accepted exactly when all the pairs it declares are there
and TPM_PT_PERMANENT is among them. The lockout flag is then bit 9 of its last value, and the two
counters are the last values of theirs, or 0. Any other capability and any response that is cut
short before the last declared pair is refused, and a response that is refused leaves the volume
alone.
-/
theorem lockout_decoding
    : (∀ more (count : UInt32) (pairs : List Property) rest lockout,
        rest.length < 8 ∨ count.toNat ≤ pairs.length
        → (parseProperties
              (capabilityPayload more capTpmProperties count (pairs.flatMap putProperty ++ rest))
            = .ok lockout
          ↔ count.toNat ≤ pairs.length
            ∧ ∃ permanent, lastValue ptPermanent (pairs.take count.toNat) = some permanent
              ∧ lockout.inLockout = permanent.toNat.testBit 9
              ∧ lockout.counter
                = (lastValue ptLockoutCounter (pairs.take count.toNat)).getD 0
              ∧ lockout.maxAuthFail
                = (lastValue ptMaxAuthFail (pairs.take count.toNat)).getD 0))
      ∧ (∀ more capability body, capability ≠ capTpmProperties
        → ∃ e, parseProperties ([more] ++ (putU32 capability ++ body)) = .error e)
      ∧ (∀ more (count : UInt32) (pairs : List Property) rest n,
        pairs.length = count.toNat → n < 9 + 8 * count.toNat
        → ∃ e, parseProperties
            ((capabilityPayload more capTpmProperties count
              (pairs.flatMap putProperty ++ rest)).take n) = .error e)
      ∧ ∀ fromStr name config device (tpm : Tpm) trace decision buf payload e,
        (Preflight.check fromStr name config device tpm).Runs trace (some decision)
        → ⟨.tpm tpm.fd (command ccGetCapability Tpm.lockoutBody), .response buf⟩ ∈ trace
        → responsePayload buf = .ok payload
        → parseProperties payload = .error e
        → decision = .leave s!"could not read the TPM's lockout state: {e}" := by
  refine ⟨?_, ?_, ?_, ?_⟩
  · intro more count pairs rest lockout whole
    rw [parseProperties_pairs whole]
    refine and_congr_right fun _ => exists_congr fun permanent => and_congr_right fun _ => ?_
    obtain ⟨inLockout, counter, maxAuthFail⟩ := lockout
    rw [lockoutOf, Lockout.mk.injEq]
  · exact fun _ _ _ other => parseProperties_capability other
  · exact fun _ _ _ _ _ _ short => parseProperties_short short
  · exact fun _ _ _ _ _ _ _ _ _ _ run answered good refused =>
      Preflight.check_unread run answered good refused

end Tpm2Autoenroll
