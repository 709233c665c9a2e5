import Tpm2Autoenroll.Cutting.FirstHits
import Tpm2Autoenroll.Serving.Footprints

/-! Acquiring a passphrase is a search for the first correct candidate: the cached passphrases in
their order and then, prompt by prompt, what each prompt offers.
-/

namespace Tpm2Autoenroll

open Interaction Prog
open Cutting
open Luks (Verdict)
open Text (Bytes)

-----------------------------------------------------------------------------------------
-- What is tried and what is asked for
-----------------------------------------------------------------------------------------

/-- A trial with its verdict, or a prompt with its answer. -/
inductive Act
  | trial (secret : Secret) (verdict : Verdict)
  | prompt (attempt : Attempt) (answer : Except String Output)

namespace Act

/-- What a trial amounts to once its child was run. -/
def judged : Except String Output → Verdict
  | .error e => .unusable e
  | .ok out => Luks.verdict out

/-- The candidates of a prompt's answer. A prompt that failed has none. -/
def offered : Except String Output → List Secret
  | .error _ => []
  | .ok out => if out.status.success then Askpw.parseCandidates out.stdout else []

/-- The act that an event ends: a trial ends without a child when there is no file for it. -/
def of : Event → Option Act
  | ⟨.secretFile secret, .error e⟩ => some (.trial secret (.unusable e))
  | ⟨.child (.testPassphrase _ key), answer⟩ => some (.trial key.secret (judged answer))
  | ⟨.child (.askPassword _ _ attempt), answer⟩ => some (.prompt attempt answer)
  | _ => none

/-- Whether the search ends here. -/
def stops : Act → Bool
  | .trial _ .wrong => false
  | .trial _ _ => true
  | .prompt _ answer => (offered answer).isEmpty

def isTrial : Act → Bool
  | .trial _ _ => true
  | .prompt _ _ => false

/-- What the act that ended a search makes of it. -/
def result : Option Act → Trials
  | none => .exhausted
  | some (.trial secret .correct) => .found secret
  | some _ => .abandoned

/-- The passphrase of a search that this act ended. -/
def passphrase : Option Act → Option Secret
  | some (.trial secret .correct) => some secret
  | _ => none

end Act

/-- The acts of a trace, in order. -/
def acts (trace : Trace) : List Act := trace.filterMap Act.of

theorem acts_append (first second : Trace) : acts (first ++ second) = acts first ++ acts second :=
  List.filterMap_append

/-- Nobody asked the daemon to stop. -/
def Unstopped (trace : Trace) : Prop := ∀ answer, ⟨.terminating, answer⟩ ∈ trace → answer = false

theorem Unstopped.tail {event : Event} {trace : Trace} (unstopped : Unstopped (event :: trace))
    : Unstopped trace :=
  fun answer member => unstopped answer (List.mem_cons_of_mem event member)

theorem Unstopped.left {first second : Trace} (unstopped : Unstopped (first ++ second))
    : Unstopped first :=
  fun answer member => unstopped answer (List.mem_append_left second member)

theorem Unstopped.right {first second : Trace} (unstopped : Unstopped (first ++ second))
    : Unstopped second :=
  fun answer member => unstopped answer (List.mem_append_right first member)

-----------------------------------------------------------------------------------------
-- The search that is meant
-----------------------------------------------------------------------------------------

/-- What there is to know of the surroundings: the verdict on each passphrase and the answer to
each prompt.
-/
structure Oracle where
  judge : Secret → Verdict
  prompts : Nat → Except String Output

namespace Oracle

variable (oracle : Oracle)

def trials (secrets : List Secret) : List Act :=
  secrets.map fun secret => .trial secret (oracle.judge secret)

/-- A prompt and the trials of its candidates. Only the first one accepts cached answers. -/
def round (attempt : Nat) : List Act :=
  .prompt (if attempt = 0 then .first else .retry) (oracle.prompts attempt)
    :: oracle.trials (Act.offered (oracle.prompts attempt))

/-- Everything the search goes through as long as nothing stops it. -/
def schedule (cache : Cache) : List Act :=
  oracle.trials cache.entries ++ (List.range Acquire.tries).flatMap oracle.round

/-- These acts, of which the first prompt is the `attempt`th, went as the oracle says. -/
def Agrees : Nat → List Act → Prop
  | _, [] => True
  | attempt, .trial secret verdict :: rest => verdict = oracle.judge secret ∧ Agrees attempt rest
  | attempt, .prompt _ answer :: rest => answer = oracle.prompts attempt ∧ Agrees (attempt + 1) rest

variable {oracle} {attempt : Nat}

theorem agrees_trials {secrets : List Secret} {rest : List Act}
    (agrees : oracle.Agrees attempt (oracle.trials secrets ++ rest))
    : oracle.Agrees attempt rest := by
  induction secrets with
  | nil => exact agrees
  | cons secret more ih => exact ih agrees.2

/-- By induction on the acts. -/
theorem Agrees.left {first second : List Act} (agrees : oracle.Agrees attempt (first ++ second))
    : oracle.Agrees attempt first := by
  induction first generalizing attempt with
  | nil => trivial
  | cons act rest ih =>
      cases act with
      | trial secret verdict => exact ⟨agrees.1, ih agrees.2⟩
      | prompt which answer => exact ⟨agrees.1, ih agrees.2⟩

end Oracle

-----------------------------------------------------------------------------------------
-- The search that is made
-----------------------------------------------------------------------------------------

variable {oracle : Oracle} {config : Volume} {device : Device} {attempt : Nat} {trace : Trace}

/-- A trial is one act. -/
theorem testPassphrase_acts {secret : Secret} {verdict : Verdict}
    (run : (Luks.testPassphrase device secret).Runs trace (some verdict))
    : acts trace = [.trial secret verdict] := by
  obtain ⟨file, first, second, rfl, created, tried⟩ := runs_bind_some.mp run
  obtain ⟨memfd, later, rfl, named⟩ := runs_ask.mp created
  cases memfd with
  | error e =>
      obtain ⟨rfl, rfl⟩ := runs_pure_some.mp named
      obtain ⟨rfl, rfl⟩ := runs_pure_some.mp tried
      rfl
  | ok fd =>
      obtain ⟨rfl, rfl⟩ := runs_pure_some.mp named
      obtain ⟨answer, later, rfl, judged⟩ := runs_ask.mp tried
      cases answer with
      | error e =>
          obtain ⟨rfl, rfl⟩ := runs_pure_some.mp judged
          rfl
      | ok out =>
          obtain ⟨rfl, rfl⟩ := runs_pure_some.mp judged
          rfl

/-- A prompt is one act, and its candidates are those of the answer if there are any. -/
theorem ask_acts {volume path : String} {which : Attempt} {candidates : Except String (List Secret)}
    (run : (Askpw.ask volume path which).Runs trace (some candidates))
    : ∃ answer, acts trace = [.prompt which answer]
        ∧ (candidates = .ok (Act.offered answer) ∧ Act.offered answer ≠ []
          ∨ (∃ e, candidates = .error e) ∧ Act.offered answer = []) := by
  obtain ⟨answer, later, rfl, judged⟩ := runs_ask.mp run
  cases answer with
  | error e =>
      obtain ⟨rfl, rfl⟩ := runs_pure_some.mp judged
      exact ⟨.error e, rfl, Or.inr ⟨⟨e, rfl⟩, rfl⟩⟩
  | ok out =>
      dsimp only at judged
      split_ifs at judged with failed none
      · obtain ⟨rfl, rfl⟩ := runs_pure_some.mp judged
        refine ⟨.ok out, rfl, Or.inr ⟨⟨_, rfl⟩, ?_⟩⟩
        rw [Act.offered, if_neg (by simpa using failed)]
      · obtain ⟨rfl, rfl⟩ := runs_pure_some.mp judged
        refine ⟨.ok out, rfl, Or.inr ⟨⟨_, rfl⟩, ?_⟩⟩
        rw [Act.offered, none, ite_self]
      · obtain ⟨rfl, rfl⟩ := runs_pure_some.mp judged
        have whole : Act.offered (.ok out) = Askpw.parseCandidates out.stdout :=
          if_pos (by simpa using failed)
        exact ⟨.ok out, rfl, Or.inl ⟨by rw [whole], whole ▸ none⟩⟩

/-- A list of passphrases is gone through up to the first that is not wrong; by induction on it. -/
theorem tryEach_acts {stopped : LogLine} {answered : Option LogLine} {secrets : List Secret}
    {ended : Trials}
    (run : (Acquire.tryEach config device stopped answered secrets).Runs trace (some ended))
    (unstopped : Unstopped trace) (agrees : oracle.Agrees attempt (acts trace))
    : acts trace = through Act.stops (oracle.trials secrets)
        ∧ ended = Act.result ((oracle.trials secrets).find? Act.stops) := by
  induction secrets generalizing trace with
  | nil =>
      obtain ⟨rfl, rfl⟩ := runs_pure_some.mp run
      exact ⟨rfl, rfl⟩
  | cons secret rest ih =>
      obtain ⟨stop, later, rfl, going⟩ := runs_ask.mp run
      obtain rfl : stop = false := unstopped stop List.mem_cons_self
      obtain ⟨verdict, during, after, rfl, trial, judged⟩ := runs_bind_some.mp going
      have whole : acts (⟨.terminating, false⟩ :: (during ++ after))
          = .trial secret verdict :: acts after := by
        change acts (during ++ after) = _
        rw [acts_append, testPassphrase_acts trial]
        rfl
      rw [whole] at agrees ⊢
      obtain ⟨rfl, agrees⟩ := agrees
      rw [Oracle.trials, List.map_cons, through_cons]
      generalize verdictIs : oracle.judge secret = verdict at judged
      cases verdict with
      | correct =>
          have hit : (Act.trial secret .correct).stops = true := rfl
          rw [List.find?_cons_of_pos hit, if_pos hit]
          cases answered with
          | none =>
              obtain ⟨rfl, rfl⟩ := runs_pure_some.mp judged
              exact ⟨rfl, rfl⟩
          | some line =>
              obtain ⟨_, _, rfl, returned⟩ := runs_ask.mp judged
              obtain ⟨rfl, rfl⟩ := runs_pure_some.mp returned
              exact ⟨rfl, rfl⟩
      | wrong =>
          obtain ⟨gone, found⟩ := ih judged unstopped.tail.right agrees
          have missed : ¬ (Act.trial secret .wrong).stops = true := Bool.false_ne_true
          rw [List.find?_cons_of_neg missed, if_neg missed]
          exact ⟨congrArg _ gone, found⟩
      | unusable why =>
          obtain ⟨_, _, rfl, returned⟩ := runs_ask.mp judged
          obtain ⟨rfl, rfl⟩ := runs_pure_some.mp returned
          have hit : (Act.trial secret (.unusable why)).stops = true := rfl
          rw [List.find?_cons_of_pos hit, if_pos hit]
          exact ⟨rfl, rfl⟩

/-- An act that ends a search finds a passphrase or gives up. -/
theorem Act.result_some (hit : Act)
    : (∃ secret, hit = .trial secret .correct)
      ∨ result (some hit) = .abandoned ∧ passphrase (some hit) = none := by
  cases hit with
  | prompt => exact Or.inr ⟨rfl, rfl⟩
  | trial secret verdict =>
      cases verdict with
      | correct => exact Or.inl ⟨secret, rfl⟩
      | wrong | unusable => exact Or.inr ⟨rfl, rfl⟩

theorem Act.passphrase_iff {hit : Option Act} {secret : Secret}
    : passphrase hit = some secret ↔ hit = some (.trial secret .correct) := by
  unfold passphrase
  split <;> simp_all [eq_comm]

/-- An act lets the search go on when it was a wrong passphrase or a prompt with candidates. -/
theorem Act.stops_eq_false {act : Act}
    : act.stops = false
      ↔ (∀ other verdict, act = .trial other verdict → verdict = .wrong)
        ∧ ∀ which answer, act = .prompt which answer → offered answer ≠ [] := by
  cases act with
  | prompt which answer => simp [stops]
  | trial secret verdict => cases verdict <;> simp [stops]

/-- What ended a search ends the prompts, and nothing follows. -/
theorem Act.settled {hit : Act} {next : Sys Trials} {ended : Trials}
    (run : Runs
      (match result (some hit) with
        | .exhausted => next
        | settled => pure settled)
      trace (some ended))
    : trace = [] ∧ ended = result (some hit) := by
  cases hit with
  | prompt => exact runs_pure_some.mp run
  | trial secret verdict => cases verdict <;> exact runs_pure_some.mp run

/-- So are the prompts, each with what it offers; by induction on the prompts that are left. -/
theorem tryPrompts_acts {left : Nat} {ended : Trials}
    (run : (Acquire.tryPrompts config device (List.range' attempt left)).Runs trace (some ended))
    (unstopped : Unstopped trace) (agrees : oracle.Agrees attempt (acts trace))
    : acts trace = through Act.stops ((List.range' attempt left).flatMap oracle.round)
        ∧ ended = Act.result (((List.range' attempt left).flatMap oracle.round).find? Act.stops)
      := by
  induction left generalizing attempt trace with
  | zero =>
      obtain ⟨rfl, rfl⟩ := runs_pure_some.mp run
      exact ⟨rfl, rfl⟩
  | succ left ih =>
      rw [List.range'_succ] at run ⊢
      obtain ⟨stop, later, rfl, going⟩ := runs_ask.mp run
      obtain rfl : stop = false := unstopped stop List.mem_cons_self
      obtain ⟨candidates, asking, after, rfl, asked, judged⟩ := runs_bind_some.mp going
      obtain ⟨answer, prompted, offers⟩ := ask_acts asked
      have whole : acts (⟨.terminating, false⟩ :: (asking ++ after))
          = .prompt (if attempt = 0 then .first else .retry) answer :: acts after := by
        change acts (asking ++ after) = _
        rw [acts_append, prompted]
        rfl
      rw [whole] at agrees ⊢
      obtain ⟨rfl, agrees⟩ := agrees
      rw [List.flatMap_cons, Oracle.round, List.cons_append, through_cons]
      rcases offers with ⟨rfl, some⟩ | ⟨⟨e, rfl⟩, none⟩
      · have missed : ¬ (Act.prompt (if attempt = 0 then .first else .retry)
            (oracle.prompts attempt)).stops = true := by
          simpa [Act.stops] using some
        rw [List.find?_cons_of_neg missed, if_neg missed, List.find?_append]
        obtain ⟨trials, trying, rest, rfl, tried, continued⟩ := runs_bind_some.mp judged
        rw [acts_append] at agrees ⊢
        obtain ⟨gone, rfl⟩ := tryEach_acts tried unstopped.tail.right.left agrees.left
        rw [gone] at agrees ⊢
        cases found : (oracle.trials (Act.offered (oracle.prompts attempt))).find? Act.stops with
        | none =>
            rw [found] at continued
            rw [through_of_none found] at agrees ⊢
            obtain ⟨_, again, rfl, prompting⟩ := runs_ask.mp continued
            obtain ⟨more, last⟩ := ih prompting unstopped.tail.right.right.tail
              (Oracle.agrees_trials agrees)
            rw [through_append_of_none found]
            exact ⟨congrArg (_ :: _ ++ ·) more, last⟩
        | some hit =>
            rw [found] at continued
            obtain ⟨rfl, rfl⟩ := Act.settled continued
            rw [through_append_of_hit found, acts, List.filterMap_nil, List.append_nil]
            exact ⟨rfl, rfl⟩
      · have hit : (Act.prompt (if attempt = 0 then .first else .retry)
            (oracle.prompts attempt)).stops = true := by
          simp [Act.stops, none]
        obtain ⟨_, _, rfl, returned⟩ := runs_ask.mp judged
        obtain ⟨rfl, rfl⟩ := runs_pure_some.mp returned
        rw [List.find?_cons_of_pos hit, if_pos hit]
        exact ⟨rfl, rfl⟩

theorem Cache.entries_insert {cache : Cache} {secret : Secret}
    : (cache.insert secret).entries
      = if secret ∈ cache.entries then cache.entries else cache.entries ++ [secret] := by
  unfold insert
  split_ifs <;> rfl

theorem Cache.insert_of_mem {cache : Cache} {secret : Secret} (known : secret ∈ cache.entries)
    : cache.insert secret = cache :=
  dif_pos known

/-- The cached passphrases come first, and the prompts when none of them ends the search. -/
theorem search_acts {cache after : Cache} {found : Option Secret}
    (run : (Acquire.search config device cache).Runs trace (some (found, after)))
    (unstopped : Unstopped trace) (agrees : oracle.Agrees 0 (acts trace))
    : acts trace = through Act.stops (oracle.schedule cache)
        ∧ found = Act.passphrase ((oracle.schedule cache).find? Act.stops)
        ∧ after = found.elim cache cache.insert := by
  obtain ⟨trials, trying, rest, rfl, tried, continued⟩ := runs_bind_some.mp run
  rw [acts_append] at agrees ⊢
  obtain ⟨gone, rfl⟩ := tryEach_acts tried unstopped.left agrees.left
  rw [gone] at agrees ⊢
  rw [Oracle.schedule, List.find?_append]
  cases hit : (oracle.trials cache.entries).find? Act.stops with
  | none =>
      rw [hit] at continued
      rw [through_of_none hit] at agrees ⊢
      rw [through_append_of_none hit, Option.none_or]
      obtain ⟨trials, prompting, last, rfl, prompted, returned⟩ := runs_bind_some.mp continued
      rw [List.range_eq_range'] at prompted ⊢
      rw [acts_append] at agrees ⊢
      obtain ⟨more, rfl⟩ := tryPrompts_acts prompted unstopped.right.left
        (Oracle.agrees_trials agrees).left
      rw [more]
      cases ended : ((List.range' 0 Acquire.tries).flatMap oracle.round).find? Act.stops with
      | none =>
          rw [ended] at returned
          obtain ⟨rfl, same⟩ := runs_pure_some.mp returned
          obtain ⟨rfl, rfl⟩ := Prod.mk.inj same
          exact ⟨congrArg (_ ++ ·) (List.append_nil _), rfl, rfl⟩
      | some act =>
          rw [ended] at returned
          rcases act.result_some with ⟨secret, rfl⟩ | ⟨abandoned, unnamed⟩
          · obtain ⟨rfl, same⟩ := runs_pure_some.mp returned
            obtain ⟨rfl, rfl⟩ := Prod.mk.inj same
            exact ⟨congrArg (_ ++ ·) (List.append_nil _), rfl, rfl⟩
          · rw [abandoned] at returned
            obtain ⟨rfl, same⟩ := runs_pure_some.mp returned
            obtain ⟨rfl, rfl⟩ := Prod.mk.inj same
            exact ⟨congrArg (_ ++ ·) (List.append_nil _), unnamed.symm, rfl⟩
  | some act =>
      rw [hit] at continued
      rw [through_append_of_hit hit, Option.some_or]
      rcases act.result_some with ⟨secret, rfl⟩ | ⟨abandoned, unnamed⟩
      · obtain ⟨rfl, same⟩ := runs_pure_some.mp continued
        obtain ⟨rfl, rfl⟩ := Prod.mk.inj same
        obtain ⟨other, known, same⟩ := List.mem_map.mp (List.mem_of_find?_eq_some hit)
        obtain rfl : other = secret := (Act.trial.inj same).1
        exact ⟨List.append_nil _, rfl, (Cache.insert_of_mem known).symm⟩
      · rw [abandoned] at continued
        obtain ⟨rfl, same⟩ := runs_pure_some.mp continued
        obtain ⟨rfl, rfl⟩ := Prod.mk.inj same
        exact ⟨List.append_nil _, unnamed.symm, rfl⟩

/-- What is logged first is no act. -/
theorem acquire_acts {cache after : Cache} {found : Option Secret}
    (run : (acquire config device cache).Runs trace (some (found, after)))
    (unstopped : Unstopped trace) (agrees : oracle.Agrees 0 (acts trace))
    : acts trace = through Act.stops (oracle.schedule cache)
        ∧ found = Act.passphrase ((oracle.schedule cache).find? Act.stops)
        ∧ after = found.elim cache cache.insert := by
  unfold acquire at run
  split_ifs at run
  · obtain ⟨answer, later, rfl, searched⟩ := runs_ask.mp run
    have silent : acts (⟨.log _, answer⟩ :: later) = acts later := List.filterMap_cons_none rfl
    rw [silent] at agrees ⊢
    exact search_acts searched unstopped.tail agrees
  · exact search_acts run unstopped agrees

-----------------------------------------------------------------------------------------
-- How far it can go
-----------------------------------------------------------------------------------------

theorem length_offered (answer : Except String Output)
    : (Act.offered answer).length ≤ Askpw.maxCandidates := by
  cases answer with
  | error e => exact Nat.zero_le _
  | ok out =>
      rw [Act.offered]
      split_ifs
      · exact List.length_take_le _ _
      · exact Nat.zero_le _

theorem Oracle.count_trials (secrets : List Secret)
    : (oracle.trials secrets).countP Act.isTrial = secrets.length := by
  rw [trials, List.countP_map]
  exact List.countP_eq_length.mpr fun _ _ => rfl

/-- A prompt's round has a trial for each candidate, by induction on the prompts. -/
theorem Oracle.count_rounds (attempts : List Nat)
    : (attempts.flatMap oracle.round).countP Act.isTrial
      ≤ attempts.length * Askpw.maxCandidates := by
  induction attempts with
  | nil => simp
  | cons attempt more ih =>
      have here : (oracle.round attempt).countP Act.isTrial ≤ Askpw.maxCandidates := by
        rw [round, List.countP_cons_of_neg Bool.false_ne_true, count_trials]
        exact length_offered _
      rw [List.flatMap_cons, List.countP_append, List.length_cons, Nat.add_mul]
      omega

/-- No more is tried than the cache holds and the prompts can offer. -/
theorem Oracle.count_schedule (cache : Cache)
    : (oracle.schedule cache).countP Act.isTrial
      ≤ cache.entries.length + Acquire.tries * Askpw.maxCandidates := by
  have rounds : ((List.range Acquire.tries).flatMap oracle.round).countP Act.isTrial
      ≤ (List.range Acquire.tries).length * Askpw.maxCandidates :=
    count_rounds (List.range Acquire.tries)
  rw [List.length_range] at rounds
  rw [schedule, List.countP_append, count_trials]
  omega

-----------------------------------------------------------------------------------------
-- What is offered
-----------------------------------------------------------------------------------------

/-- The candidates are the first few pieces between newlines that are not empty. -/
theorem parseCandidates_pieces {pieces : List Bytes} (some : pieces ≠ [])
    (lines : ∀ piece ∈ pieces, 0x0a ∉ piece)
    : Askpw.parseCandidates ([0x0a].intercalate pieces)
      = ((pieces.filter fun piece => !piece.isEmpty).take Askpw.maxCandidates).map Secret.mk := by
  rw [Askpw.parseCandidates, List.splitOn_intercalate 0x0a lines some, List.filter_map,
    List.map_take]
  rfl

/-- Only the first prompt is told to accept cached answers. -/
theorem accept_cached {volume path : String} {which : Attempt}
    : "--accept-cached" ∈ Child.args (.askPassword volume path which) ↔ which = .first := by
  cases which with
  | first => simp [Child.args]
  | retry =>
      simp only [Child.args, List.mem_append, List.mem_cons, List.not_mem_nil, or_false,
        reduceCtorEq, iff_false, String.reduceEq, false_or, not_or]
      constructor
      · intro same
        have chars := congrArg String.toList same
        simp [String.toList_append, toString] at chars
      · intro same
        have chars := congrArg String.toList same
        simp [String.toList_append, toString] at chars

/-- The search that is made is the search that is meant. The cached passphrases are tried in their
order, and then each prompt's candidates in theirs, up to the first act that is not a wrong
passphrase or a prompt with candidates; so nothing comes after a verdict other than wrong, and there
are no more trials than the cache and the prompts have candidates. What is found is the first
correct candidate, if every one before it was wrong and every prompt before it had candidates, and
then the cache has it too; otherwise the cache is as before. A prompt's candidates are the first few
of its pieces that are not empty, and only the first prompt accepts cached answers.
-/
theorem first_correct {cache after : Cache} {found : Option Secret}
    (run : (acquire config device cache).Runs trace (some (found, after)))
    (unstopped : Unstopped trace) (agrees : oracle.Agrees 0 (acts trace))
    : acts trace = through Act.stops (oracle.schedule cache)
      ∧ (∀ secret,
        found = some secret
        ↔ ∃ before later, oracle.schedule cache = before ++ .trial secret .correct :: later
          ∧ (∀ other verdict, .trial other verdict ∈ before → verdict = .wrong)
          ∧ ∀ which answer, .prompt which answer ∈ before → Act.offered answer ≠ [])
      ∧ (found = none → after = cache)
      ∧ (∀ secret, found = some secret
        → after.entries
          = if secret ∈ cache.entries then cache.entries else cache.entries ++ [secret])
      ∧ (∀ before secret verdict later, acts trace = before ++ .trial secret verdict :: later
        → verdict ≠ .wrong → later = [])
      ∧ (acts trace).countP Act.isTrial
        ≤ cache.entries.length + Acquire.tries * Askpw.maxCandidates
      ∧ (∀ pieces : List Bytes, pieces ≠ [] → (∀ piece ∈ pieces, 0x0a ∉ piece)
        → Askpw.parseCandidates ([0x0a].intercalate pieces)
          = ((pieces.filter fun piece => !piece.isEmpty).take Askpw.maxCandidates).map Secret.mk)
      ∧ ∀ volume path which,
        "--accept-cached" ∈ Child.args (.askPassword volume path which) ↔ which = .first := by
  obtain ⟨gone, rfl, rfl⟩ := acquire_acts run unstopped agrees
  refine ⟨gone, fun secret => ?_, ?_, ?_, ?_, ?_, fun _ => parseCandidates_pieces,
    fun _ _ _ => accept_cached⟩
  · rw [Act.passphrase_iff, List.find?_eq_some_iff_append]
    simp only [Bool.not_eq_eq_eq_not, Bool.not_true, Act.stops_eq_false]
    constructor
    · rintro ⟨_, before, later, split, earlier⟩
      exact ⟨before, later, split, fun other verdict member => (earlier _ member).1 other verdict rfl,
        fun which answer member => (earlier _ member).2 which answer rfl⟩
    · rintro ⟨before, later, split, wrong, offering⟩
      refine ⟨rfl, before, later, split, fun act member => ⟨?_, ?_⟩⟩
      · rintro other verdict rfl
        exact wrong other verdict member
      · rintro which answer rfl
        exact offering which answer member
  · intro none
    rw [none]
    rfl
  · intro secret some
    rw [some, Option.elim_some, Cache.entries_insert]
  · intro before secret verdict later split right
    rw [gone] at split
    refine eq_nil_of_stops split ?_
    cases verdict with
    | wrong => exact absurd rfl right
    | correct | unusable => rfl
  · rw [gone]
    exact ((through_begins _ _).sublist.countP_le).trans (Oracle.count_schedule cache)

section Prompting

private def volume : Volume :=
  ⟨"root", "/dev/vda2", "auto", ⟨[14], by simp, by simp, by simp⟩, .sha256⟩

/-- cryptsetup's answer to a trial and the agent's to a prompt. -/
private def exits (code : Int) (stdout : Bytes) : Output := ⟨⟨some code, "exit status"⟩, stdout, []⟩

private def typed (secret : Secret) : Bool := secret.bytes = [98]

private def human : Oracle where
  judge secret := if typed secret then .correct else .wrong
  prompts _ := .ok (exits 0 [97, 10, 98])

private def exchange : Trace := [
  ⟨.terminating, false⟩,
  ⟨.child (.askPassword "root" "/dev/vda2" .first), .ok (exits 0 [97, 10, 98])⟩,
  ⟨.terminating, false⟩, ⟨.secretFile ⟨[97]⟩, .ok 6⟩,
  ⟨.child (.testPassphrase ⟨5, "/dev/vda2"⟩ ⟨6, ⟨[97]⟩⟩), .ok (exits 2 [])⟩,
  ⟨.terminating, false⟩, ⟨.secretFile ⟨[98]⟩, .ok 6⟩,
  ⟨.child (.testPassphrase ⟨5, "/dev/vda2"⟩ ⟨6, ⟨[98]⟩⟩), .ok (exits 0 [])⟩]

/-- Of two candidates the second one is right. -/
theorem second_candidate
    : (acquire volume ⟨5, "/dev/vda2"⟩ .new).Runs exchange
        (some (some ⟨[98]⟩, Cache.new.insert ⟨[98]⟩))
      ∧ acts exchange = through Act.stops (human.schedule .new) := by
  have run : (acquire volume ⟨5, "/dev/vda2"⟩ .new).Runs exchange
      (some (some ⟨[98]⟩, Cache.new.insert ⟨[98]⟩)) := by
    iterate 8 refine .call _ ?_
    exact .ret _
  have unstopped : Unstopped exchange := by
    intro answer member
    simp only [exchange, List.mem_cons, List.not_mem_nil, or_false] at member
    rcases member with same | same | same | same | same | same | same | same <;> cases same <;> rfl
  have agrees : human.Agrees 0 (acts exchange) := ⟨rfl, rfl, rfl, trivial⟩
  exact ⟨run, (first_correct run unstopped agrees).1⟩

end Prompting

end Tpm2Autoenroll
