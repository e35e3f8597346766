import EspressoProxy.Verifier.Op.Safety

/-!
# The OP verifier catches up

The other results about the OP verifier bound how far the store may go. Here the streamer
delivers the batches of one rollup in order, and the store reaches all of them. Answers may
still be missing, and the full node may be behind or on another fork: this only delays. What
matters is that the final write of a tick succeeds and that no tick is cancelled, for then
the tip, the store and the position of the streamer agree between two ticks.
-/

namespace EspressoProxy.Verifier.Op

open EspressoProxy.Ethereum EspressoProxy.Semantics EspressoProxy.Store

variable {codec : BlockCodec}

/-- A chain of blocks together with the batches that Espresso finalized for them. -/
structure Rollup (codec : BlockCodec) where
  block : Nat → Block
  batch : Nat → EspressoBatch
  numbered : ∀ number, (batch number).number = number
  linked : ∀ number, (batch (number + 1)).batchHeader.parentHash =
    codec.headerHash (batch number).batchHeader
  agreed : ∀ number, ∃ espressoBlock,
    espressoBatchToBlock codec (block number) (batch number) = .ok espressoBlock ∧
    ensureBlocksMatch codec espressoBlock (filterUserDeposits (block number)) = .ok ()

def Rollup.hash (rollup : Rollup codec) (number : Nat) : Hash :=
  codec.headerHash (rollup.batch number).batchHeader

/-- The number of the last batch that a streamer created at `start` has delivered. -/
def streamerPosition (start : Nat) (calls : List StreamerCall) : Nat :=
  calls.foldl (fun position call =>
    match call with
    | .refresh _ refreshed _ => refreshed
    | .next => position + 1
    | .setProperHead _ => position) start

@[simp] theorem streamerPosition_refresh (start : Nat) (calls : List StreamerCall)
    (finalizedEth : L1BlockRef) (position : Nat) (ethOrigin : BlockID) :
    streamerPosition start (calls ++ [.refresh finalizedEth position ethOrigin]) = position := by
  simp [streamerPosition]

@[simp] theorem streamerPosition_next (start : Nat) (calls : List StreamerCall) :
    streamerPosition start (calls ++ [.next]) = streamerPosition start calls + 1 := by
  simp [streamerPosition]

-- The rollup, and the number that the streamer was created at.
variable (rollup : Rollup codec) (start : Nat)

def OpState.position (state : OpState) : Nat := streamerPosition start state.calls

/-- The poller and the streamer answer from the rollup, if they answer. Every tick that
verified a batch gets to store it. -/
def FromRollup (state : OpState) : Label → Prop
  | .refresh answers => ∀ snapshot, answers.snapshot = some snapshot →
      snapshot.finalizedL2Hash = rollup.hash snapshot.finalizedL2Number
  | .iterate answers => ∀ batch, answers.peek = some batch →
      batch = rollup.batch (state.position start + 1)
  | .cancel => False
  | .finish _ _ written => written = true

/-- Everything answers, and the batches and blocks up to `available` are there. -/
def Serves (available : Nat) (state : OpState) : Label → Prop
  | .refresh answers => answers.written = true ∧ answers.refreshed = .ok () ∧
      ∃ snapshot, answers.snapshot = some snapshot ∧
        snapshot.finalizedL2Hash = rollup.hash snapshot.finalizedL2Number
  | .iterate answers => (answers.hasNext = true ∨ answers.update = .ok ()) ∧
      answers.peek = (if state.position start < available then
        some (rollup.batch (state.position start + 1)) else none) ∧
      ∀ number ≤ available, answers.blockByNumber number = .ok (some (rollup.block number))
  | .cancel => False
  | .finish _ _ written => written = true

/-- The tip is the block at the position of the streamer, and the store is behind that
position by the batches that wait for the end of the tick. -/
structure Level (state : OpState) : Prop where
  tip : state.verifier.tip = 0 ∨ state.verifier.tip = rollup.hash (state.position start)
  counted : state.number + state.phase.accepted.length = state.position start
  last : ∀ accepted, state.phase.accepted.getLast? = some accepted →
    accepted.batch.number = state.position start
  unforked : ∀ tip, .setProperHead tip ∉ state.calls

variable {rollup start}

theorem Serves.fromRollup {available : Nat} {state : OpState} {label : Label}
    (serves : Serves rollup start available state label) :
    FromRollup rollup start state label := by
  cases label with
  | refresh answers =>
      obtain ⟨-, -, snapshot, answered, hash⟩ := serves
      intro other found
      obtain rfl : snapshot = other := Option.some.inj (answered.symm.trans found)
      exact hash
  | iterate answers =>
      obtain ⟨-, peek, -⟩ := serves
      intro batch found
      rw [peek] at found
      split at found
      · exact (Option.some.inj found).symm
      · cases found
  | cancel => exact serves
  | finish => exact serves

/-! ### Agreement between the tip, the store and the streamer -/

/-- The next batch of the rollup passes the check against the tip. -/
theorem Level.peekNextBatch_ne_forkMismatch {state : OpState} {answers : IterationAnswers}
    (level : Level rollup start state)
    (peeked : FromRollup rollup start state (.iterate answers)) (number : Nat)
    (parent tip : Hash) :
    peekNextBatch state.verifier.tip answers ≠ .error (.forkMismatch number parent tip) := by
  intro mismatch
  unfold peekNextBatch at mismatch
  split at mismatch
  · cases mismatch
  · split at mismatch
    · cases mismatch
    · rename_i batch found
      split at mismatch
      · cases mismatch
      · rename_i set
        split at mismatch
        · rename_i differs
          obtain rfl := peeked batch found
          have same := level.tip.resolve_left set
          rw [rollup.linked] at differs
          exact differs same.symm
        · cases mismatch

/-- A rejected batch is not taken for a fork: it leaves no trace in the calls. -/
theorem Level.drainStep_calls {state : OpState} {drain : Drain} {answers : IterationAnswers}
    (level : Level rollup start state)
    (peeked : FromRollup rollup start state (.iterate answers))
    (rejected : ∀ batch, verifyNextBatch codec state.verifier.tip answers ≠ .ok (some batch)) :
    drainStep codec state drain answers = { state with phase := .drained drain } := by
  have noFork := level.peekNextBatch_ne_forkMismatch peeked
  unfold drainStep
  split
  · rename_i number parent tip failed
    -- Only `peekNextBatch` reports a fork.
    unfold verifyNextBatch at failed
    split at failed
    · rename_i cause peek
      cases failed
      exact absurd peek (noFork _ _ _)
    · cases failed
    · rename_i batch peek
      split at failed
      · rename_i cause fetched
        cases failed
        unfold getFullNodeBlock at fetched
        split at fetched <;> cases fetched
      · split at failed
        · cases failed
        · split at failed <;> cases failed
  · rfl
  · rfl
  · rename_i batch accepted
    exact absurd accepted (rejected batch)

/-- With nothing pending, the store is at the position of the streamer. -/
theorem Level.ofNothingPending {state : OpState} (nothing : state.phase.accepted = [])
    (tip : state.verifier.tip = 0 ∨ state.verifier.tip = rollup.hash (state.position start))
    (number : state.number = state.position start)
    (unforked : ∀ tip, .setProperHead tip ∉ state.calls) : Level rollup start state := by
  refine ⟨tip, ?_, ?_, unforked⟩
  · rw [nothing, List.length_nil, Nat.add_zero, number]
  · intro accepted found
    rw [nothing] at found
    cases found

/-- The end of a tick whose write succeeds stores every batch that the drain accepted. -/
theorem Level.finishStep {state : OpState} {drain : Drain} (level : Level rollup start state)
    (drained : state.phase = .drained drain) (hotshotFallbackPos now : Nat) :
    Level rollup start (finishStep state drain hotshotFallbackPos now true) ∧
      (finishStep state drain hotshotFallbackPos now true).phase = .idle ∧
      (finishStep state drain hotshotFallbackPos now true).number = state.position start := by
  have counted := level.counted
  have pending := level.last
  rw [drained] at counted pending
  have stored : ∀ after : OpState, after.phase = .idle → after.calls = state.calls →
      after.verifier.tip = state.verifier.tip → after.number = state.position start →
      Level rollup start after ∧ after.phase = .idle ∧ after.number = state.position start := by
    intro after idle calls tip number
    have position : after.position start = state.position start := by
      rw [OpState.position, calls, OpState.position]
    refine ⟨.ofNothingPending (by rw [idle]; rfl) ?_ (number.trans position.symm)
      (calls ▸ level.unforked), idle, number⟩
    rw [tip, position]
    exact level.tip
  cases found : drain.accepted.getLast? with
  | none =>
      rw [Phase.accepted, List.getLast?_eq_none_iff.mp found] at counted
      refine stored _ ?_ ?_ ?_ ?_ <;> simp only [Op.finishStep, found]
      exact counted
  | some last =>
      have number : last.batch.number = state.position start := pending last found
      have some : 0 < drain.accepted.length := by
        refine List.length_pos_of_ne_nil fun empty => ?_
        rw [empty] at found
        cases found
      have greater : state.verifier.store.l2BlockNumber < last.batch.number := by
        rw [number, ← counted]
        exact Nat.lt_add_of_pos_right some
      rcases updateIfGreater_cases state.verifier.store state.verifier.file last.batch.number
          hotshotFallbackPos now true with ⟨le, -⟩ | ⟨-, failed, -⟩ | ⟨-, -, outcome⟩
      · exact absurd greater (Nat.not_lt.mpr le)
      · cases failed
      · refine stored _ ?_ ?_ ?_ ?_ <;> simp only [Op.finishStep, found, outcome]
        exact number

theorem Level.step {before after : OpState} {label : Label} (level : Level rollup start before)
    (admitted : FromRollup rollup start before label)
    (transition : before.step codec label = some after) : Level rollup start after := by
  have outcome : StepOutcome codec before label after := step_outcome transition
  cases outcome with
  | @refresh answers _ idle outcome =>
      have counted := level.counted
      rw [idle, Phase.accepted, List.length_nil, Nat.add_zero] at counted
      have nothing {phase : Phase} {tip : Hash}
          (control : phase = before.phase ∨ phase = .draining ⟨tip, []⟩) :
          phase.accepted = [] := by
        rcases control with rfl | rfl
        · rw [idle]
          rfl
        · rfl
      cases outcome with
      | noSnapshot => exact level
      | writeFailed => exact ⟨level.tip, level.counted, level.last, level.unforked⟩
      | kept _ _ control =>
          refine .ofNothingPending (nothing control) ?_ ?_ ?_
          · simpa [OpState.position, counted] using level.tip
          · simp [OpState.position, OpState.number]
          · simpa using level.unforked
      | @advanced snapshot _ answered _ control =>
          refine .ofNothingPending (nothing control) ?_ ?_ ?_
          · simpa [OpState.position] using .inr (admitted snapshot answered)
          · simp [OpState.position, OpState.number]
          · simpa using level.unforked
  | @iterate answers drain _ draining outcome =>
      have same : after = drainStep codec before drain answers := by
        simpa [OpState.step, draining] using transition.symm
      have counted := level.counted
      have pending := level.last
      rw [draining] at counted pending
      cases outcome with
      | stopped rejected =>
          rw [same, level.drainStep_calls admitted rejected]
          exact ⟨level.tip, counted, pending, level.unforked⟩
      | @accepted batch verified =>
          obtain ⟨peeked, -⟩ := verifyNextBatch_some verified
          obtain rfl := admitted batch peeked
          refine ⟨.inr ?_, ?_, ?_, ?_⟩
          · simp [OpState.position, Rollup.hash]
          · simp only [Phase.accepted, OpState.position, streamerPosition_next,
              List.length_append, List.length_singleton]
            rw [← Nat.add_assoc]
            exact congrArg (· + 1) counted
          · intro accepted found
            simp only [Phase.accepted, List.getLast?_concat, Option.some.injEq] at found
            subst found
            simpa [OpState.position] using rollup.numbered _
          · simpa using level.unforked
  | cancel => exact admitted.elim
  | @finish hotshotFallbackPos now written drain _ drained _ =>
      have same : after = Op.finishStep before drain hotshotFallbackPos now written := by
        simpa [OpState.step, drained] using transition.symm
      obtain rfl : written = true := admitted
      rw [same]
      exact (level.finishStep drained _ _).1

theorem level_initial (store : EspressoState) (file : StateFile) :
    Level rollup store.l2BlockNumber (.initial store file) :=
  ⟨.inl rfl, rfl, by rintro _ ⟨⟩, by rintro _ ⟨⟩⟩

/-! ### A tick that is served -/

/-- The next batch of the rollup is accepted once the full node has its block. -/
theorem Level.verifyNextBatch_eq {available : Nat} {state : OpState} {answers : IterationAnswers}
    (level : Level rollup start state)
    (serves : Serves rollup start available state (.iterate answers))
    (behind : state.position start < available) :
    verifyNextBatch codec state.verifier.tip answers =
      .ok (some (rollup.batch (state.position start + 1))) := by
  obtain ⟨updated, peek, blocks⟩ := serves
  rw [if_pos behind] at peek
  have ready : (if answers.hasNext then Except.ok () else answers.update) = .ok () := by
    rcases updated with buffered | updated
    · rw [if_pos buffered]
    · rw [updated, ite_self]
  have peeked : peekNextBatch state.verifier.tip answers =
      .ok (some (rollup.batch (state.position start + 1))) := by
    simp only [peekNextBatch, ready, peek]
    rcases level.tip with unset | tip
    · rw [if_pos unset]
    · rw [rollup.linked, tip]
      simp [Rollup.hash]
  have fetched : getFullNodeBlock answers (state.position start + 1) =
      .ok (rollup.block (state.position start + 1)) := by
    simp only [getFullNodeBlock, blocks _ behind]
  obtain ⟨espressoBlock, converted, matched⟩ := rollup.agreed (state.position start + 1)
  simp only [verifyNextBatch, peeked, rollup.numbered, fetched, converted, matched]

theorem verifyNextBatch_none {available : Nat} {state : OpState} {answers : IterationAnswers}
    (serves : Serves rollup start available state (.iterate answers))
    (exhausted : available ≤ state.position start) (tip : Hash) :
    verifyNextBatch codec tip answers = .ok none := by
  obtain ⟨updated, peek, -⟩ := serves
  rw [if_neg (Nat.not_lt.mpr exhausted)] at peek
  rcases updated with buffered | updated
  · simp [verifyNextBatch, peekNextBatch, buffered, peek]
  · simp [verifyNextBatch, peekNextBatch, updated, peek]

/-- A refresh that is served starts a drain, at the store or further on. -/
theorem Level.refreshStep {available : Nat} {state : OpState} {answers : RefreshAnswers}
    (level : Level rollup start state) (idle : state.phase = .idle)
    (serves : Serves rollup start available state (.refresh answers)) :
    (∃ drain, (refreshStep state answers).phase = .draining drain) ∧
      state.position start ≤ (refreshStep state answers).position start := by
  obtain ⟨written, refreshed, snapshot, answered, -⟩ := serves
  have counted : state.verifier.store.l2BlockNumber = state.position start := by
    have counted := level.counted
    rwa [idle, Phase.accepted, List.length_nil, Nat.add_zero] at counted
  rcases syncEspressoStateWithEthereumFinality_cases state.verifier snapshot answers with
    ⟨notAhead, synced⟩ | ⟨ahead, failed, synced⟩ | ⟨ahead, succeeded, synced⟩
  · rw [← counted]
    simp [Op.refreshStep, refresh, answered, synced, refreshed, OpState.position]
  · rw [written] at failed
    cases failed
  · rw [← counted]
    simp [Op.refreshStep, refresh, answered, synced, refreshed, OpState.position,
      Nat.le_of_lt ahead]

/-- The steps of a tick that is served up to `available`. -/
inductive ServedOutcome (start available : Nat) (before : OpState) : Label → OpState → Prop where
  | begins {answers : RefreshAnswers} {drain : Drain} {after : OpState}
      (idle : before.phase = .idle) (draining : after.phase = .draining drain)
      (ahead : before.position start ≤ after.position start) :
      ServedOutcome start available before (.refresh answers) after
  | pops {answers : IterationAnswers} {drain later : Drain} {after : OpState}
      (draining : before.phase = .draining drain) (still : after.phase = .draining later)
      (behind : before.position start < available)
      (popped : after.position start = before.position start + 1) :
      ServedOutcome start available before (.iterate answers) after
  | exhausts {answers : IterationAnswers} {drain : Drain} {after : OpState}
      (draining : before.phase = .draining drain) (drained : after.phase = .drained drain)
      (exhausted : available ≤ before.position start)
      (kept : after.position start = before.position start) :
      ServedOutcome start available before (.iterate answers) after
  | ends {hotshotFallbackPos now : Nat} {drain : Drain} {after : OpState}
      (drained : before.phase = .drained drain) (idle : after.phase = .idle)
      (stored : after.number = before.position start)
      (kept : after.position start = before.position start) :
      ServedOutcome start available before (.finish hotshotFallbackPos now true) after

theorem Level.served {available : Nat} {before after : OpState} {label : Label}
    (level : Level rollup start before) (serves : Serves rollup start available before label)
    (transition : before.step codec label = some after) :
    ServedOutcome start available before label after := by
  have outcome : StepOutcome codec before label after := step_outcome transition
  cases outcome with
  | @refresh answers _ idle _ =>
      obtain rfl : after = Op.refreshStep before answers := by
        simpa [OpState.step, idle] using transition.symm
      obtain ⟨⟨drain, draining⟩, ahead⟩ := level.refreshStep idle serves
      exact .begins idle draining ahead
  | @iterate answers drain _ draining _ =>
      obtain rfl : after = drainStep codec before drain answers := by
        simpa [OpState.step, draining] using transition.symm
      by_cases behind : before.position start < available
      · have verified := level.verifyNextBatch_eq serves behind
        have still : ∃ later, (drainStep codec before drain answers).phase = .draining later :=
          ⟨_, by simp only [drainStep, verified]; rfl⟩
        obtain ⟨later, still⟩ := still
        refine .pops draining still behind ?_
        simp [drainStep, verified, OpState.position]
      · have exhausted := Nat.not_lt.mp behind
        have nothing := verifyNextBatch_none serves exhausted before.verifier.tip
        refine .exhausts draining ?_ exhausted ?_
        · simp only [drainStep, nothing]
        · simp only [drainStep, nothing, OpState.position]
  | cancel => exact serves.elim
  | @finish hotshotFallbackPos now written drain _ drained _ =>
      obtain rfl : after = Op.finishStep before drain hotshotFallbackPos now written := by
        simpa [OpState.step, drained] using transition.symm
      obtain rfl : written = true := serves
      obtain ⟨leveled, idle, stored⟩ := level.finishStep drained hotshotFallbackPos now
      refine .ends drained idle stored ?_
      have counted := leveled.counted
      rw [idle, Phase.accepted, List.length_nil, Nat.add_zero] at counted
      exact counted.symm.trans stored

/-- The steps that are left in a tick. -/
def stepsLeft (start available : Nat) (state : OpState) : Nat :=
  match state.phase with
  | .idle => 0
  | .draining _ => available - state.position start + 2
  | .drained _ => 1

/-- What is available is reached where a tick ends, once its drain found nothing more. -/
def Reached (start available : Nat) (state : OpState) : Prop :=
  match state.phase with
  | .idle => available ≤ state.number
  | .draining _ => True
  | .drained _ => available ≤ state.position start

def Label.isRefresh : Label → Bool
  | .refresh _ => true
  | _ => false

theorem ServedOutcome.reached {available : Nat} {before after : OpState} {label : Label}
    (outcome : ServedOutcome start available before label after)
    (reached : before.phase ≠ .idle → Reached start available before) :
    Reached start available after := by
  unfold Reached
  cases outcome with
  | begins _ draining => rw [draining]; trivial
  | pops _ still => rw [still]; trivial
  | exhausts _ drained exhausted kept =>
      rw [drained]
      exact kept ▸ exhausted
  | ends drained idle stored =>
      rw [idle]
      have before := reached (by rw [drained]; rintro ⟨⟩)
      rw [Reached, drained] at before
      exact stored ▸ before

/-- Every step uses up one of those that are left; a refresh provides them. -/
theorem ServedOutcome.stepsLeft {available base : Nat} {before after : OpState} {label : Label}
    (outcome : ServedOutcome start available before label after)
    (above : base ≤ before.position start) :
    base ≤ after.position start ∧
      1 + stepsLeft start available after ≤ stepsLeft start available before +
        if label.isRefresh then available - base + 3 else 0 := by
  unfold Op.stepsLeft
  cases outcome with
  | begins idle draining ahead =>
      rw [idle, draining]
      simp only [Label.isRefresh, if_true]
      omega
  | pops draining still behind popped =>
      rw [draining, still]
      simp only [popped]
      omega
  | exhausts draining drained exhausted kept =>
      rw [draining, drained]
      simp only [kept]
      omega
  | ends drained idle stored kept =>
      rw [drained, idle]
      simp only [kept]
      omega

/-- What an iteration gets when the batches and blocks up to `available` are there. -/
def servedIteration (rollup : Rollup codec) (start available : Nat) (state : OpState) :
    IterationAnswers where
  hasNext := true
  update := .ok ()
  peek := if state.position start < available then
    some (rollup.batch (state.position start + 1)) else none
  blockByNumber number := .ok (some (rollup.block number))

/-- A refresh with a snapshot of the first block. -/
def servedRefresh (rollup : Rollup codec) : RefreshAnswers where
  snapshot := some ⟨0, rollup.hash 0, .unset, ⟨0, 0, 0, 0⟩⟩
  fallbackHotshotPos := 0
  now := 0
  written := true
  refreshed := .ok ()

/-- A tick under way can go on. -/
theorem exists_served (available : Nat) {state : OpState} (busy : state.phase ≠ .idle) :
    ∃ label after, label.isRefresh = false ∧ Serves rollup start available state label ∧
      state.step codec label = some after := by
  cases phase : state.phase with
  | idle => exact absurd phase busy
  | draining drain =>
      let answers := servedIteration rollup start available state
      exact ⟨.iterate answers, drainStep codec state drain answers, rfl,
        ⟨.inl rfl, rfl, fun _ _ => rfl⟩, by simp only [OpState.step, phase]⟩
  | drained drain =>
      exact ⟨.finish 0 0 true, Op.finishStep state drain 0 0 true, rfl, rfl,
        by simp only [OpState.step, phase]⟩

/-- A tick that has started can end. -/
theorem Level.exists_end {available : Nat} {state : OpState} (level : Level rollup start state) :
    ∃ labels after, (∀ label ∈ labels, label.isRefresh = false) ∧
      (opMachine codec).Runs (Serves rollup start available) state labels after ∧
      after.phase = .idle := by
  have progress : ∀ current, Level rollup start current → 0 < Op.stepsLeft start available current →
      ∃ label next, label.isRefresh = false ∧ Serves rollup start available current label ∧
        (opMachine codec).step current label = some next ∧ Level rollup start next ∧
        Op.stepsLeft start available next < Op.stepsLeft start available current := by
    intro current level pending
    have busy : current.phase ≠ .idle := by
      intro idle
      simp [Op.stepsLeft, idle] at pending
    obtain ⟨label, next, quiet, serves, transition⟩ := exists_served available busy
    obtain ⟨-, lower⟩ := (level.served serves transition).stepsLeft (Nat.zero_le _)
    rw [quiet, if_neg Bool.false_ne_true] at lower
    exact ⟨label, next, quiet, serves, transition, level.step serves.fromRollup transition,
      by omega⟩
  obtain ⟨labels, after, quiet, run, -, done⟩ :=
    Machine.exists_run_of_rank _ (fun label => Label.isRefresh label = false) progress level
  refine ⟨labels, after, quiet, run, ?_⟩
  unfold Op.stepsLeft at done
  split at done
  · assumption
  · omega
  · omega

/-- Whatever the earlier ticks were like, as long as each of them could store what it
verified: between two ticks the store is where the streamer is, so that no batch is skipped
or delivered twice, and the streamer was never told of a fork. Once the batches and blocks up
to `available` are there, a tick takes a bounded number of steps, and every tick brings the
store to `available`. -/
theorem op_ticks_catch_up (rollup : Rollup codec) {store : EspressoState} {file : StateFile}
    {labels : List Label} {before : OpState}
    (run : (opMachine codec).Runs (FromRollup rollup store.l2BlockNumber) (.initial store file)
      labels before) (idle : before.phase = .idle) (available : Nat) :
    before.number = before.position store.l2BlockNumber ∧
    (∀ tip, .setProperHead tip ∉ before.calls) ∧
    (∃ tick after, tick.countP Label.isRefresh = 1 ∧
      (opMachine codec).Runs (Serves rollup store.l2BlockNumber available) before tick after ∧
      after.phase = .idle) ∧
    ∀ ticks after,
      (opMachine codec).Runs (Serves rollup store.l2BlockNumber available) before ticks after →
      ticks.length ≤ ticks.countP Label.isRefresh * (available - before.number + 3) ∧
      (ticks ≠ [] → after.phase = .idle → available ≤ after.number) := by
  have level : Level rollup store.l2BlockNumber before :=
    run.invariant (level_initial store file) Level.step
  have counted := level.counted
  rw [idle, Phase.accepted, List.length_nil, Nat.add_zero] at counted
  refine ⟨counted, level.unforked, ?_, ?_⟩
  · have serves : Serves rollup store.l2BlockNumber available before
        (.refresh (servedRefresh rollup)) := ⟨rfl, rfl, _, rfl, rfl⟩
    have transition : (opMachine codec).step before (.refresh (servedRefresh rollup)) =
        some (Op.refreshStep before (servedRefresh rollup)) := by
      simp only [opMachine, OpState.step, idle]
    have started := level.step serves.fromRollup transition
    obtain ⟨labels, after, quiet, rest, ended⟩ := started.exists_end
    refine ⟨[.refresh (servedRefresh rollup)] ++ labels, after, ?_,
      (Machine.Runs.refl.next _ serves transition).trans rest, ended⟩
    have none : labels.countP Label.isRefresh = 0 :=
      List.countP_eq_zero.mpr fun label member => by simp [quiet label member]
    rw [List.countP_append, none]
    rfl
  · intro ticks after served
    have invariant : Level rollup store.l2BlockNumber after ∧
        before.number ≤ after.position store.l2BlockNumber ∧
        ticks.length + Op.stepsLeft store.l2BlockNumber available after ≤
          ticks.countP Label.isRefresh * (available - before.number + 3) ∧
        (Reached store.l2BlockNumber available after ∨ ticks = [] ∧ after.phase = .idle) := by
      refine served.invariantWithLabels
        (P := fun taken state => Level rollup store.l2BlockNumber state ∧
          before.number ≤ state.position store.l2BlockNumber ∧
          taken.length + Op.stepsLeft store.l2BlockNumber available state ≤
            taken.countP Label.isRefresh * (available - before.number + 3) ∧
          (Reached store.l2BlockNumber available state ∨ taken = [] ∧ state.phase = .idle))
        ⟨level, Nat.le_of_eq counted, by simp [Op.stepsLeft, idle], .inr ⟨rfl, idle⟩⟩ ?_
      rintro taken state label next ⟨level, above, bounded, reached⟩ serves transition
      have outcome := level.served serves transition
      obtain ⟨later, used⟩ := outcome.stepsLeft above
      refine ⟨level.step serves.fromRollup transition, later, ?_, .inl ?_⟩
      · simp only [List.length_append, List.length_singleton, List.countP_append,
          List.countP_singleton, Nat.add_mul]
        split at used
        · rename_i refreshes
          rw [if_pos refreshes]
          omega
        · rename_i quiet
          rw [if_neg quiet]
          omega
      · exact outcome.reached fun busy => reached.resolve_right fun first => busy first.2
    obtain ⟨-, -, bounded, reached⟩ := invariant
    refine ⟨Nat.le_trans (Nat.le_add_right _ _) bounded, fun some ended => ?_⟩
    have final := reached.resolve_right fun first => some first.1
    rwa [Reached, ended] at final

/-- A rollup of blocks that tell each other apart by their number. -/
def sampleRollup : Rollup sampleCodec where
  block := sampleBlock
  batch := sampleBatch
  numbered _ := rfl
  linked _ := rfl
  agreed number := ⟨_, rfl, by
    simp [ensureBlocksMatch, filterUserDeposits, sampleCodec, sampleBatch, sampleBlock,
      Transaction.isDepositTx, depositTxType]⟩

/-- The verifier after a tick that brought a store at 4 to block 5. -/
def sampleLevel : OpState where
  verifier := ⟨⟨5, 12, 2⟩, .holding ⟨5, 12, 2⟩, BitVec.ofNat 256 6, ⟨3, 30⟩⟩
  phase := .idle
  calls := [.refresh ⟨9, 40, 8, 100⟩ 4 ⟨3, 30⟩, .next]
  writeFailed := false

/-- A store at 4 whose tick finds block 5 only; once blocks 6 and 7 are there, a tick stores 7. -/
theorem op_ticks_catch_up_two_behind :
    (opMachine sampleCodec).Runs (FromRollup sampleRollup 4)
        (.initial ⟨4, 9, 1⟩ (.holding ⟨4, 9, 1⟩))
        [.refresh (sampleRefresh 3), .iterate (sampleIteration (some (sampleBatch 5))),
          .iterate (sampleIteration none), .finish 12 2 true] sampleLevel ∧
      ∃ after, (opMachine sampleCodec).Runs (Serves sampleRollup 4 7) sampleLevel
          [.refresh (servedRefresh sampleRollup),
            .iterate (sampleIteration (some (sampleBatch 6))),
            .iterate (sampleIteration (some (sampleBatch 7))),
            .iterate (sampleIteration none), .finish 13 3 true] after ∧
        7 ≤ after.number := by
  have first : FromRollup sampleRollup 4 (.initial ⟨4, 9, 1⟩ (.holding ⟨4, 9, 1⟩))
      (.refresh (sampleRefresh 3)) := by
    rintro snapshot ⟨⟩
    rfl
  have nothing (state : OpState) :
      FromRollup sampleRollup 4 state (.iterate (sampleIteration none)) := by
    rintro batch ⟨⟩
  have started : (opMachine sampleCodec).Runs (FromRollup sampleRollup 4) _ _ _ :=
    Machine.Runs.refl.next _ first rfl
  have accepted := started.next (.iterate (sampleIteration (some (sampleBatch 5))))
    (by rintro batch ⟨⟩; rfl) rfl
  have run : (opMachine sampleCodec).Runs (FromRollup sampleRollup 4) _ _ sampleLevel :=
    (accepted.next _ (nothing _) rfl).next (.finish 12 2 true) rfl rfl
  have refresh : Serves sampleRollup 4 7 sampleLevel (.refresh (servedRefresh sampleRollup)) :=
    ⟨rfl, rfl, _, rfl, rfl⟩
  have refreshed : (opMachine sampleCodec).Runs (Serves sampleRollup 4 7) _ _ _ :=
    Machine.Runs.refl.next _ refresh rfl
  have popped := (refreshed.next (.iterate (sampleIteration (some (sampleBatch 6))))
    ⟨.inl rfl, rfl, fun _ _ => rfl⟩ rfl).next (.iterate (sampleIteration (some (sampleBatch 7))))
    ⟨.inl rfl, rfl, fun _ _ => rfl⟩ rfl
  have served := (popped.next (.iterate (sampleIteration none))
    ⟨.inl rfl, rfl, fun _ _ => rfl⟩ rfl).next (.finish 13 3 true) rfl rfl
  obtain ⟨-, -, -, caughtUp⟩ := @op_ticks_catch_up sampleCodec sampleRollup ⟨4, 9, 1⟩
    (.holding ⟨4, 9, 1⟩) _ sampleLevel run rfl 7
  exact ⟨run, _, served, (caughtUp _ _ served).2 (by simp) rfl⟩

end EspressoProxy.Verifier.Op
