import EspressoProxy.Semantics.Machine
import EspressoProxy.Store.EspressoStore
import EspressoProxy.Verifier.Op.Block

/-!
# The OP verifier

One goroutine repeats `verifyAndAdvance`: it refreshes the streamer from the last
finality snapshot, drains the streamer in a loop that verifies one batch per
iteration, and updates the store once. The streamer, the full node, the finality
poller, the disk and the clock answer arbitrarily; their answers are the labels of
`opMachine`. Logging and the measurement of batch latency are left out.
-/

namespace EspressoProxy.Verifier.Op

open EspressoProxy.Ethereum EspressoProxy.Semantics EspressoProxy.Store

/-- A finalized L1 block as the snapshot and the streamer see it. -/
structure L1BlockRef where
  hash : Hash
  number : Nat
  parentHash : Hash
  time : Nat
deriving DecidableEq, Repr

/-- The finality data that the poller caches for the OP verifier. -/
structure OpFinalitySnapshot where
  finalizedL2Number : Nat
  finalizedL2Hash : Hash
  finalizedEthOrigin : BlockID
  finalizedEth : L1BlockRef
deriving DecidableEq, Repr

/-- The calls that reposition the streamer. -/
inductive StreamerCall where
  | refresh (finalizedEth : L1BlockRef) (position : Nat) (ethOrigin : BlockID)
  | next
  | setProperHead (tip : Hash)
deriving DecidableEq, Repr

/-- The error returns of a verification attempt. `external` is an error text of the
streamer or of the full node. -/
inductive VerifyError where
  | forkMismatch (batchNumber : Nat) (batchParent tip : Hash)
  | external (text : String)
  | blockNotFound (number : Nat)
  | conversion (batchNumber : Nat) (cause : BlockError)
  | verification (batchNumber : Nat) (cause : BlockError)
deriving DecidableEq, Repr

/-- The error returns of `refresh`. -/
inductive RefreshError where
  | noSnapshot
  | sync (cause : StoreError)
  | streamer (text : String)
deriving DecidableEq, Repr

/-- The mutable fields of the verifier and its store. -/
structure OpEspressoBatchVerifier where
  store : EspressoState
  file : StateFile
  tip : Hash
  ethOrigin : BlockID
deriving DecidableEq, Repr

/-- What `refresh` gets from the poller, the streamer, the clock and the disk. -/
structure RefreshAnswers where
  snapshot : Option OpFinalitySnapshot
  fallbackHotshotPos : Nat
  now : Nat
  written : Bool
  refreshed : Except String Unit

/-- What one iteration of the drain gets from the streamer and the full node. -/
structure IterationAnswers where
  hasNext : Bool
  update : Except String Unit
  peek : Option EspressoBatch
  blockByNumber : Nat → Except String (Option Block)

/-- Fast-forward the store and the tip to the Ethereum-finalized block when it is
ahead, and return the position to refresh from. -/
def syncEspressoStateWithEthereumFinality (verifier : OpEspressoBatchVerifier)
    (snapshot : OpFinalitySnapshot) (espressoFinalizedBlockNumber : Nat)
    (answers : RefreshAnswers) : OpEspressoBatchVerifier × Except StoreError Nat :=
  if snapshot.finalizedL2Number ≤ espressoFinalizedBlockNumber then
    (verifier, .ok espressoFinalizedBlockNumber)
  else
    match updateIfGreater verifier.store verifier.file snapshot.finalizedL2Number
        answers.fallbackHotshotPos answers.now answers.written with
    | (store, file, .error cause) => ({ verifier with store, file }, .error cause)
    | (store, file, .ok _) =>
        ({ store, file
           tip := snapshot.finalizedL2Hash
           ethOrigin := snapshot.finalizedEthOrigin }, .ok snapshot.finalizedL2Number)

/-- Bring the streamer to the position of the store. The second component lists the
calls made to the streamer. -/
def refresh (verifier : OpEspressoBatchVerifier) (answers : RefreshAnswers) :
    OpEspressoBatchVerifier × List StreamerCall × Except RefreshError Unit :=
  match answers.snapshot with
  | none => (verifier, [], .error .noSnapshot)
  | some snapshot =>
      match syncEspressoStateWithEthereumFinality verifier snapshot
          verifier.store.l2BlockNumber answers with
      | (synced, .error cause) => (synced, [], .error (.sync cause))
      | (synced, .ok fallbackPos) =>
          let ethOrigin :=
            if synced.ethOrigin = .unset then snapshot.finalizedEthOrigin else synced.ethOrigin
          let calls := [.refresh snapshot.finalizedEth fallbackPos ethOrigin]
          match answers.refreshed with
          | .error text => ({ synced with ethOrigin }, calls, .error (.streamer text))
          | .ok () => ({ synced with ethOrigin }, calls, .ok ())

/-- Update the streamer if it has nothing buffered, peek, and check the peeked batch
against the tip. Before any batch was verified there is no tip to check against. -/
def peekNextBatch (tip : Hash) (answers : IterationAnswers) :
    Except VerifyError (Option EspressoBatch) :=
  match (if answers.hasNext then Except.ok () else answers.update) with
  | .error text => .error (.external text)
  | .ok () =>
      match answers.peek with
      | none => .ok none
      | some batch =>
          if tip = 0 then .ok (some batch)
          else if batch.batchHeader.parentHash ≠ tip then
            .error (.forkMismatch batch.number batch.batchHeader.parentHash tip)
          else .ok (some batch)

/-- Fetch the block with the given number from the full node. -/
def getFullNodeBlock (answers : IterationAnswers) (number : Nat) : Except VerifyError Block :=
  match answers.blockByNumber number with
  | .error text => .error (.external text)
  | .ok none => .error (.blockNotFound number)
  | .ok (some block) => .ok block

variable (codec : BlockCodec)

/-- Peek the next batch and verify it against the block of the full node. -/
def verifyNextBatch (tip : Hash) (answers : IterationAnswers) :
    Except VerifyError (Option EspressoBatch) :=
  match peekNextBatch tip answers with
  | .error cause => .error cause
  | .ok none => .ok none
  | .ok (some batch) =>
      match getFullNodeBlock answers batch.number with
      | .error cause => .error cause
      | .ok fullNodeBlock =>
          match espressoBatchToBlock codec fullNodeBlock batch with
          | .error cause => .error (.conversion batch.number cause)
          | .ok espressoBlock =>
              match ensureBlocksMatch codec espressoBlock (filterUserDeposits fullNodeBlock) with
              | .error cause => .error (.verification batch.number cause)
              | .ok () => .ok (some batch)

/-- One accepted batch of a drain, with the tip it was peeked under and the answers
it was verified with. -/
structure Accepted where
  batch : EspressoBatch
  tip : Hash
  answers : IterationAnswers

/-- A drain in progress. The local variable `verifiedBatch` of the loop is the last
of `accepted`; the earlier ones, and where the drain started, are kept for the
statements about a whole drain. -/
structure Drain where
  startTip : Hash
  accepted : List Accepted

/-- Where the verifier goroutine is in `verifyAndAdvance`. -/
inductive Phase where
  | idle
  | draining (drain : Drain)
  | drained (drain : Drain)

/-- The verifier, its control state, the calls it made to the streamer, and whether
a store write has failed since the last successful one. -/
structure OpState where
  verifier : OpEspressoBatchVerifier
  phase : Phase
  calls : List StreamerCall
  writeFailed : Bool

/-- The positions that the streamer was refreshed from, in order. -/
def refreshPositions (calls : List StreamerCall) : List Nat :=
  calls.filterMap fun call =>
    match call with
    | .refresh _ position _ => some position
    | _ => none

/-- The number in the store. -/
def OpState.number (state : OpState) : Nat := state.verifier.store.l2BlockNumber

/-- A verifier that has just been created on a store. -/
def OpState.initial (store : EspressoState) (file : StateFile) : OpState where
  verifier := ⟨store, file, 0, .unset⟩
  phase := .idle
  calls := []
  writeFailed := false

/-- The labels of the verifier: the answers each part of a tick gets, and the
cancellation of its context. -/
inductive Label where
  | refresh (answers : RefreshAnswers)
  | iterate (answers : IterationAnswers)
  | cancel
  | finish (hotshotFallbackPos now : Nat) (written : Bool)

/-- Whether an attempt to update the store writes to disk, and if so whether the
write fails; `before` is the flag without a write. -/
def writeFailedAfter (before : Bool) (store : EspressoState) (number : Nat) (written : Bool) :
    Bool :=
  if store.l2BlockNumber < number then !written else before

/-- The first part of a tick: `refresh`, and the drain if it succeeds. -/
def refreshStep (state : OpState) (answers : RefreshAnswers) : OpState :=
  let writeFailed :=
    match answers.snapshot with
    | none => state.writeFailed
    | some snapshot => writeFailedAfter state.writeFailed state.verifier.store
        snapshot.finalizedL2Number answers.written
  match refresh state.verifier answers with
  | (verifier, calls, .error _) =>
      { state with verifier, calls := state.calls ++ calls, writeFailed }
  | (verifier, calls, .ok ()) =>
      { verifier, writeFailed
        calls := state.calls ++ calls
        phase := .draining ⟨verifier.tip, []⟩ }

/-- One iteration of `drainAndVerifyBatches`. Only a verified batch is popped and
becomes the tip; every other outcome leaves the loop. -/
def drainStep (state : OpState) (drain : Drain) (answers : IterationAnswers) : OpState :=
  match verifyNextBatch codec state.verifier.tip answers with
  | .error (.forkMismatch _ _ _) =>
      { state with
        phase := .drained drain
        calls := state.calls ++ [.setProperHead state.verifier.tip] }
  | .error _ => { state with phase := .drained drain }
  | .ok none => { state with phase := .drained drain }
  | .ok (some batch) =>
      { state with
        verifier := { state.verifier with
          tip := codec.headerHash batch.batchHeader
          ethOrigin := batch.l1Origin }
        phase := .draining { drain with
          accepted := drain.accepted ++ [⟨batch, state.verifier.tip, answers⟩] }
        calls := state.calls ++ [.next] }

/-- The end of a tick: store the number of the last verified batch, if any. -/
def finishStep (state : OpState) (drain : Drain) (hotshotFallbackPos now : Nat)
    (written : Bool) : OpState :=
  match drain.accepted.getLast? with
  | none => { state with phase := .idle }
  | some last =>
      match updateIfGreater state.verifier.store state.verifier.file last.batch.number
          hotshotFallbackPos now written with
      | (store, file, _) =>
          { state with
            verifier := { state.verifier with store, file }
            phase := .idle
            writeFailed := writeFailedAfter state.writeFailed state.verifier.store
              last.batch.number written }

/-- `verifyAndAdvance` in steps. A cancelled drain returns no batch, so the tick ends
without an update. -/
def OpState.step (state : OpState) : Label → Option OpState
  | .refresh answers =>
      match state.phase with
      | .idle => some (refreshStep state answers)
      | _ => none
  | .iterate answers =>
      match state.phase with
      | .draining drain => some (drainStep codec state drain answers)
      | _ => none
  | .cancel =>
      match state.phase with
      | .idle => none
      | _ => some { state with phase := .idle }
  | .finish hotshotFallbackPos now written =>
      match state.phase with
      | .drained drain => some (finishStep state drain hotshotFallbackPos now written)
      | _ => none

/-- The OP verifier against an arbitrary environment. -/
def opMachine : Machine OpState Label where
  step := OpState.step codec

/-! ### What each step can do -/

variable {codec}

/-- What the checks of `VerifyNextBatch` established about an accepted batch: the
full node's block for its number matches, and it builds on the tip if there was
one. -/
def Accepted.Verified (codec : BlockCodec) (accepted : Accepted) : Prop :=
  (∃ fullNodeBlock espressoBlock,
    accepted.answers.blockByNumber accepted.batch.number = .ok (some fullNodeBlock) ∧
    espressoBatchToBlock codec fullNodeBlock accepted.batch = .ok espressoBlock ∧
    ensureBlocksMatch codec espressoBlock (filterUserDeposits fullNodeBlock) = .ok ()) ∧
  (accepted.tip ≠ 0 → accepted.batch.batchHeader.parentHash = accepted.tip)

/-- A batch that passes `peekNextBatch` is the peeked one and builds on the tip. -/
theorem peekNextBatch_some {tip : Hash} {answers : IterationAnswers} {batch : EspressoBatch}
    (peeked : peekNextBatch tip answers = .ok (some batch)) :
    answers.peek = some batch ∧ (tip ≠ 0 → batch.batchHeader.parentHash = tip) := by
  unfold peekNextBatch at peeked
  split at peeked
  · cases peeked
  · split at peeked
    · cases peeked
    · rename_i candidate found
      split at peeked
      · rename_i unset
        cases peeked
        exact ⟨found, fun set => absurd unset set⟩
      · split at peeked
        · cases peeked
        · rename_i chained
          cases peeked
          exact ⟨found, fun _ => not_not.mp chained⟩

theorem getFullNodeBlock_ok {answers : IterationAnswers} {number : Nat} {block : Block}
    (fetched : getFullNodeBlock answers number = .ok block) :
    answers.blockByNumber number = .ok (some block) := by
  unfold getFullNodeBlock at fetched
  split at fetched
  · cases fetched
  · cases fetched
  · rename_i found answered
    cases fetched
    exact answered

/-- `VerifyNextBatch` returns a batch only if all of its checks passed. -/
theorem verifyNextBatch_some {tip : Hash} {answers : IterationAnswers} {batch : EspressoBatch}
    (verified : verifyNextBatch codec tip answers = .ok (some batch)) :
    answers.peek = some batch ∧ (Accepted.mk batch tip answers).Verified codec := by
  unfold verifyNextBatch at verified
  split at verified
  · cases verified
  · cases verified
  · rename_i candidate peeked
    split at verified
    · cases verified
    · rename_i fullNodeBlock fetched
      split at verified
      · cases verified
      · rename_i espressoBlock converted
        split at verified
        · cases verified
        · rename_i matched
          cases verified
          obtain ⟨found, chained⟩ := peekNextBatch_some peeked
          exact ⟨found, ⟨fullNodeBlock, espressoBlock, getFullNodeBlock_ok fetched, converted,
            matched⟩, chained⟩

/-- The outcomes of `refresh`: no snapshot, a fast-forward whose write failed, a
snapshot that is not ahead, and a fast-forward. After the last two the streamer was
called and the drain may or may not begin. -/
inductive RefreshOutcome (before : OpState) (answers : RefreshAnswers) : OpState → Prop where
  | noSnapshot (missing : answers.snapshot = none) : RefreshOutcome before answers before
  | writeFailed {snapshot : OpFinalitySnapshot} (answered : answers.snapshot = some snapshot)
      (ahead : before.number < snapshot.finalizedL2Number) :
      RefreshOutcome before answers { before with writeFailed := true }
  | kept {snapshot : OpFinalitySnapshot} {ethOrigin : BlockID} {phase : Phase}
      (answered : answers.snapshot = some snapshot)
      (notAhead : snapshot.finalizedL2Number ≤ before.number)
      (control : phase = before.phase ∨ phase = .draining ⟨before.verifier.tip, []⟩) :
      RefreshOutcome before answers
        { before with
          verifier := { before.verifier with ethOrigin }
          phase
          calls := before.calls ++
            [.refresh snapshot.finalizedEth before.number ethOrigin] }
  | advanced {snapshot : OpFinalitySnapshot} {phase : Phase}
      (answered : answers.snapshot = some snapshot)
      (ahead : before.number < snapshot.finalizedL2Number)
      (control : phase = before.phase ∨ phase = .draining ⟨snapshot.finalizedL2Hash, []⟩) :
      RefreshOutcome before answers
        { verifier :=
            { store := ⟨snapshot.finalizedL2Number, answers.fallbackHotshotPos, answers.now⟩
              file := .holding
                ⟨snapshot.finalizedL2Number, answers.fallbackHotshotPos, answers.now⟩
              tip := snapshot.finalizedL2Hash
              ethOrigin := snapshot.finalizedEthOrigin }
          phase
          calls := before.calls ++ [.refresh snapshot.finalizedEth snapshot.finalizedL2Number
            snapshot.finalizedEthOrigin]
          writeFailed := false }

/-- The outcomes of the fast-forward: the snapshot is not ahead, the write failed and
nothing changed, or store and tip are those of the snapshot. -/
theorem syncEspressoStateWithEthereumFinality_cases (verifier : OpEspressoBatchVerifier)
    (snapshot : OpFinalitySnapshot) (answers : RefreshAnswers) :
    (snapshot.finalizedL2Number ≤ verifier.store.l2BlockNumber ∧
      syncEspressoStateWithEthereumFinality verifier snapshot verifier.store.l2BlockNumber
        answers = (verifier, .ok verifier.store.l2BlockNumber)) ∨
    (verifier.store.l2BlockNumber < snapshot.finalizedL2Number ∧ answers.written = false ∧
      syncEspressoStateWithEthereumFinality verifier snapshot verifier.store.l2BlockNumber
        answers = (verifier, .error (.updateWriteFailed .writeFailed))) ∨
    (verifier.store.l2BlockNumber < snapshot.finalizedL2Number ∧ answers.written = true ∧
      syncEspressoStateWithEthereumFinality verifier snapshot verifier.store.l2BlockNumber
        answers =
          ({ store := ⟨snapshot.finalizedL2Number, answers.fallbackHotshotPos, answers.now⟩
             file := .holding
               ⟨snapshot.finalizedL2Number, answers.fallbackHotshotPos, answers.now⟩
             tip := snapshot.finalizedL2Hash
             ethOrigin := snapshot.finalizedEthOrigin }, .ok snapshot.finalizedL2Number)) := by
  rcases updateIfGreater_cases verifier.store verifier.file snapshot.finalizedL2Number
      answers.fallbackHotshotPos answers.now answers.written with
    ⟨notAhead, -⟩ | ⟨ahead, failed, outcome⟩ | ⟨ahead, succeeded, outcome⟩
  · exact .inl ⟨notAhead, by simp [syncEspressoStateWithEthereumFinality, notAhead]⟩
  · refine .inr (.inl ⟨ahead, failed, ?_⟩)
    simp [syncEspressoStateWithEthereumFinality, Nat.not_le.mpr ahead, outcome]
  · refine .inr (.inr ⟨ahead, succeeded, ?_⟩)
    simp [syncEspressoStateWithEthereumFinality, Nat.not_le.mpr ahead, outcome]

theorem refreshStep_outcome (before : OpState) (answers : RefreshAnswers) :
    RefreshOutcome before answers (refreshStep before answers) := by
  cases answered : answers.snapshot with
  | none =>
      have unchanged : refreshStep before answers = before := by
        simp [refreshStep, refresh, answered]
      rw [unchanged]
      exact .noSnapshot answered
  | some snapshot =>
      rcases syncEspressoStateWithEthereumFinality_cases before.verifier snapshot answers with
        ⟨notAhead, synced⟩ | ⟨ahead, failed, synced⟩ | ⟨ahead, succeeded, synced⟩
      · have flag : writeFailedAfter before.writeFailed before.verifier.store
            snapshot.finalizedL2Number answers.written = before.writeFailed := by
          simp [writeFailedAfter, Nat.not_lt.mpr notAhead]
        have kept (phase : Phase) := @RefreshOutcome.kept before answers snapshot
          (if before.verifier.ethOrigin = .unset then
            snapshot.finalizedEthOrigin else before.verifier.ethOrigin) phase answered notAhead
        cases refreshed : answers.refreshed with
        | error text =>
            simpa [refreshStep, refresh, answered, synced, refreshed, flag, OpState.number]
              using kept _ (.inl rfl)
        | ok done =>
            simpa [refreshStep, refresh, answered, synced, refreshed, flag, OpState.number]
              using kept _ (.inr rfl)
      · have result : refreshStep before answers = { before with writeFailed := true } := by
          simp [refreshStep, refresh, answered, synced, writeFailedAfter, ahead, failed]
        rw [result]
        exact .writeFailed answered ahead
      · have flag : writeFailedAfter before.writeFailed before.verifier.store
            snapshot.finalizedL2Number answers.written = false := by
          simp [writeFailedAfter, ahead, succeeded]
        have advanced (phase : Phase) := @RefreshOutcome.advanced before answers snapshot phase
          answered ahead
        cases refreshed : answers.refreshed with
        | error text =>
            simpa [refreshStep, refresh, answered, synced, refreshed, flag]
              using advanced _ (.inl rfl)
        | ok done =>
            simpa [refreshStep, refresh, answered, synced, refreshed, flag]
              using advanced _ (.inr rfl)

/-- The outcomes of one drain iteration: it leaves the loop without touching the
verifier, or it accepts the verified batch and pops it. -/
inductive DrainOutcome (codec : BlockCodec) (before : OpState) (drain : Drain)
    (answers : IterationAnswers) : OpState → Prop where
  | stopped {calls : List StreamerCall}
      (rejected : ∀ batch, verifyNextBatch codec before.verifier.tip answers ≠ .ok (some batch))
      (noPop : calls = [] ∨ calls = [.setProperHead before.verifier.tip]) :
      DrainOutcome codec before drain answers
        { before with phase := .drained drain, calls := before.calls ++ calls }
  | accepted {batch : EspressoBatch}
      (verified : verifyNextBatch codec before.verifier.tip answers = .ok (some batch)) :
      DrainOutcome codec before drain answers
        { before with
          verifier := { before.verifier with
            tip := codec.headerHash batch.batchHeader
            ethOrigin := batch.l1Origin }
          phase := .draining { drain with
            accepted := drain.accepted ++ [⟨batch, before.verifier.tip, answers⟩] }
          calls := before.calls ++ [.next] }

theorem drainStep_outcome (before : OpState) (drain : Drain) (answers : IterationAnswers) :
    DrainOutcome codec before drain answers (drainStep codec before drain answers) := by
  cases verified : verifyNextBatch codec before.verifier.tip answers with
  | error cause =>
      have rejected : ∀ batch,
          verifyNextBatch codec before.verifier.tip answers ≠ .ok (some batch) := by
        intro batch equal
        rw [verified] at equal
        cases equal
      cases cause with
      | forkMismatch number parent tip =>
          simpa [drainStep, verified] using DrainOutcome.stopped rejected (.inr rfl)
      | external | blockNotFound | conversion | verification =>
          simpa [drainStep, verified] using DrainOutcome.stopped rejected (.inl rfl)
  | ok found =>
      cases found with
      | none =>
          have rejected : ∀ batch,
              verifyNextBatch codec before.verifier.tip answers ≠ .ok (some batch) := by
            intro batch equal
            rw [verified] at equal
            cases equal
          simpa [drainStep, verified] using DrainOutcome.stopped rejected (.inl rfl)
      | some batch => simpa [drainStep, verified] using DrainOutcome.accepted verified

/-- The outcomes of the end of a tick. -/
inductive FinishOutcome (before : OpState) (drain : Drain) : OpState → Prop where
  | unchanged (notGreater : ∀ last, drain.accepted.getLast? = some last →
        last.batch.number ≤ before.number) :
      FinishOutcome before drain { before with phase := .idle }
  | writeFailed {last : Accepted} (found : drain.accepted.getLast? = some last)
      (greater : before.number < last.batch.number) :
      FinishOutcome before drain { before with phase := .idle, writeFailed := true }
  | stored {last : Accepted} {store : EspressoState}
      (found : drain.accepted.getLast? = some last)
      (greater : before.number < last.batch.number)
      (number : store.l2BlockNumber = last.batch.number) :
      FinishOutcome before drain
        { before with
          verifier := { before.verifier with store, file := .holding store }
          phase := .idle
          writeFailed := false }

theorem finishStep_outcome (before : OpState) (drain : Drain)
    (hotshotFallbackPos now : Nat) (written : Bool) :
    FinishOutcome before drain (finishStep before drain hotshotFallbackPos now written) := by
  cases found : drain.accepted.getLast? with
  | none =>
      have result : FinishOutcome before drain _ := .unchanged (by simp [found])
      simpa [finishStep, found] using result
  | some last =>
      rcases updateIfGreater_cases before.verifier.store before.verifier.file last.batch.number
          hotshotFallbackPos now written with
        ⟨le, outcome⟩ | ⟨greater, rfl, outcome⟩ | ⟨greater, rfl, outcome⟩
      · have result : FinishOutcome before drain _ := .unchanged
          (by simpa [found, OpState.number] using le)
        simpa [finishStep, found, outcome, writeFailedAfter, Nat.not_lt.mpr le] using result
      · have result : FinishOutcome before drain _ := .writeFailed found greater
        simpa [finishStep, found, outcome, writeFailedAfter, greater] using result
      · have result := @FinishOutcome.stored before drain last
          ⟨last.batch.number, hotshotFallbackPos, now⟩ found greater rfl
        simpa [finishStep, found, outcome, writeFailedAfter, greater] using result

/-- Everything a step of the verifier can do. -/
inductive StepOutcome (codec : BlockCodec) (before : OpState) : Label → OpState → Prop where
  | refresh {answers : RefreshAnswers} {after : OpState} (idle : before.phase = .idle)
      (outcome : RefreshOutcome before answers after) :
      StepOutcome codec before (.refresh answers) after
  | iterate {answers : IterationAnswers} {drain : Drain} {after : OpState}
      (draining : before.phase = .draining drain)
      (outcome : DrainOutcome codec before drain answers after) :
      StepOutcome codec before (.iterate answers) after
  | cancel (busy : before.phase ≠ .idle) :
      StepOutcome codec before .cancel { before with phase := .idle }
  | finish {hotshotFallbackPos now : Nat} {written : Bool} {drain : Drain} {after : OpState}
      (drained : before.phase = .drained drain) (outcome : FinishOutcome before drain after) :
      StepOutcome codec before (.finish hotshotFallbackPos now written) after

theorem step_outcome {before after : OpState} {label : Label}
    (transition : before.step codec label = some after) :
    StepOutcome codec before label after := by
  unfold OpState.step at transition
  cases label with
  | refresh answers =>
      cases phase : before.phase with
      | idle =>
          simp only [phase, Option.some.injEq] at transition
          exact .refresh phase (transition ▸ refreshStep_outcome before answers)
      | draining | drained => simp [phase] at transition
  | iterate answers =>
      cases phase : before.phase with
      | draining drain =>
          simp only [phase, Option.some.injEq] at transition
          exact .iterate phase (transition ▸ drainStep_outcome before drain answers)
      | idle | drained => simp [phase] at transition
  | cancel =>
      cases phase : before.phase with
      | idle => simp [phase] at transition
      | draining | drained =>
          simp only [phase, Option.some.injEq] at transition
          exact transition ▸ .cancel (by simp [phase])
  | finish hotshotFallbackPos now written =>
      cases phase : before.phase with
      | drained drain =>
          simp only [phase, Option.some.injEq] at transition
          exact .finish phase
            (transition ▸ finishStep_outcome before drain hotshotFallbackPos now written)
      | idle | draining => simp [phase] at transition

end EspressoProxy.Verifier.Op
