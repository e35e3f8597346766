import EspressoProxy.Verifier.Op.Verifier

/-!
# The OP tag only advances on a match or on Ethereum finality

The invariant is that every batch a drain has accepted so far passed all checks of
`VerifyNextBatch`. Nothing is assumed about the streamer, the full node, the
finality poller or the disk.
-/

namespace EspressoProxy.Verifier.Op

open EspressoProxy.Ethereum EspressoProxy.Semantics EspressoProxy.Store

variable {codec : BlockCodec}

/-- The batches accepted by the drain in progress. -/
def Phase.accepted : Phase → List Accepted
  | .idle => []
  | .draining drain => drain.accepted
  | .drained drain => drain.accepted

/-- Every batch accepted by the drain in progress was verified. -/
def AcceptedVerified (codec : BlockCodec) (state : OpState) : Prop :=
  ∀ accepted ∈ state.phase.accepted, accepted.Verified codec

theorem acceptedVerified_of_idle {state : OpState} (idle : state.phase = .idle) :
    AcceptedVerified codec state := by
  intro accepted member
  rw [idle] at member
  cases member

/-- A refresh starts a drain that has accepted nothing. -/
theorem RefreshOutcome.accepted_nil {before after : OpState} {answers : RefreshAnswers}
    (outcome : RefreshOutcome before answers after) (idle : before.phase = .idle) :
    after.phase.accepted = [] := by
  cases outcome with
  | noSnapshot | writeFailed => rw [idle]; rfl
  | kept _ _ control | advanced _ _ control =>
      rcases control with same | begun
      · rw [same, idle]
        rfl
      · rw [begun]
        rfl

/-- A drain iteration extends the accepted batches by a verified one, if at all. -/
theorem DrainOutcome.acceptedVerified {before after : OpState} {drain : Drain}
    {answers : IterationAnswers} (outcome : DrainOutcome codec before drain answers after)
    (draining : before.phase = .draining drain) (verified : AcceptedVerified codec before) :
    AcceptedVerified codec after := by
  have soFar : ∀ accepted ∈ drain.accepted, accepted.Verified codec := by
    intro accepted member
    apply verified
    rw [draining]
    exact member
  cases outcome with
  | stopped => exact soFar
  | accepted passed =>
      intro accepted member
      rcases List.mem_append.mp member with earlier | last
      · exact soFar accepted earlier
      · rw [List.mem_singleton] at last
        rw [last]
        exact (verifyNextBatch_some passed).2

theorem acceptedVerified_step {before after : OpState} {label : Label}
    (verified : AcceptedVerified codec before)
    (transition : before.step codec label = some after) : AcceptedVerified codec after := by
  cases step_outcome transition with
  | refresh idle outcome =>
      intro accepted member
      rw [outcome.accepted_nil idle] at member
      cases member
  | iterate draining outcome => exact outcome.acceptedVerified draining verified
  | cancel => exact acceptedVerified_of_idle rfl
  | finish _ outcome =>
      cases outcome with
      | unchanged | writeFailed | stored => exact acceptedVerified_of_idle rfl

/-- In every run, whatever the environment answers, the accepted batches of a drain
are verified ones. -/
theorem acceptedVerified_of_reaches {start state : OpState} {labels : List Label}
    (idle : start.phase = .idle) (run : (opMachine codec).Reaches start labels state) :
    AcceptedVerified codec state :=
  run.invariant (acceptedVerified_of_idle idle) fun verified _ transition =>
    acceptedVerified_step verified transition

/-- A step that moves the number in the store moves it forwards, to the finalized
block of the snapshot it used or to the last batch of its drain. -/
theorem step_number_changed {before after : OpState} {label : Label}
    (transition : before.step codec label = some after)
    (changed : after.number ≠ before.number) :
    before.number < after.number ∧
      ((∃ answers snapshot, label = .refresh answers ∧ answers.snapshot = some snapshot ∧
          after.number = snapshot.finalizedL2Number ∧
          after.verifier.tip = snapshot.finalizedL2Hash ∧
          after.verifier.ethOrigin = snapshot.finalizedEthOrigin) ∨
        ∃ drain last, before.phase = .drained drain ∧ drain.accepted.getLast? = some last ∧
          after.number = last.batch.number) := by
  cases step_outcome transition with
  | refresh idle outcome =>
      cases outcome with
      | noSnapshot | writeFailed | kept => exact absurd rfl changed
      | advanced answered ahead => exact ⟨ahead, .inl ⟨_, _, rfl, answered, rfl, rfl, rfl⟩⟩
  | iterate draining outcome =>
      cases outcome with
      | stopped | accepted => exact absurd rfl changed
  | cancel => exact absurd rfl changed
  | finish drained outcome =>
      cases outcome with
      | unchanged | writeFailed => exact absurd rfl changed
      | stored found greater number =>
          have moved : before.number < _ := number ▸ greater
          exact ⟨moved, .inr ⟨_, _, drained, found, number⟩⟩

/-- A drain iteration whose batch is not accepted leaves the verifier alone and
pops nothing. -/
theorem step_rejected {before after : OpState} {answers : IterationAnswers}
    (transition : before.step codec (.iterate answers) = some after)
    (rejected : ∀ batch, verifyNextBatch codec before.verifier.tip answers ≠ .ok (some batch)) :
    after.verifier = before.verifier ∧ after.calls.count .next = before.calls.count .next := by
  cases step_outcome transition with
  | iterate draining outcome =>
      cases outcome with
      | stopped _ noPop =>
          refine ⟨rfl, ?_⟩
          rcases noPop with rfl | rfl <;> simp
      | accepted verified => exact absurd verified (rejected _)

/-- OP safety. Along every run, a change of the number in the store is an increase,
and its new value is the finalized block of the snapshot used (which then is the tip,
with its origin) or the last batch of a drain all of whose batches were verified
against the full node and chained onto the tip. A batch that fails a check changes
neither the store nor the tip nor the origin and is not popped. -/
theorem op_tag_advances_only_on_match_or_finality (start : OpState)
    (idle : start.phase = .idle) {labels : List Label} {before after : OpState} {label : Label}
    (run : (opMachine codec).Reaches start labels before)
    (transition : (opMachine codec).step before label = some after) :
    (after.number ≠ before.number →
      before.number < after.number ∧
        ((∃ answers snapshot, label = .refresh answers ∧ answers.snapshot = some snapshot ∧
            after.number = snapshot.finalizedL2Number ∧
            after.verifier.tip = snapshot.finalizedL2Hash ∧
            after.verifier.ethOrigin = snapshot.finalizedEthOrigin) ∨
          ∃ drain last, before.phase = .drained drain ∧ drain.accepted.getLast? = some last ∧
            after.number = last.batch.number ∧
            ∀ accepted ∈ drain.accepted, accepted.Verified codec)) ∧
    (∀ answers cause, label = .iterate answers →
      verifyNextBatch codec before.verifier.tip answers = .error cause →
      after.verifier.store = before.verifier.store ∧ after.verifier.tip = before.verifier.tip ∧
        after.verifier.ethOrigin = before.verifier.ethOrigin ∧
        after.calls.count .next = before.calls.count .next) := by
  constructor
  · intro changed
    obtain ⟨increased, origin⟩ := step_number_changed transition changed
    refine ⟨increased, ?_⟩
    rcases origin with snapshot | ⟨drain, last, drained, found, number⟩
    · exact .inl snapshot
    · refine .inr ⟨drain, last, drained, found, number, ?_⟩
      have verified := acceptedVerified_of_reaches idle run
      unfold AcceptedVerified at verified
      rw [drained] at verified
      exact verified
  · rintro answers cause rfl failed
    have rejected : ∀ batch,
        verifyNextBatch codec before.verifier.tip answers ≠ .ok (some batch) := by
      intro batch equal
      rw [failed] at equal
      cases equal
    obtain ⟨verifier, popped⟩ := step_rejected transition rejected
    rw [verifier]
    exact ⟨rfl, rfl, rfl, popped⟩

/-- A codec that tells apart blocks of different number or content. -/
def sampleCodec : BlockCodec where
  headerHash header := BitVec.ofNat 256 (header.number + 1)
  encodeBlock block := some (block.header.rest ++ block.transactions.flatMap (·.data))
  unmarshalTransaction bytes := some ⟨2, bytes, []⟩

/-- The block with a given number on top of its predecessor, with one transaction
besides the L1-info deposit. -/
def sampleBlock (number : Nat) : Block where
  header := ⟨BitVec.ofNat 256 number, number, [7]⟩
  transactions := [⟨depositTxType, [1], []⟩, ⟨2, [5], []⟩]
  uncles := []
  withdrawals := none

def sampleBatch (number : Nat) : EspressoBatch where
  batchHeader := (sampleBlock number).header
  l1InfoDeposit := ⟨depositTxType, [1], []⟩
  transactions := [[5]]
  l1Origin := ⟨3, 30⟩

/-- The answers of an iteration that peeks `peek`, with a full node that has every
block. -/
def sampleIteration (peek : Option EspressoBatch) : IterationAnswers where
  hasNext := true
  update := .ok ()
  peek := peek
  blockByNumber number := .ok (some (sampleBlock number))

/-- A refresh from a snapshot of the given block that writes and succeeds. -/
def sampleRefresh (finalized : Nat) : RefreshAnswers where
  snapshot := some ⟨finalized, BitVec.ofNat 256 (finalized + 1), ⟨3, 30⟩, ⟨9, 40, 8, 100⟩⟩
  fallbackHotshotPos := 11
  now := 1
  written := true
  refreshed := .ok ()

/-- A tick that verifies block 5 on a store at 4 and stores it. -/
theorem op_tag_advances_to_verified_block :
    ∃ before after, (opMachine sampleCodec).Reaches (.initial ⟨4, 9, 1⟩ (.holding ⟨4, 9, 1⟩))
        [.refresh (sampleRefresh 3), .iterate (sampleIteration (some (sampleBatch 5))),
          .iterate (sampleIteration none)] before ∧
      (opMachine sampleCodec).step before (.finish 12 2 true) = some after ∧
      before.number = 4 ∧ after.number = 5 ∧ before.number < after.number := by
  obtain ⟨before, after, computed, transition, numberBefore, numberAfter⟩ :
      ∃ before after, (opMachine sampleCodec).exec (fun _ _ => True)
          (.initial ⟨4, 9, 1⟩ (.holding ⟨4, 9, 1⟩))
          [.refresh (sampleRefresh 3), .iterate (sampleIteration (some (sampleBatch 5))),
            .iterate (sampleIteration none)] = some before ∧
        (opMachine sampleCodec).step before (.finish 12 2 true) = some after ∧
        before.number = 4 ∧ after.number = 5 := ⟨_, _, rfl, rfl, rfl, rfl⟩
  have run := Machine.Runs.ofExec computed
  have changed : after.number ≠ before.number := by omega
  have safe := op_tag_advances_only_on_match_or_finality _ rfl run transition
  exact ⟨before, after, run, transition, numberBefore, numberAfter, (safe.1 changed).1⟩

end EspressoProxy.Verifier.Op
