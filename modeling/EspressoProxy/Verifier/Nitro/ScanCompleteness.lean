import EspressoProxy.Verifier.Nitro.ParentChain
import EspressoProxy.Verifier.Nitro.ScanSafety

/-!
# No delayed message is left behind the scan cursor

Polls scan up to the latest block and move the cursor past it, and only a rewind moves
it back. A rewind starts from a cached message that has left the chain, so a reorg that
puts a new message into a block behind the cursor goes unnoticed. Without such a reorg,
and without a rewind to the start of a poll in flight, every message that is still to
be consumed and lies behind the cursor is cached.
-/

namespace EspressoProxy.Verifier.Nitro

open EspressoProxy.Ethereum EspressoProxy.Semantics

variable {config : FetcherConfig} {startBlock : Nat}

/-! ### The runs -/

/-- Messages are asked for and passed to `Advance` in the order of their indexes. -/
def InOrder (state : ChainState) : FetcherLabel → Prop
  | .call (.lookup messageIndex) => messageIndex = state.nextIndex
  | .call (.advance toMessageIndex) => toMessageIndex ≤ state.nextIndex
  | _ => True

/-- The chain changes between polls only, answers truthfully, and messages are consumed
in order. -/
def ReorgsBetweenPolls (config : FetcherConfig) (state : ChainState) : ChainLabel → Prop
  | .evolve next =>
      state.fetcher.poll = .idle ∧ TruthfulChain config state (.evolve next)
  | .fetcher label => TruthfulChain config state (.fetcher label) ∧ InOrder state label

/-- An index is delivered in a block that was scanned. -/
def DeliveredBehind (startBlock cursor : Nat) (chain : ParentChain) (messageIndex : Nat) : Prop :=
  ∃ block, startBlock ≤ block ∧ block < cursor ∧
    ∃ delivery ∈ chain.blocks block, delivery.event.messageIndex = messageIndex

/-- A change of the chain brings no message that is still to be consumed behind the
cursor, and a rewind does not return the cursor to the start of a poll that has stored
something. -/
def NothingNewBehind (startBlock : Nat) (state : ChainState) : ChainLabel → Prop
  | .evolve next => ∀ messageIndex, state.nextIndex ≤ messageIndex →
      DeliveredBehind startBlock state.fetcher.parentBlockNumber next messageIndex →
      DeliveredBehind startBlock state.fetcher.parentBlockNumber state.chain messageIndex
  | .fetcher label => RewindsElsewhere state.fetcher label

/-! ### The invariant -/

/-- The answers of a poll in flight are complete for its range. -/
def PollPhase.Complete (chain : ParentChain) : PollPhase → Prop
  | .delivered range events => events = chain.eventsIn range.startBlock range.endBlock
  | .storing job => ∀ delivery ∈ chain.deliveriesIn job.range.startBlock job.range.endBlock,
      delivery.log ∈ job.logs
  | _ => True

/-- A call in flight is about the next message to be consumed. -/
def CallPhase.IsFor (messageIndex : Nat) : CallPhase → Prop
  | .lookedUp index _ _ | .rewinding index _ | .checked index _ => index = messageIndex
  | .idle | .returned _ _ => True

/-- Every message that is still to be consumed and lies behind the cursor is cached. -/
def CachedBehind (startBlock : Nat) (chain : ParentChain) (fetcher : FetcherState)
    (nextIndex : Nat) : Prop :=
  ∀ messageIndex, nextIndex ≤ messageIndex →
    DeliveredBehind startBlock fetcher.parentBlockNumber chain messageIndex →
    ∃ message, fetcher.cached messageIndex = some message

structure ScanInvariant (config : FetcherConfig) (startBlock : Nat) (state : ChainState) :
    Prop where
  faithful : state.Faithful config
  accounted : JobsAccounted config state.fetcher
  kept : StoredKept state.fetcher
  complete : state.fetcher.poll.Complete state.chain
  call : state.fetcher.call.IsFor state.nextIndex
  evicted : ∀ message ∈ state.fetcher.evicted, message.messageIndex < state.nextIndex
  behind : CachedBehind startBlock state.chain state.fetcher state.nextIndex

theorem scanInvariant_initial {chain : ParentChain} (valid : chain.Valid config)
    (nextIndex : Nat) :
    ScanInvariant config (initialParentBlockNumber (u64 chain.finalized))
      (.initial chain nextIndex) where
  faithful := faithful_initial valid nextIndex
  accounted := jobsAccounted_initial chain.finalized
  kept := storedKept_initial chain.finalized
  complete := trivial
  call := trivial
  evicted := nofun
  behind := by
    rintro messageIndex - ⟨block, scanned, behind, -⟩
    exact absurd behind (Nat.not_lt.mpr scanned)

/-- The logs of a range pass the filter made from its events. -/
theorem log_mem_logsIn {chain : ParentChain} (valid : chain.Valid config)
    {firstBlock lastBlock : Nat} {delivery : Delivery}
    (member : delivery ∈ chain.deliveriesIn firstBlock lastBlock) :
    delivery.log ∈ chain.logsIn config (collectEvents (chain.eventsIn firstBlock lastBlock))
      firstBlock lastBlock := by
  obtain ⟨block, -, -, inBlock⟩ := ParentChain.mem_deliveriesIn.mp member
  obtain ⟨-, sameAddress, signature, known, topics⟩ := valid.logged inBlock
  have announced : delivery.event ∈ chain.eventsIn firstBlock lastBlock :=
    List.mem_map_of_mem member
  refine List.mem_filter.mpr ⟨List.mem_map_of_mem member, ?_⟩
  simp only [ParentChain.matchesQuery, topics, sameAddress, Bool.and_eq_true,
    List.contains_iff_mem]
  exact ⟨⟨mem_addresses_collectEvents announced, mem_messageIds_collectEvents announced⟩, known⟩

/-- A truthful poll step keeps the answers complete. -/
theorem PollOutcome.complete {chain : ParentChain} {before after : FetcherState}
    {label : PollLabel} (outcome : PollOutcome config before label after)
    (valid : chain.Valid config) (truthful : PollTruthful config chain before label)
    (prior : before.poll.Complete chain) : after.poll.Complete chain := by
  cases outcome with
  | abandoned | latest | finalized | started | updated => trivial
  | noEvents phase =>
      simp only [PollTruthful, phase] at truthful
      intro delivery member
      have announced : delivery.event ∈ chain.eventsIn _ _ := List.mem_map_of_mem member
      rw [← truthful] at announced
      cases announced
  | delivered phase =>
      simp only [PollTruthful, phase] at truthful
      exact truthful
  | logged phase =>
      simp only [PollTruthful, phase] at truthful
      rw [phase] at prior
      have events : _ = chain.eventsIn _ _ := prior
      intro delivery member
      rw [truthful, events]
      exact log_mem_logsIn valid member
  | stored phase next extracted =>
      rw [phase] at prior
      exact prior

/-- When a poll moves the cursor, the messages of its range are cached, unless they
have been consumed. -/
theorem cached_of_scanned {state : ChainState} (invariant : ScanInvariant config startBlock state)
    {job : StoreJob} (storing : state.fetcher.poll = .storing job)
    (finished : job.remaining = [])
    (unmoved : state.fetcher.parentBlockNumber = job.range.startBlock) {delivery : Delivery}
    (member : delivery ∈ state.chain.deliveriesIn job.range.startBlock job.range.endBlock)
    (unconsumed : state.nextIndex ≤ delivery.event.messageIndex) :
    ∃ message, state.fetcher.cached delivery.event.messageIndex = some message := by
  obtain ⟨block, -, -, inBlock⟩ := ParentChain.mem_deliveriesIn.mp member
  have complete := invariant.complete
  rw [storing] at complete
  rcases (invariant.accounted job storing).logs _ (complete delivery member) with
    waiting | ⟨message, stored, transaction, extracted⟩
  · rw [finished] at waiting
    cases waiting
  · have sameIndex : message.messageIndex = delivery.event.messageIndex :=
      Option.some.inj ((extractInboxLog_ok extracted).1.symm.trans
        (invariant.faithful.valid.log_messageIndex inBlock))
    obtain ⟨latest, -, latestIndex, present⟩ :=
      invariant.kept job storing unmoved message stored
    rw [sameIndex] at latestIndex present
    rcases present with cached | evicted
    · exact ⟨latest, cached⟩
    · have consumed := invariant.evicted latest evicted
      omega

/-- A poll step keeps what lies behind the cursor cached. -/
theorem ScanInvariant.cachedBehind_poll {before : ChainState} {after : FetcherState}
    {label : PollLabel} (invariant : ScanInvariant config startBlock before)
    (outcome : PollOutcome config before.fetcher label after) :
    CachedBehind startBlock before.chain after before.nextIndex := by
  cases outcome with
  | abandoned | latest | finalized | started | noEvents | delivered | logged =>
      exact invariant.behind
  | @stored job log rest transaction message phase next extracted =>
      intro messageIndex unconsumed behind
      obtain ⟨cached, found⟩ := invariant.behind messageIndex unconsumed behind
      have inserted := DelayedMessageCache.get_insert before.fetcher.fetcher.delayedMessages
        message messageIndex
      by_cases same : messageIndex = message.messageIndex
      · exact ⟨message, inserted.trans (if_pos same)⟩
      · exact ⟨cached, inserted.trans ((if_neg same).trans found)⟩
  | @updated job phase finished =>
      intro messageIndex unconsumed behind
      simp only [FetcherState.cached,
        DelayedMessageFetcher.delayedMessages_updateParentBlockNumber]
      by_cases unmoved : before.fetcher.parentBlockNumber = job.range.startBlock
      · have moved := DelayedMessageFetcher.updateParentBlockNumber_of_eq unmoved
          (u64 (job.range.endBlock + 1))
        simp only [FetcherState.parentBlockNumber, moved] at behind
        obtain ⟨block, scanned, below, delivery, inBlock, rfl⟩ := behind
        have reduced := u64_le (job.range.endBlock + 1)
        -- Blocks before the range were behind the cursor already.
        rcases Nat.lt_or_ge block job.range.startBlock with earlier | inRange
        · exact invariant.behind _ unconsumed
            ⟨block, scanned, unmoved ▸ earlier, delivery, inBlock, rfl⟩
        · exact cached_of_scanned invariant phase finished unmoved
            (ParentChain.mem_deliveriesIn.mpr ⟨block, inRange, by omega, inBlock⟩) unconsumed
      · have skipped : before.fetcher.fetcher.updateParentBlockNumber job.range.startBlock
            (u64 (job.range.endBlock + 1)) = before.fetcher.fetcher := by
          simp only [DelayedMessageFetcher.updateParentBlockNumber]
          exact if_pos unmoved
        simp only [FetcherState.parentBlockNumber, skipped] at behind
        exact invariant.behind messageIndex unconsumed behind

theorem PollOutcome.evicted_subset {before after : FetcherState} {label : PollLabel}
    (outcome : PollOutcome config before label after) {message : DelayedMessage}
    (member : message ∈ after.evicted) : message ∈ before.evicted := by
  cases outcome with
  | started => cases member
  | abandoned | latest | finalized | noEvents | delivered | logged | stored | updated =>
      exact member

theorem ScanInvariant.poll {before after : ChainState} {label : PollLabel}
    (invariant : ScanInvariant config startBlock before)
    (truthful : TruthfulChain config before (.fetcher (.poll label)))
    (transition : before.step config (.fetcher (.poll label)) = some after) :
    ScanInvariant config startBlock after := by
  obtain ⟨moved, sameChain, sameNext⟩ := chainStep_fetcher transition
  have faithful := invariant.faithful.step truthful transition
  have outcome := pollStep_outcome moved
  obtain ⟨chain, fetcher, nextIndex⟩ := after
  cases sameChain
  cases sameNext
  exact {
    faithful
    accounted := outcome.jobsAccounted invariant.accounted
    kept := outcome.storedKept invariant.kept
    complete := outcome.complete invariant.faithful.valid truthful invariant.complete
    call := outcome.call_eq ▸ invariant.call
    evicted := fun message member => invariant.evicted message (outcome.evicted_subset member)
    behind := invariant.cachedBehind_poll outcome }

/-- A rewind leaves nothing behind the cursor: the message found gone was above the
block that the cursor returns to, so up to that block only consumed messages lie. -/
theorem ScanInvariant.cachedBehind_rewind {before : ChainState}
    (invariant : ScanInvariant config startBlock before) {messageIndex : Nat}
    {message : DelayedMessage} (phase : before.fetcher.call = .rewinding messageIndex message)
    (call : CallPhase) :
    CachedBehind startBlock before.chain
      { before.fetcher with fetcher := before.fetcher.fetcher.rewind message, call }
      before.nextIndex := by
  rintro index unconsumed ⟨block, -, below, delivery, inBlock, rfl⟩
  have sameNext := invariant.call
  have faithful := invariant.faithful.call
  rw [phase] at sameNext faithful
  obtain ⟨sameIndex, faithful, above⟩ := faithful
  have isNext : messageIndex = before.nextIndex := sameNext
  have earlier : block < message.finalizedBlock := below
  have consumed := faithful.above above block (Nat.le_of_lt earlier) delivery inBlock
  omega

/-- `Advance` removes consumed messages only. -/
theorem ScanInvariant.cachedBehind_advance {before : ChainState}
    (invariant : ScanInvariant config startBlock before) (toMessageIndex : Nat)
    (evicted : List DelayedMessage) :
    CachedBehind startBlock before.chain
      { before.fetcher with fetcher := before.fetcher.fetcher.advance toMessageIndex, evicted }
      (max before.nextIndex (toMessageIndex + 1)) := by
  intro index unconsumed behind
  obtain ⟨message, found⟩ := invariant.behind index (by omega) behind
  have kept := DelayedMessageCache.get_advance before.fetcher.fetcher.delayedMessages
    toMessageIndex index
  exact ⟨message, kept.trans ((if_neg (by omega)).trans found)⟩

theorem ScanInvariant.call_step {before after : ChainState} {label : CallLabel}
    (invariant : ScanInvariant config startBlock before)
    (truthful : TruthfulChain config before (.fetcher (.call label)))
    (ordered : InOrder before (.call label))
    (elsewhere : RewindsElsewhere before.fetcher (.call label))
    (transition : before.step config (.fetcher (.call label)) = some after) :
    ScanInvariant config startBlock after := by
  obtain ⟨moved, sameChain, sameNext⟩ := chainStep_fetcher transition
  have faithful := invariant.faithful.step truthful transition
  have outcome := callStep_outcome moved
  have accounted := JobsAccounted.step invariant.accounted moved
  have kept := StoredKept.step invariant.kept elsewhere moved
  have complete := invariant.complete
  rw [← outcome.poll_eq, ← sameChain] at complete
  obtain ⟨chain, fetcher, nextIndex⟩ := after
  cases sameChain
  cases sameNext
  have call := invariant.call
  cases outcome with
  | lookedUp phase present =>
      exact ⟨faithful, accounted, kept, complete, ordered, invariant.evicted, invariant.behind⟩
  | gone phase answer | checked phase answer waits =>
      rw [phase] at call
      exact ⟨faithful, accounted, kept, complete, call, invariant.evicted, invariant.behind⟩
  | missing | recheckFailed | unchecked | final | finished =>
      exact ⟨faithful, accounted, kept, complete, trivial, invariant.evicted, invariant.behind⟩
  | rewound phase =>
      exact ⟨faithful, accounted, kept, complete, trivial, invariant.evicted,
        invariant.cachedBehind_rewind phase _⟩
  | @advanced toMessageIndex phase =>
      refine ⟨faithful, accounted, kept, complete, ?_, ?_, invariant.cachedBehind_advance _ _⟩
      · simp only [phase]
        trivial
      · intro message member
        change message.messageIndex < max before.nextIndex (toMessageIndex + 1)
        rcases List.mem_append.mp member with old | new
        · have consumed := invariant.evicted message old
          omega
        · have removed := DelayedMessageCache.messageIndex_le_of_mem_evictedBy new
          omega

theorem ScanInvariant.evolve {before : ChainState} {next : ParentChain}
    (invariant : ScanInvariant config startBlock before) (idle : before.fetcher.poll = .idle)
    (truthful : TruthfulChain config before (.evolve next))
    (nothingNew : NothingNewBehind startBlock before (.evolve next)) :
    ScanInvariant config startBlock { before with chain := next } where
  faithful := invariant.faithful.step truthful rfl
  accounted := invariant.accounted
  kept := invariant.kept
  complete := by
    simp only [idle]
    trivial
  call := invariant.call
  evicted := invariant.evicted
  behind := by
    intro messageIndex unconsumed behind
    exact invariant.behind messageIndex unconsumed (nothingNew messageIndex unconsumed behind)

theorem ScanInvariant.step {before after : ChainState} {label : ChainLabel}
    (invariant : ScanInvariant config startBlock before)
    (admitted : ReorgsBetweenPolls config before label)
    (nothingNew : NothingNewBehind startBlock before label)
    (transition : before.step config label = some after) :
    ScanInvariant config startBlock after := by
  cases label with
  | evolve next =>
      cases transition
      exact invariant.evolve admitted.1 admitted.2 nothingNew
  | fetcher label =>
      obtain ⟨truthful, ordered⟩ := admitted
      cases label with
      | poll label => exact invariant.poll truthful transition
      | call label => exact invariant.call_step truthful ordered nothingNew transition

/-- In every run in which the chain changes between polls only, no change of the chain
brings an unconsumed message behind the cursor, and no rewind returns the cursor to the
start of a poll that has stored something: the next message to be consumed is cached
if it lies in a block that was scanned. -/
theorem scan_complete {chain : ParentChain} {nextIndex : Nat} {labels : List ChainLabel}
    {state : ChainState} (valid : chain.Valid config)
    (run : (chainMachine config).Runs
      (fun state label => ReorgsBetweenPolls config state label ∧
        NothingNewBehind (initialParentBlockNumber (u64 chain.finalized)) state label)
      (.initial chain nextIndex) labels state)
    (scanned : DeliveredBehind (initialParentBlockNumber (u64 chain.finalized))
      state.fetcher.parentBlockNumber state.chain state.nextIndex) :
    ∃ message, state.fetcher.cached state.nextIndex = some message := by
  have invariant : ScanInvariant config (initialParentBlockNumber (u64 chain.finalized)) state :=
    run.invariant (scanInvariant_initial valid nextIndex) fun invariant admitted transition =>
      invariant.step admitted.1 admitted.2 transition
  exact invariant.behind _ (Nat.le_refl _) scanned

/-- In `sampleChain` only index 0 is delivered, in its block. -/
theorem deliveredBehind_sampleChain {block latest finalized first cursor messageIndex : Nat} :
    DeliveredBehind first cursor (sampleChain block latest finalized) messageIndex ↔
      first ≤ block ∧ block < cursor ∧ messageIndex = 0 := by
  constructor
  · rintro ⟨number, scanned, behind, delivery, inBlock, rfl⟩
    obtain ⟨rfl, rfl⟩ := mem_sampleChain.mp inBlock
    exact ⟨scanned, behind, rfl⟩
  · rintro ⟨scanned, behind, rfl⟩
    exact ⟨block, scanned, behind, _, mem_sampleChain.mpr ⟨rfl, rfl⟩, rfl⟩

/-- A reorg that moves message 0 from block 7 to block 8, both behind the cursor. -/
theorem scan_complete_after_reorg :
    ∃ labels state,
      (chainMachine sampleConfig).Runs
        (fun state label => ReorgsBetweenPolls sampleConfig state label ∧
          NothingNewBehind (initialParentBlockNumber (u64 2)) state label)
        (.initial (sampleChain 7 10 2) 0) labels state ∧
      state.chain = sampleChain 8 12 2 ∧ state.fetcher.parentBlockNumber = 11 ∧
      ∃ message, state.fetcher.cached state.nextIndex = some message := by
  have scanned := @sampleScanned_runs
    (fun state label => ReorgsBetweenPolls sampleConfig state label ∧
      NothingNewBehind (initialParentBlockNumber (u64 2)) state label)
    fun truthful => ⟨⟨truthful, trivial⟩, trivial⟩
  have moved : NothingNewBehind (initialParentBlockNumber (u64 2)) sampleScanned
      (.evolve (sampleChain 8 12 2)) := by
    intro messageIndex unconsumed behind
    obtain ⟨-, -, rfl⟩ := deliveredBehind_sampleChain.mp behind
    exact deliveredBehind_sampleChain.mpr ⟨by decide, by decide, rfl⟩
  have reorganised := scanned.next (.evolve (sampleChain 8 12 2))
    ⟨⟨rfl, sampleChain_evolves (by decide) (by decide) (by decide), sampleChain_valid 8 12 2⟩,
      moved⟩ rfl
  refine ⟨_, _, reorganised, rfl, rfl, ?_⟩
  exact scan_complete (sampleChain_valid 7 10 2) reorganised
    (deliveredBehind_sampleChain.mpr ⟨by decide, by decide, rfl⟩)

/-- A chain without messages. -/
def sampleEmptyChain (latest finalized : Nat) : ParentChain where
  blocks _ := []
  latest := latest
  finalized := finalized

theorem sampleEmptyChain_evolves {latest finalized newBlock newLatest : Nat}
    (above : finalized < newBlock) :
    (sampleEmptyChain latest finalized).Evolves (sampleChain newBlock newLatest finalized) where
  finalized_le := Nat.le_refl finalized
  stable := by
    intro number bounded
    have final : number ≤ finalized := bounded
    simp only [sampleEmptyChain, sampleChain]
    rw [if_neg (by omega)]

/-- A poll scans blocks 0 to 10 and finds nothing. Then the blocks above 2 are replaced,
and the new block 7 has message 0, behind the cursor and not in the cache. -/
theorem scan_incomplete_after_reorg :
    ∃ labels state,
      (sampleEmptyChain 10 2).Valid sampleConfig ∧
      (chainMachine sampleConfig).Runs (ReorgsBetweenPolls sampleConfig)
        (.initial (sampleEmptyChain 10 2) 0) labels state ∧
      state.fetcher.poll = .idle ∧
      DeliveredBehind (initialParentBlockNumber (u64 2)) state.fetcher.parentBlockNumber
        state.chain state.nextIndex ∧
      state.fetcher.cached state.nextIndex = none := by
  have started : (chainMachine sampleConfig).Runs (ReorgsBetweenPolls sampleConfig)
      (.initial (sampleEmptyChain 10 2) 0) _ _ := .refl
  have latest := started.next (.fetcher (.poll (.latest (some 10)))) ⟨rfl, trivial⟩ rfl
  have finalized := latest.next (.fetcher (.poll (.finalized (some 2)))) ⟨rfl, trivial⟩ rfl
  have scanning := finalized.next (.fetcher (.poll .start)) ⟨trivial, trivial⟩ rfl
  have nothing := scanning.next (.fetcher (.poll (.bridge (some [])))) ⟨rfl, trivial⟩ rfl
  have moved := nothing.next (.fetcher (.poll .update)) ⟨trivial, trivial⟩ rfl
  have reorganised := moved.next (.evolve (sampleChain 7 11 2))
    ⟨rfl, sampleEmptyChain_evolves (by decide), sampleChain_valid 7 11 2⟩ rfl
  refine ⟨_, _, ⟨nofun, nofun, nofun, nofun⟩, reorganised, rfl, ?_, rfl⟩
  exact deliveredBehind_sampleChain.mpr ⟨by decide, by decide, rfl⟩

end EspressoProxy.Verifier.Nitro
