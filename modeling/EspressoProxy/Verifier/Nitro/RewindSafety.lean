import EspressoProxy.Verifier.Nitro.ParentChain

/-!
# A rewind goes back far enough

A rewind forgets every cached message and continues the scan at the finalized height that
the poll recorded with the message that is gone. That height may be old by then. Still, no
message that can be requested afterwards is at or below it: the message that is gone was
found above it, so the blocks up to it hold smaller indexes only, and they never change.
-/

namespace EspressoProxy.Verifier.Nitro

open EspressoProxy.Ethereum EspressoProxy.Semantics

/-- The indexes that `GetDelayedMessage` was called with. -/
def requested : List ChainLabel → List Nat :=
  List.filterMap fun
    | .fetcher (.call (.lookup messageIndex)) => some messageIndex
    | _ => none

variable {config : FetcherConfig} {start : ChainState}

theorem requested_append (labels more : List ChainLabel) :
    requested (labels ++ more) = requested labels ++ requested more :=
  List.filterMap_append

/-- A call in progress is about an index that was requested. -/
theorem index_mem_requested {admits : ChainState → ChainLabel → Prop} {state : ChainState}
    {labels : List ChainLabel} (idle : start.fetcher.call = .idle)
    (run : (chainMachine config).Runs admits start labels state) {messageIndex : Nat}
    (current : state.fetcher.call.index? = some messageIndex) :
    messageIndex ∈ requested labels := by
  revert messageIndex
  refine run.invariantWithLabels (P := fun labels state => ∀ {messageIndex},
    state.fetcher.call.index? = some messageIndex → messageIndex ∈ requested labels) ?_ ?_
  · intro messageIndex current
    rw [idle] at current
    cases current
  · intro taken before label after prior _ transition messageIndex current
    rw [requested_append]
    cases label with
    | evolve next =>
        cases transition
        exact List.mem_append_left _ (prior current)
    | fetcher label =>
        have moved := (chainStep_fetcher transition).1
        cases label with
        | poll label =>
            rw [(pollStep_outcome moved).call_eq] at current
            exact List.mem_append_left _ (prior current)
        | call label =>
            -- Only a lookup starts a call; every other step keeps its index or ends it.
            by_cases isLookup : ∃ index, label = .lookup index
            · obtain ⟨index, rfl⟩ := isLookup
              cases (index_of_lookup moved).symm.trans current
              exact List.mem_append_right _ (List.mem_singleton_self _)
            · by_cases isFinish : label = .finish
              · subst isFinish
                obtain ⟨chain, fetcher, nextIndex⟩ := after
                cases callStep_outcome moved
                cases current
              · rw [index_of_callStep (fun index equal => isLookup ⟨index, equal⟩) isFinish moved]
                  at current
                exact List.mem_append_left _ (prior current)

/-- What the recorded height says about a message stays true along a run. -/
theorem DelayedMessage.Faithful.of_runs {message : DelayedMessage} {before after : ChainState}
    {labels : List ChainLabel} (faithful : message.Faithful config before.chain)
    (run : (chainMachine config).Runs (TruthfulChain config) before labels after) :
    message.Faithful config after.chain := by
  refine run.invariant (P := fun state => message.Faithful config state.chain) faithful ?_
  intro state label next prior truthful transition
  cases label with
  | evolve chain =>
      cases transition
      exact prior.evolve truthful.1
  | fetcher label =>
      rw [(chainStep_fetcher transition).2.1]
      exact prior

/-- A rewind skips nothing. When a call finds its entry gone, then on the chain at that
moment and on every later one the messages from the requested index on are above the
recorded finalized height, where the rewind puts the cursor. If indexes are requested in
order, these are all the messages that are requested from then on. -/
theorem rewind_goes_back_far_enough {chain : ParentChain} {nextIndex messageIndex : Nat}
    {message : DelayedMessage} {labels more : List ChainLabel} {before later : ChainState}
    (valid : chain.Valid config)
    (run : (chainMachine config).Runs (TruthfulChain config) (.initial chain nextIndex) labels
      before)
    (gone : before.fetcher.call = .rewinding messageIndex message)
    (rest : (chainMachine config).Runs (TruthfulChain config) before more later)
    (inOrder : (requested (labels ++ more)).Pairwise (· ≤ ·)) :
    (∀ after, before.step config (.fetcher (.call .rewind)) = some after →
      after.fetcher.parentBlockNumber = message.finalizedBlock ∧
        ∀ index, after.fetcher.cached index = none) ∧
    (∀ block, ∀ delivery ∈ later.chain.blocks block,
      messageIndex ≤ delivery.event.messageIndex → message.finalizedBlock < block) ∧
    ∀ index ∈ requested more, ∀ block, ∀ delivery ∈ later.chain.blocks block,
      delivery.event.messageIndex = index → message.finalizedBlock < block := by
  have call := (faithful_of_runs valid run).call
  rw [gone] at call
  obtain ⟨sameIndex, faithful, above⟩ := call
  have lower : ∀ block, ∀ delivery ∈ later.chain.blocks block,
      messageIndex ≤ delivery.event.messageIndex → message.finalizedBlock < block := by
    intro block delivery inBlock atLeast
    apply Nat.lt_of_not_le
    intro bounded
    have smaller := (faithful.of_runs rest).above above block bounded delivery inBlock
    omega
  refine ⟨?_, lower, ?_⟩
  · intro after rewinds
    obtain ⟨moved, -, -⟩ := chainStep_fetcher rewinds
    obtain ⟨chain, fetcher, nextIndex⟩ := after
    cases callStep_outcome moved with
    | rewound phase =>
        cases gone.symm.trans phase
        exact ⟨rfl, fun index => DelayedMessageCache.get_empty index⟩
  · intro index member block delivery inBlock same
    have asked : messageIndex ∈ requested labels :=
      index_mem_requested rfl run (by rw [gone]; rfl)
    rw [requested_append] at inOrder
    have ordered := (List.pairwise_append.mp inOrder).2.2 _ asked _ member
    exact lower block delivery inBlock (same ▸ ordered)

/-- Message 0 was found in block 7, where block 2 was final, and moves to block 8. The
rewind goes back to block 2, and the message is requested again after block 8 became
final. -/
theorem rewind_goes_back_below_moved_message :
    ∃ labels more before later,
      (chainMachine sampleConfig).Runs (TruthfulChain sampleConfig)
        (.initial (sampleChain 7 10 2) 0) labels before ∧
      before.fetcher.call = .rewinding 0 ⟨[5], 7, 0, 2⟩ ∧
      (chainMachine sampleConfig).Runs (TruthfulChain sampleConfig) before more later ∧
      0 ∈ requested more ∧ later.chain.finalized = 9 ∧
      ∀ block, ∀ delivery ∈ later.chain.blocks block, delivery.event.messageIndex = 0 →
        2 < block := by
  have scanned := @sampleScanned_runs (TruthfulChain sampleConfig)
    fun truthful => truthful
  have moved := scanned.next (.evolve (sampleChain 8 10 2))
    ⟨sampleChain_evolves (by decide) (by decide) (by decide), sampleChain_valid 8 10 2⟩ rfl
  have lookedUp := moved.next (.fetcher (.call (.lookup 0))) trivial rfl
  have gone := lookedUp.next (.fetcher (.call (.recheck (some []) false)))
    ⟨by decide, fun _ => rfl⟩ rfl
  have atGone : (chainMachine sampleConfig).Runs (TruthfulChain sampleConfig)
      ⟨sampleChain 8 10 2,
        { sampleScanned.fetcher with call := .rewinding 0 ⟨[5], 7, 0, 2⟩ }, 0⟩ _ _ := .refl
  have rewound := atGone.next (.fetcher (.call .rewind)) trivial rfl
  have finished := rewound.next (.fetcher (.call .finish)) trivial rfl
  have finalized := finished.next (.evolve (sampleChain 8 12 9))
    ⟨sampleChain_evolves (by decide) (by decide) (by decide), sampleChain_valid 8 12 9⟩ rfl
  have again := finalized.next (.fetcher (.call (.lookup 0))) trivial rfl
  have skipsNothing := rewind_goes_back_far_enough (sampleChain_valid 7 10 2) gone rfl again
    (by decide)
  exact ⟨_, _, _, _, gone, rfl, again, by decide, rfl, skipsNothing.2.2 0 (by decide)⟩

end EspressoProxy.Verifier.Nitro
