import EspressoProxy.Verifier.Nitro.ParentChain

/-!
# Waiting for finality

With `waitForFinality`, `GetDelayedMessage` asks the parent chain twice: whether the
message is still in the block where it was found, and then whether that block number
is final. The two answers may come from different chains. If the block is replaced
between them, the block that becomes final is not the one that was checked. The
guarantee holds as long as the message stays in its block between the two answers.
-/

namespace EspressoProxy.Verifier.Nitro

open EspressoProxy.Ethereum EspressoProxy.Semantics

variable {config : FetcherConfig}

/-- The chain evolves within its rules and answers `GetDelayedMessage` truthfully.
Polls may get any answer. -/
def AnswersCalls (state : ChainState) : ChainLabel → Prop
  | .evolve next => state.chain.Evolves next
  | .fetcher (.call label) => CallTruthful state.chain state.fetcher label
  | .fetcher (.poll _) => True

/-- While a message is checked but its finality is not, the chain keeps it in its
block. -/
def KeepsChecked (config : FetcherConfig) (state : ChainState) : ChainLabel → Prop
  | .evolve next =>
      match state.fetcher.call with
      | .checked messageIndex message =>
          state.chain.Delivers message.parentBlock messageIndex
              (config.keccak256 message.data) →
            next.Delivers message.parentBlock messageIndex (config.keccak256 message.data)
      | _ => True
  | .fetcher _ => True

/-- What a call between its steps knows: a message looked up has the index asked for,
and a checked one is on the chain. -/
def CheckedDelivered (config : FetcherConfig) (state : ChainState) : Prop :=
  match state.fetcher.call with
  | .lookedUp messageIndex message query =>
      message.messageIndex = messageIndex ∧ query = recheckQuery message
  | .checked messageIndex message =>
      state.chain.Delivers message.parentBlock messageIndex (config.keccak256 message.data)
  | _ => True

/-- A truthful re-check that finds the message proves that it is on the chain. -/
theorem delivers_of_found {chain : ParentChain} {fetcher : FetcherState} {messageIndex : Nat}
    {message : DelayedMessage} {events : Option (List BridgeMessageDelivered)}
    {iterationFails : Bool}
    (phase : fetcher.call = .lookedUp messageIndex message (recheckQuery message))
    (truthful : CallTruthful chain fetcher (.recheck events iterationFails))
    (found : verifyDelayedMessageOnParentChain config message events iterationFails =
      some true) :
    chain.Delivers message.parentBlock message.messageIndex (config.keccak256 message.data) := by
  obtain ⟨answer, rfl, event, member, sameHash⟩ := verifyDelayedMessageOnParentChain_true found
  simp only [CallTruthful, phase] at truthful
  obtain ⟨sameIndex, delivery, inBlock, rfl⟩ :=
    ParentChain.mem_eventsOf.mp (truthful.1 event member)
  exact ⟨delivery, inBlock, sameIndex, sameHash⟩

theorem CallOutcome.checkedDelivered {before after : ChainState} {label : CallLabel}
    (outcome : CallOutcome config before.fetcher label after.fetcher)
    (sameChain : after.chain = before.chain)
    (truthful : CallTruthful before.chain before.fetcher label)
    (prior : CheckedDelivered config before) : CheckedDelivered config after := by
  obtain ⟨chain, fetcher, nextIndex⟩ := after
  cases sameChain
  cases outcome with
  | missing | recheckFailed | gone | unchecked | rewound | final | finished => trivial
  | lookedUp phase present => exact ⟨DelayedMessageCache.messageIndex_of_get present, rfl⟩
  | checked phase answer waits =>
      simp only [CheckedDelivered, phase] at prior
      obtain ⟨rfl, rfl⟩ := prior
      exact delivers_of_found phase truthful answer
  | advanced phase => simp only [CheckedDelivered, phase]

theorem CheckedDelivered.step {before after : ChainState} {label : ChainLabel}
    (prior : CheckedDelivered config before) (answers : AnswersCalls before label)
    (keeps : KeepsChecked config before label)
    (transition : before.step config label = some after) : CheckedDelivered config after := by
  cases label with
  | evolve next =>
      cases transition
      simp only [CheckedDelivered, KeepsChecked] at prior keeps ⊢
      split
      · rename_i phase
        rwa [phase] at prior
      · rename_i phase
        rw [phase] at prior keeps
        exact keeps prior
      · trivial
  | fetcher label =>
      obtain ⟨moved, sameChain, -⟩ := chainStep_fetcher transition
      cases label with
      | poll label =>
          rw [CheckedDelivered, (pollStep_outcome moved).call_eq, sameChain]
          exact prior
      | call label => exact (callStep_outcome moved).checkedDelivered sameChain answers prior

/-- With `waitForFinality`, only the finality check returns data. -/
theorem finality_of_returned {before after : FetcherState} {label : CallLabel}
    {messageIndex : Nat} {data : Bytes} (waits : config.waitForFinality = true)
    (outcome : CallOutcome config before label after)
    (pending : ∀ result, before.call ≠ .returned messageIndex result)
    (returns : after.call = .returned messageIndex (.ok data)) :
    ∃ message header, before.call = .checked messageIndex message ∧ label = .finality header ∧
      ensureFinality message messageIndex header = .ok data := by
  cases outcome with
  | unchecked phase answer immediate =>
      rw [waits] at immediate
      cases immediate
  | @final index message header phase =>
      simp only [CallPhase.returned.injEq] at returns
      obtain ⟨rfl, result⟩ := returns
      exact ⟨message, header, phase, rfl, result⟩
  | advanced => exact absurd returns (pending _)
  | missing | lookedUp | recheckFailed | gone | checked | rewound | finished => cases returns

/-- If the chain keeps a message in its block between the two answers that
`GetDelayedMessage` waits for, then data returned for an index is, at that moment, the
data of a message of that index in the recorded block of the finalized chain. -/
theorem returned_message_is_final {chain : ParentChain} {nextIndex : Nat}
    {labels : List ChainLabel} {before after : ChainState} {messageIndex : Nat} {data : Bytes}
    (waits : config.waitForFinality = true)
    (run : (chainMachine config).Runs
      (fun state label => AnswersCalls state label ∧ KeepsChecked config state label)
      (.initial chain nextIndex) labels before)
    (label : ChainLabel) (answers : AnswersCalls before label)
    (transition : (chainMachine config).step before label = some after)
    (pending : ∀ result, before.fetcher.call ≠ .returned messageIndex result)
    (returns : after.fetcher.call = .returned messageIndex (.ok data)) :
    ∃ message, before.fetcher.call = .checked messageIndex message ∧ message.data = data ∧
      message.parentBlock ≤ after.chain.finalized ∧
      after.chain.Delivers message.parentBlock messageIndex (config.keccak256 data) := by
  have delivered : CheckedDelivered config before :=
    run.invariant (P := CheckedDelivered config) trivial fun prior admitted transition =>
      prior.step admitted.1 admitted.2 transition
  cases label with
  | evolve next =>
      cases transition
      exact absurd returns (pending _)
  | fetcher label =>
      obtain ⟨moved, sameChain, -⟩ := chainStep_fetcher transition
      cases label with
      | poll label =>
          rw [(pollStep_outcome moved).call_eq] at returns
          exact absurd returns (pending _)
      | call label =>
          obtain ⟨message, header, phase, rfl, result⟩ :=
            finality_of_returned waits (callStep_outcome moved) pending returns
          obtain ⟨rfl, number, rfl, final⟩ := ensureFinality_ok result
          have answered : number = before.chain.finalized := answers
          simp only [CheckedDelivered, phase] at delivered
          rw [sameChain]
          exact ⟨message, phase, rfl, answered ▸ final, delivered⟩

/-- Message 0 is found in block 7, which becomes final between the two answers. -/
theorem returned_message_is_final_in_its_block :
    ∃ labels before after,
      (chainMachine sampleConfig).Runs
        (fun state label => AnswersCalls state label ∧ KeepsChecked sampleConfig state label)
        (.initial (sampleChain 7 10 2) 0) labels before ∧
      (chainMachine sampleConfig).step before (.fetcher (.call (.finality (some 10)))) =
        some after ∧
      after.fetcher.call = .returned 0 (.ok [5]) ∧
      ∃ message, before.fetcher.call = .checked 0 message ∧ message.data = [5] ∧
        message.parentBlock ≤ after.chain.finalized ∧
        after.chain.Delivers message.parentBlock 0 (sampleConfig.keccak256 [5]) := by
  have scanned := @sampleScanned_runs
    (fun state label => AnswersCalls state label ∧ KeepsChecked sampleConfig state label)
    fun _ => ⟨trivial, trivial⟩
  have lookedUp := scanned.next (.fetcher (.call (.lookup 0))) ⟨trivial, trivial⟩ rfl
  have checked := lookedUp.next (.fetcher (.call (.recheck (some [sampleEvent 0 5]) false)))
    ⟨⟨by decide, fun _ => rfl⟩, trivial⟩ rfl
  have finalized := checked.next (.evolve (sampleChain 7 12 10))
    ⟨sampleChain_evolves (by decide) (by decide) (by decide), fun delivered => delivered⟩ rfl
  refine ⟨_, _, _, finalized, rfl, rfl, ?_⟩
  exact returned_message_is_final rfl finalized (.fetcher (.call (.finality (some 10)))) rfl rfl
    nofun rfl

/-- Message 0 is checked in block 7. Then the block is replaced by one without it, the
message moves to block 8, and both become final. The data is returned, although block
7 of the finalized chain has no message. -/
theorem returned_message_is_not_final :
    ∃ labels before after message,
      (chainMachine sampleConfig).Runs (TruthfulChain sampleConfig)
        (.initial (sampleChain 7 10 2) 0) labels before ∧
      TruthfulChain sampleConfig before (.fetcher (.call (.finality (some 10)))) ∧
      (chainMachine sampleConfig).step before (.fetcher (.call (.finality (some 10)))) =
        some after ∧
      before.fetcher.call = .checked 0 message ∧
      after.fetcher.call = .returned 0 (.ok message.data) ∧
      ¬ after.chain.Delivers message.parentBlock 0 (sampleConfig.keccak256 message.data) := by
  have scanned := @sampleScanned_runs (TruthfulChain sampleConfig)
    fun truthful => truthful
  have lookedUp := scanned.next (.fetcher (.call (.lookup 0))) trivial rfl
  have checked := lookedUp.next (.fetcher (.call (.recheck (some [sampleEvent 0 5]) false)))
    ⟨by decide, fun _ => rfl⟩ rfl
  have reorganised := checked.next (.evolve (sampleChain 8 12 10))
    ⟨sampleChain_evolves (by decide) (by decide) (by decide), sampleChain_valid 8 12 10⟩ rfl
  refine ⟨_, _, _, ⟨[5], 7, 0, 2⟩, reorganised, rfl, rfl, rfl, rfl, ?_⟩
  rintro ⟨delivery, inBlock, -, -⟩
  cases (mem_sampleChain.mp inBlock).1

end EspressoProxy.Verifier.Nitro
