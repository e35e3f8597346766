import EspressoProxy.Verifier.Nitro.FetcherMachine
import Mathlib.Data.List.Range

/-!
# The fetcher on an evolving parent chain

Here the answers that the fetcher gets come from a parent chain that may change
between any two calls: it grows, it finalizes, and blocks above the finalized height
are replaced. What the fetcher keeps about a message then stays connected to the
chain through the finalized height recorded with it. A message found at or below that
height stays where it was found. For one found above it, the blocks up to that height
hold smaller indexes only.
-/

namespace EspressoProxy.Verifier.Nitro

open EspressoProxy.Ethereum EspressoProxy.Semantics

/-- A delayed message on the parent chain: the event of the Bridge and the log of the
Inbox that sent it. -/
structure Delivery where
  event : BridgeMessageDelivered
  log : Log
deriving DecidableEq, Repr

/-- The canonical chain at one moment, with the messages delivered in each block. -/
structure ParentChain where
  blocks : Nat → List Delivery
  latest : Nat
  finalized : Nat

namespace ParentChain

/-- The deliveries of a range of blocks, in chain order. -/
def deliveriesIn (chain : ParentChain) (startBlock endBlock : Nat) : List Delivery :=
  (List.range' startBlock (endBlock + 1 - startBlock)).flatMap chain.blocks

/-- The answer to a query for the Bridge events of a range. -/
def eventsIn (chain : ParentChain) (startBlock endBlock : Nat) : List BridgeMessageDelivered :=
  (chain.deliveriesIn startBlock endBlock).map (·.event)

/-- The answer to a query for one index. -/
def eventsOf (chain : ParentChain) (query : BridgeQuery) : List BridgeMessageDelivered :=
  (chain.eventsIn query.startBlock query.endBlock).filter fun event =>
    event.messageIndex = query.messageIndex

/-- The filter of the Inbox query: one of the two signatures, an index of the Bridge
events and an Inbox that they name. -/
def matchesQuery (config : FetcherConfig) (query : InboxQuery) (log : Log) : Bool :=
  match log.topics with
  | signature :: messageId :: _ =>
      query.addresses.contains log.address && query.messageIds.contains messageId &&
        [config.inboxMessageDeliveredTopic, config.inboxFromOriginTopic].contains signature
  | _ => false

/-- The answer to the Inbox query of a range. -/
def logsIn (chain : ParentChain) (config : FetcherConfig) (query : InboxQuery)
    (startBlock endBlock : Nat) : List Log :=
  ((chain.deliveriesIn startBlock endBlock).map (·.log)).filter (matchesQuery config query)

/-- A message of an index and a hash was delivered in a block. -/
def Delivers (chain : ParentChain) (block messageIndex : Nat) (hash : Hash) : Prop :=
  ∃ delivery ∈ chain.blocks block,
    delivery.event.messageIndex = messageIndex ∧ delivery.event.messageDataHash = hash

theorem mem_deliveriesIn {chain : ParentChain} {startBlock endBlock : Nat}
    {delivery : Delivery} :
    delivery ∈ chain.deliveriesIn startBlock endBlock ↔
      ∃ block, startBlock ≤ block ∧ block ≤ endBlock ∧ delivery ∈ chain.blocks block := by
  simp only [deliveriesIn, List.mem_flatMap, List.mem_range'_1]
  constructor
  · rintro ⟨block, ⟨lower, upper⟩, member⟩
    exact ⟨block, lower, by omega, member⟩
  · rintro ⟨block, lower, upper, member⟩
    exact ⟨block, ⟨lower, by omega⟩, member⟩

/-- A query for one block. -/
theorem mem_eventsOf {chain : ParentChain} {block messageIndex : Nat}
    {event : BridgeMessageDelivered} :
    event ∈ chain.eventsOf ⟨block, block, messageIndex⟩ ↔
      event.messageIndex = messageIndex ∧ ∃ delivery ∈ chain.blocks block,
        delivery.event = event := by
  simp only [eventsOf, eventsIn, List.mem_filter, List.mem_map, decide_eq_true_eq,
    mem_deliveriesIn]
  constructor
  · rintro ⟨⟨delivery, ⟨number, lower, upper, found⟩, rfl⟩, index⟩
    cases Nat.le_antisymm upper lower
    exact ⟨index, delivery, found, rfl⟩
  · rintro ⟨index, delivery, found, rfl⟩
    exact ⟨⟨delivery, ⟨block, Nat.le_refl _, Nat.le_refl _, found⟩, rfl⟩, index⟩

/-- What the Bridge and the Inboxes guarantee: indexes are 64-bit numbers that increase
along the chain, and every event has the log of its Inbox in the same block. -/
structure Valid (config : FetcherConfig) (chain : ParentChain) : Prop where
  ordered : ∀ {earlier later : Nat} {first second : Delivery}, earlier < later →
    first ∈ chain.blocks earlier → second ∈ chain.blocks later →
    first.event.messageIndex < second.event.messageIndex
  unique : ∀ {block : Nat} {first second : Delivery}, first ∈ chain.blocks block →
    second ∈ chain.blocks block → first.event.messageIndex = second.event.messageIndex →
    first = second
  bounded : ∀ {block : Nat} {delivery : Delivery}, delivery ∈ chain.blocks block →
    delivery.event.messageIndex < 2 ^ 64
  logged : ∀ {block : Nat} {delivery : Delivery}, delivery ∈ chain.blocks block →
    delivery.log.blockNumber = block ∧ delivery.log.address = delivery.event.inbox ∧
      ∃ signature ∈ [config.inboxMessageDeliveredTopic, config.inboxFromOriginTopic],
        delivery.log.topics = [signature, BitVec.ofNat 256 delivery.event.messageIndex]

/-- An index is delivered once on a valid chain. -/
theorem Valid.same_delivery {config : FetcherConfig} {chain : ParentChain}
    (valid : chain.Valid config) {block other : Nat} {first second : Delivery}
    (inBlock : first ∈ chain.blocks block) (inOther : second ∈ chain.blocks other)
    (sameIndex : first.event.messageIndex = second.event.messageIndex) : first = second := by
  rcases Nat.lt_trichotomy block other with before | rfl | after
  · have less := valid.ordered before inBlock inOther
    omega
  · exact valid.unique inBlock inOther sameIndex
  · have less := valid.ordered after inOther inBlock
    omega

/-- The index topic of a log is the index of its event. -/
theorem Valid.log_messageIndex {config : FetcherConfig} {chain : ParentChain}
    (valid : chain.Valid config) {block : Nat} {delivery : Delivery}
    (member : delivery ∈ chain.blocks block) :
    delivery.log.messageIndex = some delivery.event.messageIndex := by
  obtain ⟨-, -, signature, -, topics⟩ := valid.logged member
  have bound := valid.bounded member
  have reduced : delivery.event.messageIndex % 2 ^ 256 = delivery.event.messageIndex :=
    Nat.mod_eq_of_lt (Nat.lt_trans bound (by decide))
  simp only [Log.messageIndex, topics, messageIndexTopicPos, List.getElem?_cons_succ,
    List.getElem?_cons_zero, Option.map_some, BitVec.toNat_ofNat, reduced, u64_of_lt bound]

/-- The canonical chain changes: finalized blocks stay, and the finalized height does
not decrease. Everything above it may be replaced. -/
structure Evolves (old new : ParentChain) : Prop where
  finalized_le : old.finalized ≤ new.finalized
  stable : ∀ block ≤ old.finalized, new.blocks block = old.blocks block

end ParentChain

/-! ### The machine -/

/-- The chain, the fetcher on it, and the smallest index not yet passed to
`Advance`. -/
structure ChainState where
  chain : ParentChain
  fetcher : FetcherState
  nextIndex : Nat

/-- A fetcher made on a chain, whose first message to be consumed is `nextIndex`. -/
def ChainState.initial (chain : ParentChain) (nextIndex : Nat) : ChainState where
  chain := chain
  fetcher := .initial chain.finalized
  nextIndex := nextIndex

inductive ChainLabel where
  | evolve (next : ParentChain)
  | fetcher (label : FetcherLabel)

variable (config : FetcherConfig)

/-- The smallest index not passed to `Advance` after a step. -/
def nextIndexAfter (nextIndex : Nat) : FetcherLabel → Nat
  | .call (.advance toMessageIndex) => max nextIndex (toMessageIndex + 1)
  | _ => nextIndex

def ChainState.step (state : ChainState) : ChainLabel → Option ChainState
  | .evolve next => some { state with chain := next }
  | .fetcher label =>
      (state.fetcher.step config label).map fun fetcher =>
        { state with fetcher, nextIndex := nextIndexAfter state.nextIndex label }

/-- The fetcher and the parent chain. -/
def chainMachine : Machine ChainState ChainLabel where
  step := ChainState.step config

/-- The answers to a poll are those of the chain at that moment. Calldata is compared
with the hash of the Bridge, so any answer is allowed for it. -/
def PollTruthful (chain : ParentChain) (fetcher : FetcherState) : PollLabel → Prop
  | .latest (some number) => number = chain.latest
  | .finalized (some number) => number = chain.finalized
  | .bridge (some events) =>
      match fetcher.poll with
      | .scanning range => events = chain.eventsIn range.startBlock range.endBlock
      | _ => True
  | .inbox (some logs) =>
      match fetcher.poll with
      | .delivered range events =>
          logs = chain.logsIn config (collectEvents events) range.startBlock range.endBlock
      | _ => True
  | _ => True

/-- The answers to `GetDelayedMessage` are those of the chain at that moment. An
iterator that fails may have missed events. -/
def CallTruthful (chain : ParentChain) (fetcher : FetcherState) : CallLabel → Prop
  | .recheck (some events) iterationFails =>
      match fetcher.call with
      | .lookedUp _ _ query =>
          (∀ event ∈ events, event ∈ chain.eventsOf query) ∧
            (iterationFails = false → events = chain.eventsOf query)
      | _ => True
  | .finality (some number) => number = chain.finalized
  | _ => True

/-- A parent chain that evolves within its rules and answers truthfully. -/
def TruthfulChain (state : ChainState) : ChainLabel → Prop
  | .evolve next => state.chain.Evolves next ∧ next.Valid config
  | .fetcher (.poll label) => PollTruthful config state.chain state.fetcher label
  | .fetcher (.call label) => CallTruthful state.chain state.fetcher label

variable {config}

/-- A step of the fetcher in the machine is a step of the fetcher's own machine. -/
theorem chainStep_fetcher {before after : ChainState} {label : FetcherLabel}
    (transition : before.step config (.fetcher label) = some after) :
    before.fetcher.step config label = some after.fetcher ∧ after.chain = before.chain ∧
      after.nextIndex = nextIndexAfter before.nextIndex label := by
  simp only [ChainState.step, Option.map_eq_some_iff] at transition
  obtain ⟨fetcher, moved, rfl⟩ := transition
  exact ⟨moved, rfl, rfl⟩

/-! ### What the fetcher keeps stays connected to the chain -/

/-- What the recorded finalized height says about a message. -/
structure DelayedMessage.Faithful (config : FetcherConfig) (chain : ParentChain)
    (message : DelayedMessage) : Prop where
  recorded : message.finalizedBlock ≤ chain.finalized
  final : message.parentBlock ≤ message.finalizedBlock →
    chain.Delivers message.parentBlock message.messageIndex (config.keccak256 message.data)
  above : message.finalizedBlock < message.parentBlock → ∀ block ≤ message.finalizedBlock,
    ∀ delivery ∈ chain.blocks block, delivery.event.messageIndex < message.messageIndex

/-- The same for a log that is not extracted yet. -/
structure Log.Faithful (chain : ParentChain) (finalized : Nat) (log : Log) : Prop where
  final : log.blockNumber ≤ finalized → ∃ delivery ∈ chain.blocks log.blockNumber,
    log.messageIndex = some delivery.event.messageIndex
  above : finalized < log.blockNumber → ∀ index, log.messageIndex = some index →
    ∀ block ≤ finalized, ∀ delivery ∈ chain.blocks block, delivery.event.messageIndex < index

/-- Events that were queried announce, for the messages up to the finalized height,
what the chain has. -/
def EventsAgree (chain : ParentChain) (finalized : Nat) (events : List BridgeMessageDelivered) :
    Prop :=
  (∀ event ∈ events, event.messageIndex < 2 ^ 64) ∧
  ∀ block ≤ finalized, ∀ delivery ∈ chain.blocks block, ∀ event ∈ events,
    event.messageIndex = delivery.event.messageIndex →
    event.messageDataHash = delivery.event.messageDataHash

/-- A poll in flight is connected to the chain. -/
def PollPhase.Faithful (chain : ParentChain) : PollPhase → Prop
  | .idle | .latestKnown _ => True
  | .headersKnown _ finalized => finalized ≤ chain.finalized
  | .scanning range => range.finalized ≤ chain.finalized
  | .delivered range events =>
      range.finalized ≤ chain.finalized ∧ EventsAgree chain range.finalized events
  | .storing job =>
      job.range.finalized ≤ chain.finalized ∧ EventsAgree chain job.range.finalized job.events ∧
        ∀ log ∈ job.remaining, log.Faithful chain job.range.finalized

/-- A call in flight is connected to the chain. A message that is found gone was above
the finalized height recorded with it. -/
def CallPhase.Faithful (config : FetcherConfig) (chain : ParentChain) : CallPhase → Prop
  | .idle | .returned _ _ => True
  | .lookedUp messageIndex message query =>
      (message.messageIndex = messageIndex ∧ message.Faithful config chain) ∧
        query = recheckQuery message
  | .checked messageIndex message =>
      message.messageIndex = messageIndex ∧ message.Faithful config chain
  | .rewinding messageIndex message =>
      message.messageIndex = messageIndex ∧ message.Faithful config chain ∧
        message.finalizedBlock < message.parentBlock

/-- The invariant of truthful runs. -/
structure ChainState.Faithful (config : FetcherConfig) (state : ChainState) : Prop where
  valid : state.chain.Valid config
  entries : ∀ {messageIndex message}, state.fetcher.cached messageIndex = some message →
    message.Faithful config state.chain
  poll : state.fetcher.poll.Faithful state.chain
  call : state.fetcher.call.Faithful config state.chain

theorem faithful_initial {chain : ParentChain} (valid : chain.Valid config) (nextIndex : Nat) :
    (ChainState.initial chain nextIndex).Faithful config where
  valid := valid
  entries := by
    intro messageIndex message found
    cases (DelayedMessageCache.get_empty messageIndex).symm.trans found
  poll := trivial
  call := trivial

section Evolution

variable {old new : ParentChain} (evolves : old.Evolves new)
include evolves

theorem DelayedMessage.Faithful.evolve {message : DelayedMessage}
    (faithful : message.Faithful config old) : message.Faithful config new where
  recorded := Nat.le_trans faithful.recorded evolves.finalized_le
  final := by
    intro final
    have unchanged := evolves.stable _ (Nat.le_trans final faithful.recorded)
    rw [ParentChain.Delivers, unchanged]
    exact faithful.final final
  above := by
    intro above block bounded
    rw [evolves.stable block (Nat.le_trans bounded faithful.recorded)]
    exact faithful.above above block bounded

theorem Log.Faithful.evolve {finalized : Nat} {log : Log} (recorded : finalized ≤ old.finalized)
    (faithful : log.Faithful old finalized) : log.Faithful new finalized where
  final := by
    intro final
    rw [evolves.stable _ (Nat.le_trans final recorded)]
    exact faithful.final final
  above := by
    intro above index indexed block bounded
    rw [evolves.stable block (Nat.le_trans bounded recorded)]
    exact faithful.above above index indexed block bounded

theorem EventsAgree.evolve {finalized : Nat} {events : List BridgeMessageDelivered}
    (recorded : finalized ≤ old.finalized) (agree : EventsAgree old finalized events) :
    EventsAgree new finalized events := by
  refine ⟨agree.1, ?_⟩
  intro block bounded
  rw [evolves.stable block (Nat.le_trans bounded recorded)]
  exact agree.2 block bounded

theorem PollPhase.Faithful.evolve {poll : PollPhase} (faithful : poll.Faithful old) :
    poll.Faithful new := by
  cases poll with
  | idle | latestKnown => trivial
  | headersKnown | scanning => exact Nat.le_trans faithful evolves.finalized_le
  | delivered range events =>
      obtain ⟨recorded, agree⟩ := faithful
      exact ⟨Nat.le_trans recorded evolves.finalized_le, agree.evolve evolves recorded⟩
  | storing job =>
      obtain ⟨recorded, agree, logs⟩ := faithful
      exact ⟨Nat.le_trans recorded evolves.finalized_le, agree.evolve evolves recorded,
        fun log member => (logs log member).evolve evolves recorded⟩

theorem CallPhase.Faithful.evolve {call : CallPhase} (faithful : call.Faithful config old) :
    call.Faithful config new := by
  cases call with
  | idle | returned => trivial
  | lookedUp => exact ⟨⟨faithful.1.1, faithful.1.2.evolve evolves⟩, faithful.2⟩
  | checked => exact ⟨faithful.1, faithful.2.evolve evolves⟩
  | rewinding => exact ⟨faithful.1, faithful.2.1.evolve evolves, faithful.2.2⟩

end Evolution

/-- The Bridge events of a valid chain agree with it. -/
theorem eventsAgree_eventsIn {chain : ParentChain} (valid : chain.Valid config)
    (finalized startBlock endBlock : Nat) :
    EventsAgree chain finalized (chain.eventsIn startBlock endBlock) := by
  constructor
  · intro event member
    obtain ⟨delivery, found, rfl⟩ := List.mem_map.mp member
    obtain ⟨block, -, -, inBlock⟩ := ParentChain.mem_deliveriesIn.mp found
    exact valid.bounded inBlock
  · intro block bounded delivery inBlock event member sameIndex
    obtain ⟨other, found, rfl⟩ := List.mem_map.mp member
    obtain ⟨otherBlock, -, -, inOther⟩ := ParentChain.mem_deliveriesIn.mp found
    rw [valid.same_delivery inOther inBlock sameIndex]

/-- The Inbox logs of a valid chain are connected to it. -/
theorem logFaithful_logsIn {chain : ParentChain} (valid : chain.Valid config) {finalized : Nat}
    {query : InboxQuery} {startBlock endBlock : Nat} {log : Log}
    (member : log ∈ chain.logsIn config query startBlock endBlock) :
    log.Faithful chain finalized := by
  obtain ⟨delivery, found, rfl⟩ := List.mem_map.mp (List.mem_of_mem_filter member)
  obtain ⟨block, -, -, inBlock⟩ := ParentChain.mem_deliveriesIn.mp found
  have indexed := valid.log_messageIndex inBlock
  have sameBlock := (valid.logged inBlock).1
  constructor
  · intro final
    exact ⟨delivery, sameBlock ▸ inBlock, indexed⟩
  · intro above index sameIndex other bounded earlier inOther
    have equal : delivery.event.messageIndex = index :=
      Option.some.inj (indexed.symm.trans sameIndex)
    rw [← equal]
    exact valid.ordered (by omega) inOther inBlock

/-- The message extracted from a connected log is connected. -/
theorem messageFaithful_of_extracted {chain : ParentChain} {events : List BridgeMessageDelivered}
    {finalized : Nat} {log : Log} {transaction : Option Bytes} {message : DelayedMessage}
    (recorded : finalized ≤ chain.finalized) (agree : EventsAgree chain finalized events)
    (faithful : log.Faithful chain finalized)
    (extracted : extractInboxLog config (collectEvents events) finalized log transaction =
      .ok message) : message.Faithful config chain := by
  obtain ⟨indexed, expected, sameBlock, sameFinalized⟩ := extractInboxLog_ok extracted
  refine ⟨sameFinalized ▸ recorded, ?_, ?_⟩
  · rw [sameBlock, sameFinalized]
    intro final
    obtain ⟨delivery, inBlock, delivered⟩ := faithful.final final
    have sameIndex : delivery.event.messageIndex = message.messageIndex :=
      Option.some.inj (delivered.symm.trans indexed)
    obtain ⟨event, member, eventIndex, eventHash⟩ := exists_event_of_dataHashes expected
    rw [u64_of_lt (agree.1 event member)] at eventIndex
    have sameHash := agree.2 _ final delivery inBlock event member (eventIndex.trans sameIndex.symm)
    exact ⟨delivery, inBlock, sameIndex, sameHash.symm.trans eventHash⟩
  · rw [sameBlock, sameFinalized]
    intro above
    exact faithful.above above message.messageIndex indexed

/-- A truthful poll step keeps the fetcher connected to the chain. -/
theorem PollOutcome.faithful {chain : ParentChain} {before after : FetcherState}
    {label : PollLabel} (outcome : PollOutcome config before label after)
    (valid : chain.Valid config) (truthful : PollTruthful config chain before label)
    (entries : ∀ {messageIndex message}, before.cached messageIndex = some message →
      message.Faithful config chain) (poll : before.poll.Faithful chain) :
    (∀ {messageIndex message}, after.cached messageIndex = some message →
      message.Faithful config chain) ∧ after.poll.Faithful chain := by
  cases outcome with
  | abandoned | latest => exact ⟨entries, trivial⟩
  | @finalized endBlock number phase =>
      have answered : number = chain.finalized := truthful
      exact ⟨entries, answered ▸ u64_le number⟩
  | started phase scanned =>
      rw [phase] at poll
      exact ⟨entries, poll⟩
  | noEvents phase =>
      rw [phase] at poll
      exact ⟨entries, poll, ⟨nofun, nofun⟩, nofun⟩
  | delivered phase =>
      simp only [PollTruthful, phase] at truthful
      rw [phase] at poll
      rw [truthful]
      exact ⟨entries, poll, eventsAgree_eventsIn valid _ _ _⟩
  | logged phase =>
      simp only [PollTruthful, phase] at truthful
      rw [phase] at poll
      rw [truthful]
      exact ⟨entries, poll.1, poll.2, fun log member => logFaithful_logsIn valid member⟩
  | @stored job log rest transaction message phase next extracted =>
      rw [phase] at poll
      obtain ⟨recorded, agree, logs⟩ := poll
      have current := logs log (next ▸ List.mem_cons_self)
      have new := messageFaithful_of_extracted recorded agree current extracted
      refine ⟨?_, recorded, agree, fun other member =>
        logs other (next ▸ List.mem_cons_of_mem _ member)⟩
      intro messageIndex other found
      have inserted := (DelayedMessageCache.get_insert _ _ _).symm.trans found
      split at inserted
      · cases inserted
        exact new
      · exact entries inserted
  | updated phase finished =>
      refine ⟨?_, trivial⟩
      intro messageIndex message found
      simp only [FetcherState.cached,
        DelayedMessageFetcher.delayedMessages_updateParentBlockNumber] at found
      exact entries found

/-- A message that a truthful re-check does not find was above the finalized height
recorded with it. -/
theorem above_of_gone {chain : ParentChain} {fetcher : FetcherState} {messageIndex : Nat}
    {message : DelayedMessage} {events : Option (List BridgeMessageDelivered)}
    {iterationFails : Bool}
    (phase : fetcher.call = .lookedUp messageIndex message (recheckQuery message))
    (truthful : CallTruthful chain fetcher (.recheck events iterationFails))
    (faithful : message.Faithful config chain)
    (gone : verifyDelayedMessageOnParentChain config message events iterationFails =
      some false) : message.finalizedBlock < message.parentBlock := by
  obtain ⟨answer, rfl, complete, different⟩ := verifyDelayedMessageOnParentChain_false gone
  simp only [CallTruthful, phase] at truthful
  have whole := truthful.2 complete
  apply Nat.lt_of_not_le
  intro final
  obtain ⟨delivery, inBlock, sameIndex, sameHash⟩ := faithful.final final
  have listed : delivery.event ∈ answer := by
    rw [whole]
    exact ParentChain.mem_eventsOf.mpr ⟨sameIndex, delivery, inBlock, rfl⟩
  exact different _ listed sameHash

/-- A truthful step of the verifier goroutine keeps the fetcher connected. -/
theorem CallOutcome.faithful {chain : ParentChain} {before after : FetcherState}
    {label : CallLabel} (outcome : CallOutcome config before label after)
    (truthful : CallTruthful chain before label)
    (entries : ∀ {messageIndex message}, before.cached messageIndex = some message →
      message.Faithful config chain) (call : before.call.Faithful config chain) :
    (∀ {messageIndex message}, after.cached messageIndex = some message →
      message.Faithful config chain) ∧ after.call.Faithful config chain := by
  cases outcome with
  | missing | recheckFailed | unchecked | final | finished => exact ⟨entries, trivial⟩
  | lookedUp phase present =>
      exact ⟨entries, ⟨DelayedMessageCache.messageIndex_of_get present, entries present⟩, rfl⟩
  | gone phase answer =>
      rw [phase] at call
      obtain ⟨⟨sameIndex, faithful⟩, rfl⟩ := call
      exact ⟨entries, sameIndex, faithful, above_of_gone phase truthful faithful answer⟩
  | checked phase answer waits =>
      rw [phase] at call
      exact ⟨entries, call.1⟩
  | rewound phase =>
      refine ⟨?_, trivial⟩
      intro messageIndex message found
      cases (DelayedMessageCache.get_empty messageIndex).symm.trans found
  | advanced phase =>
      refine ⟨?_, call⟩
      intro messageIndex message found
      have kept := (DelayedMessageCache.get_advance _ _ _).symm.trans found
      split at kept
      · cases kept
      · exact entries kept

theorem ChainState.Faithful.step {before after : ChainState} {label : ChainLabel}
    (faithful : before.Faithful config) (truthful : TruthfulChain config before label)
    (transition : before.step config label = some after) : after.Faithful config := by
  cases label with
  | evolve next =>
      cases transition
      obtain ⟨evolves, valid⟩ := truthful
      exact ⟨valid, fun found => (faithful.entries found).evolve evolves,
        faithful.poll.evolve evolves, faithful.call.evolve evolves⟩
  | fetcher label =>
      obtain ⟨moved, sameChain, -⟩ := chainStep_fetcher transition
      obtain ⟨chain, fetcher, nextIndex⟩ := after
      cases sameChain
      cases label with
      | poll label =>
          have outcome := pollStep_outcome moved
          obtain ⟨entries, poll⟩ :=
            outcome.faithful faithful.valid truthful faithful.entries faithful.poll
          exact ⟨faithful.valid, entries, poll, outcome.call_eq ▸ faithful.call⟩
      | call label =>
          have outcome := callStep_outcome moved
          obtain ⟨entries, call⟩ := outcome.faithful truthful faithful.entries faithful.call
          exact ⟨faithful.valid, entries, outcome.poll_eq ▸ faithful.poll, call⟩

/-- The invariant holds in every truthful run. -/
theorem faithful_of_runs {chain : ParentChain} {nextIndex : Nat} {labels : List ChainLabel}
    {state : ChainState} (valid : chain.Valid config)
    (run : (chainMachine config).Runs (TruthfulChain config) (.initial chain nextIndex) labels
      state) : state.Faithful config :=
  run.invariant (faithful_initial valid nextIndex) fun faithful truthful transition =>
    faithful.step truthful transition

/-- A chain with a single message, of index 0, in a block of choice. -/
def sampleChain (block latest finalized : Nat) : ParentChain where
  blocks number := if number = block then [⟨sampleEvent 0 5, sampleLog 0 5 block⟩] else []
  latest := latest
  finalized := finalized

theorem mem_sampleChain {block latest finalized number : Nat} {delivery : Delivery} :
    delivery ∈ (sampleChain block latest finalized).blocks number ↔
      number = block ∧ delivery = ⟨sampleEvent 0 5, sampleLog 0 5 block⟩ := by
  simp only [sampleChain]
  split
  · rename_i same
    simp [same]
  · rename_i different
    simp [different]

theorem sampleChain_valid (block latest finalized : Nat) :
    (sampleChain block latest finalized).Valid sampleConfig where
  ordered := by
    intro earlier later first second before inEarlier inLater
    obtain ⟨rfl, -⟩ := mem_sampleChain.mp inEarlier
    obtain ⟨rfl, -⟩ := mem_sampleChain.mp inLater
    omega
  unique := by
    intro number first second inFirst inSecond _
    rw [(mem_sampleChain.mp inFirst).2, (mem_sampleChain.mp inSecond).2]
  bounded := by
    intro number delivery member
    obtain ⟨-, rfl⟩ := mem_sampleChain.mp member
    exact Nat.two_pow_pos 64
  logged := by
    intro number delivery member
    obtain ⟨rfl, rfl⟩ := mem_sampleChain.mp member
    exact ⟨rfl, rfl, 1, by decide, rfl⟩

/-- The message may move between blocks that are not final. -/
theorem sampleChain_evolves {block latest finalized newBlock newLatest newFinalized : Nat}
    (finalizes : finalized ≤ newFinalized) (above : finalized < block)
    (newAbove : finalized < newBlock) :
    (sampleChain block latest finalized).Evolves
      (sampleChain newBlock newLatest newFinalized) where
  finalized_le := finalizes
  stable := by
    intro number bounded
    have final : number ≤ finalized := bounded
    simp only [sampleChain]
    rw [if_neg (by omega), if_neg (by omega)]

/-- The fetcher after it has scanned a chain with message 0 in block 7, where block 2
is final. -/
def sampleScanned : ChainState where
  chain := sampleChain 7 10 2
  fetcher := ⟨⟨DelayedMessageCache.empty.insert ⟨[5], 7, 0, 2⟩, 11⟩, .idle, .idle, []⟩
  nextIndex := 0

/-- The poll that scans it. -/
def sampleScan : List ChainLabel :=
  (samplePoll 10 2 [sampleEvent 0 5] [sampleLog 0 5 7]).map .fetcher ++
    [.fetcher (.poll (.extract none)), .fetcher (.poll .update)]

theorem sampleScanned_runs {admits : ChainState → ChainLabel → Prop}
    (implied : ∀ {state label}, PollTruthful sampleConfig state.chain state.fetcher label →
      admits state (.fetcher (.poll label))) :
    (chainMachine sampleConfig).Runs admits (.initial (sampleChain 7 10 2) 0) sampleScan
      sampleScanned := by
  have started : (chainMachine sampleConfig).Runs admits
      (.initial (sampleChain 7 10 2) 0) _ _ := .refl
  have latest := started.next (.fetcher (.poll (.latest (some 10)))) (implied rfl) rfl
  have finalized := latest.next (.fetcher (.poll (.finalized (some 2)))) (implied rfl) rfl
  have scanning := finalized.next (.fetcher (.poll .start)) (implied trivial) rfl
  have delivered := scanning.next (.fetcher (.poll (.bridge (some [sampleEvent 0 5]))))
    (implied rfl) rfl
  have logged := delivered.next (.fetcher (.poll (.inbox (some [sampleLog 0 5 7]))))
    (implied rfl) rfl
  have stored := logged.next (.fetcher (.poll (.extract none))) (implied trivial) rfl
  exact stored.next (.fetcher (.poll .update)) (implied trivial) rfl

end EspressoProxy.Verifier.Nitro
