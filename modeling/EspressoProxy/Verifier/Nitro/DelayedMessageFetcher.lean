import EspressoProxy.Ethereum.Types
import EspressoProxy.Semantics.GoMap
import EspressoProxy.Semantics.Uint64
import Mathlib.Data.List.Induction

/-!
# The delayed message fetcher

The fetcher scans the parent chain for `MessageDelivered` events of the Bridge,
fetches the data of each message from the logs of its Inbox, and caches it until the
verifier has passed it. This module has the data and the functions; what runs
concurrently is in `FetcherMachine`. Keccak, the parsing of logs and the unpacking
of calldata are go-ethereum's; they are fields of `FetcherConfig`.
-/

namespace EspressoProxy.Verifier.Nitro

open EspressoProxy.Ethereum EspressoProxy.Semantics

/-- The fields of a `MessageDelivered` event that the fetcher reads. The index is a
256-bit number. -/
structure BridgeMessageDelivered where
  messageIndex : Nat
  inbox : Address
  messageDataHash : Hash
deriving DecidableEq, Repr

/-- An event log of an Inbox. -/
structure Log where
  address : Address
  topics : List Hash
  data : Bytes
  blockNumber : Nat
  txHash : Hash
deriving DecidableEq, Repr

/-- A cached message: where it was found and the finalized height at that time. -/
structure DelayedMessage where
  data : Bytes
  parentBlock : Nat
  messageIndex : Nat
  finalizedBlock : Nat
deriving DecidableEq, Repr

/-- The configuration of the fetcher and the functions of go-ethereum it uses. -/
structure FetcherConfig where
  waitForFinality : Bool
  maxBlocksPerScan : Nat
  inboxMessageDeliveredTopic : Hash
  inboxFromOriginTopic : Hash
  sendL2FromOriginSelector : Bytes
  keccak256 : Bytes → Hash
  parseInboxMessageDelivered : Log → Option Bytes
  unpackSendL2FromOrigin : Bytes → Option Bytes

def startBlockLookback : Nat := 5000
def defaultMaxBlocksPerScan : Nat := 10000
def messageIndexTopicPos : Nat := 1
def abiSelectorLen : Nat := 4

/-- The scan limit of a new fetcher; zero selects the default. -/
def effectiveMaxBlocksPerScan (maxBlocksPerScan : Nat) : Nat :=
  if maxBlocksPerScan = 0 then defaultMaxBlocksPerScan else maxBlocksPerScan

/-- The first block that a new fetcher scans. -/
def initialParentBlockNumber (finalizedBlock : Nat) : Nat :=
  if finalizedBlock > startBlockLookback then finalizedBlock - startBlockLookback else 0

/-- The errors that make a poll give up before it moves the cursor. -/
inductive FetchError where
  | missingIndexTopic
  | noFilterer (address : Address)
  | unparsable
  | transactionUnavailable
  | selectorMismatch
  | unpackFailed
  | unexpectedTopic (topic : Hash)
  | noMessageDelivered (messageIndex : Nat)
  | dataHashMismatch (messageIndex : Nat)
deriving DecidableEq, Repr

/-! ### The cache -/

/-- The map `delayedMessages`. Every entry is stored under its own index. -/
structure DelayedMessageCache where
  entries : GoMap Nat DelayedMessage
  keyed : ∀ {key message}, entries.get key = some message → message.messageIndex = key

namespace DelayedMessageCache

/-- The map made by the constructor and by a rewind. -/
def empty : DelayedMessageCache where
  entries := ∅
  keyed := by
    intro key message found
    simp at found

def get (cache : DelayedMessageCache) (messageIndex : Nat) : Option DelayedMessage :=
  cache.entries.get messageIndex

/-- Store a message under its index. -/
def insert (cache : DelayedMessageCache) (message : DelayedMessage) : DelayedMessageCache where
  entries := cache.entries.set message.messageIndex message
  keyed := by
    intro key other found
    rw [GoMap.get_set] at found
    split at found
    · rename_i same
      cases found
      exact same.symm
    · exact cache.keyed found

/-- The list `toDelete` of `Advance`: it is made with as many zeros as the map has
entries before the indexes to delete are appended. -/
def toDelete (cache : DelayedMessageCache) (toMessageIndex : Nat) : List Nat :=
  List.replicate cache.entries.entries.length 0 ++
    (cache.entries.values.filter fun message =>
      decide (message.messageIndex ≤ toMessageIndex)).map (·.messageIndex)

/-- `Advance`: drop the messages up to an index. -/
def advance (cache : DelayedMessageCache) (toMessageIndex : Nat) : DelayedMessageCache where
  entries :=
    if cache.entries.entries.length = 0 then cache.entries
    else cache.entries.deleteAll (cache.toDelete toMessageIndex)
  keyed := by
    intro key message found
    split at found
    · exact cache.keyed found
    · rw [GoMap.get_deleteAll] at found
      split at found
      · cases found
      · exact cache.keyed found

@[simp] theorem get_empty (messageIndex : Nat) : empty.get messageIndex = none :=
  GoMap.get_empty messageIndex

theorem get_insert (cache : DelayedMessageCache) (message : DelayedMessage) (index : Nat) :
    (cache.insert message).get index =
      if index = message.messageIndex then some message else cache.get index :=
  GoMap.get_set _ _ _ _

theorem messageIndex_of_get {cache : DelayedMessageCache} {index : Nat}
    {message : DelayedMessage} (found : cache.get index = some message) :
    message.messageIndex = index :=
  cache.keyed found

/-- `Advance` drops exactly the entries up to the index. The zeros it deletes besides
are covered by that, and so is the early return of an empty map. -/
theorem get_advance (cache : DelayedMessageCache) (toMessageIndex index : Nat) :
    (cache.advance toMessageIndex).get index =
      if index ≤ toMessageIndex then none else cache.get index := by
  cases found : cache.get index with
  | none =>
      have missing : cache.entries.get index = none := found
      simp only [get, advance, ite_self]
      split
      · exact missing
      · rw [GoMap.get_deleteAll]
        simp [missing]
  | some message =>
      have present : cache.entries.get index = some message := found
      have member := GoMap.mem_values_of_get present
      have nonempty : cache.entries.entries.length ≠ 0 := by
        intro zero
        have none : cache.entries.values = [] := by
          simp [GoMap.values, List.length_eq_zero_iff.mp zero]
        rw [none] at member
        cases member
      simp only [get, advance, nonempty, if_false]
      rw [GoMap.get_deleteAll, present]
      have listed : index ∈ cache.toDelete toMessageIndex ↔ index ≤ toMessageIndex := by
        simp only [toDelete, List.mem_append, List.mem_replicate, List.mem_map, List.mem_filter,
          decide_eq_true_eq]
        constructor
        · rintro (⟨-, rfl⟩ | ⟨other, ⟨-, bounded⟩, rfl⟩)
          · exact Nat.zero_le _
          · exact bounded
        · intro bounded
          have key := cache.keyed present
          exact .inr ⟨message, ⟨member, key ▸ bounded⟩, key⟩
      simp only [listed]

/-- The entries that `Advance` removes. -/
def evictedBy (cache : DelayedMessageCache) (toMessageIndex : Nat) : List DelayedMessage :=
  cache.entries.values.filter fun message => decide (message.messageIndex ≤ toMessageIndex)

theorem mem_evictedBy {cache : DelayedMessageCache} {toMessageIndex index : Nat}
    {message : DelayedMessage} (found : cache.get index = some message)
    (bounded : index ≤ toMessageIndex) : message ∈ cache.evictedBy toMessageIndex := by
  have key := messageIndex_of_get found
  refine List.mem_filter.mpr ⟨GoMap.mem_values_of_get found, ?_⟩
  rw [key]
  exact decide_eq_true bounded

theorem messageIndex_le_of_mem_evictedBy {cache : DelayedMessageCache} {toMessageIndex : Nat}
    {message : DelayedMessage} (member : message ∈ cache.evictedBy toMessageIndex) :
    message.messageIndex ≤ toMessageIndex :=
  of_decide_eq_true (List.mem_filter.mp member).2

end DelayedMessageCache

/-! ### The fetcher -/

/-- What the fetcher keeps under its lock. -/
structure DelayedMessageFetcher where
  delayedMessages : DelayedMessageCache
  parentBlockNumber : Nat

/-- The fetcher before its first poll, given the finalized height of the parent chain. -/
def newDelayedMessageFetcher (finalizedBlock : Nat) : DelayedMessageFetcher where
  delayedMessages := .empty
  parentBlockNumber := initialParentBlockNumber (u64 finalizedBlock)

namespace DelayedMessageFetcher

/-- The locked insertion at the end of the loop of `extractInboxData`. -/
def store (fetcher : DelayedMessageFetcher) (message : DelayedMessage) :
    DelayedMessageFetcher :=
  { fetcher with delayedMessages := fetcher.delayedMessages.insert message }

/-- Forget every message and go back to the finalized height recorded with one. -/
def rewind (_fetcher : DelayedMessageFetcher) (message : DelayedMessage) :
    DelayedMessageFetcher where
  delayedMessages := .empty
  parentBlockNumber := message.finalizedBlock

/-- Move the cursor, unless it is no longer where the poll found it. -/
def updateParentBlockNumber (fetcher : DelayedMessageFetcher) (previous target : Nat) :
    DelayedMessageFetcher :=
  if fetcher.parentBlockNumber ≠ previous then fetcher
  else { fetcher with parentBlockNumber := target }

def advance (fetcher : DelayedMessageFetcher) (toMessageIndex : Nat) : DelayedMessageFetcher :=
  { fetcher with delayedMessages := fetcher.delayedMessages.advance toMessageIndex }

@[simp] theorem delayedMessages_updateParentBlockNumber (fetcher : DelayedMessageFetcher)
    (previous target : Nat) :
    (fetcher.updateParentBlockNumber previous target).delayedMessages =
      fetcher.delayedMessages := by
  unfold updateParentBlockNumber
  split <;> rfl

theorem updateParentBlockNumber_of_eq {fetcher : DelayedMessageFetcher} {previous : Nat}
    (unmoved : fetcher.parentBlockNumber = previous) (target : Nat) :
    fetcher.updateParentBlockNumber previous target =
      { fetcher with parentBlockNumber := target } := by
  simp [updateParentBlockNumber, unmoved]

end DelayedMessageFetcher

/-! ### Scanning -/

/-- What `fetchInboxData` collects from the Bridge events before it queries the
Inboxes: the addresses without repetition, the expected hash of each index (a later
event of one index overwrites an earlier one), and the topics to filter by. -/
structure InboxQuery where
  addresses : List Address
  dataHashes : GoMap Nat Hash
  messageIds : List Hash

def InboxQuery.add (query : InboxQuery) (event : BridgeMessageDelivered) : InboxQuery where
  addresses :=
    if event.inbox ∈ query.addresses then query.addresses
    else query.addresses ++ [event.inbox]
  dataHashes := query.dataHashes.set (u64 event.messageIndex) event.messageDataHash
  messageIds := query.messageIds ++ [BitVec.ofNat 256 event.messageIndex]

/-- The loop of `fetchInboxData` over the Bridge events. -/
def collectEvents (events : List BridgeMessageDelivered) : InboxQuery :=
  events.foldl InboxQuery.add ⟨[], ∅, []⟩

/-- Data of a message whose Inbox logged it. -/
def extractFromInboxMessageDelivered (config : FetcherConfig) (log : Log) :
    Except FetchError Bytes :=
  match config.parseInboxMessageDelivered log with
  | none => .error .unparsable
  | some data => .ok data

/-- Data of a message that is only in the calldata of its transaction, as answered by
the parent chain. -/
def extractFromInboxFromOrigin (config : FetcherConfig) (transaction : Option Bytes) :
    Except FetchError Bytes :=
  match transaction with
  | none => .error .transactionUnavailable
  | some txData =>
      if ¬ config.sendL2FromOriginSelector.isPrefixOf txData then .error .selectorMismatch
      else
        match config.unpackSendL2FromOrigin (txData.drop abiSelectorLen) with
        | none => .error .unpackFailed
        | some data => .ok data

/-- The index topic of a log, reduced to 64 bits. -/
def Log.messageIndex (log : Log) : Option Nat :=
  log.topics[messageIndexTopicPos]?.map fun topic => u64 topic.toNat

/-- The body of the loop of `extractInboxData`: the message that is stored for one log,
or the error that ends the poll. -/
def extractInboxLog (config : FetcherConfig) (query : InboxQuery) (finalized : Nat) (log : Log)
    (transaction : Option Bytes) : Except FetchError DelayedMessage :=
  match log.topics, log.messageIndex with
  | signature :: _, some msgIndex =>
      if log.address ∉ query.addresses then .error (.noFilterer log.address)
      else
        let extracted :=
          if signature = config.inboxMessageDeliveredTopic then
            extractFromInboxMessageDelivered config log
          else if signature = config.inboxFromOriginTopic then
            extractFromInboxFromOrigin config transaction
          else .error (.unexpectedTopic signature)
        match extracted with
        | .error cause => .error cause
        | .ok data =>
            match query.dataHashes.get msgIndex with
            | none => .error (.noMessageDelivered msgIndex)
            | some expected =>
                if config.keccak256 data ≠ expected then .error (.dataHashMismatch msgIndex)
                else .ok ⟨data, log.blockNumber, msgIndex, finalized⟩
  | _, _ => .error .missingIndexTopic

/-- The index of every event is queried. -/
theorem mem_messageIds_collectEvents {events : List BridgeMessageDelivered}
    {event : BridgeMessageDelivered} (member : event ∈ events) :
    BitVec.ofNat 256 event.messageIndex ∈ (collectEvents events).messageIds := by
  induction events using List.reverseRecOn with
  | nil => cases member
  | append_singleton earlier last inductionHypothesis =>
      have unfolded : (collectEvents (earlier ++ [last])).messageIds =
          (collectEvents earlier).messageIds ++ [BitVec.ofNat 256 last.messageIndex] := by
        simp [collectEvents, InboxQuery.add]
      rw [unfolded]
      rcases List.mem_append.mp member with before | new
      · exact List.mem_append_left _ (inductionHypothesis before)
      · rw [List.mem_singleton.mp new]
        exact List.mem_append_right _ (List.mem_singleton_self _)

/-- The range of a poll: from the cursor to the latest block, cut to the scan limit.
There is none while the cursor is ahead of the chain. -/
def scanRange (config : FetcherConfig) (startBlock endBlock : Nat) : Option (Nat × Nat) :=
  if startBlock > endBlock then none
  else if endBlock - startBlock ≥ effectiveMaxBlocksPerScan config.maxBlocksPerScan then
    some (startBlock, u64 (startBlock + effectiveMaxBlocksPerScan config.maxBlocksPerScan))
  else some (startBlock, endBlock)

/-- What is known about a stored message: its index and block are the log's, its data
hashes to what the Bridge announced last for that index, and it carries the finalized
height of the poll. -/
theorem extractInboxLog_ok {config : FetcherConfig} {query : InboxQuery} {finalized : Nat}
    {log : Log} {transaction : Option Bytes} {message : DelayedMessage}
    (extracted : extractInboxLog config query finalized log transaction = .ok message) :
    log.messageIndex = some message.messageIndex ∧
      query.dataHashes.get message.messageIndex = some (config.keccak256 message.data) ∧
      message.parentBlock = log.blockNumber ∧ message.finalizedBlock = finalized := by
  unfold extractInboxLog at extracted
  split at extracted
  · rename_i signature rest msgIndex _ indexed
    split at extracted
    · cases extracted
    · simp only at extracted
      split at extracted
      · cases extracted
      · rename_i data _
        split at extracted
        · cases extracted
        · rename_i expected announced
          split at extracted
          · cases extracted
          · rename_i matched
            cases extracted
            have equal : config.keccak256 data = expected := not_not.mp matched
            rw [equal]
            exact ⟨indexed, announced, rfl, rfl⟩
  · cases extracted

/-- The hash expected for an index is that of the last event with the index. -/
theorem dataHashes_collectEvents (events : List BridgeMessageDelivered) (index : Nat) :
    (collectEvents events).dataHashes.get index =
      (events.filter fun event => u64 event.messageIndex = index).getLast?.map
        (·.messageDataHash) := by
  induction events using List.reverseRecOn with
  | nil => simp [collectEvents]
  | append_singleton earlier event inductionHypothesis =>
      have unfolded : (collectEvents (earlier ++ [event])).dataHashes =
          (collectEvents earlier).dataHashes.set (u64 event.messageIndex)
            event.messageDataHash := by
        simp [collectEvents, InboxQuery.add]
      rw [unfolded, GoMap.get_set, inductionHypothesis]
      by_cases same : index = u64 event.messageIndex
      · simp [same]
      · have different : ¬ u64 event.messageIndex = index := fun equal => same equal.symm
        simp [same, different]

/-- An expected hash was announced by some event. -/
theorem exists_event_of_dataHashes {events : List BridgeMessageDelivered} {index : Nat}
    {hash : Hash} (expected : (collectEvents events).dataHashes.get index = some hash) :
    ∃ event ∈ events, u64 event.messageIndex = index ∧ event.messageDataHash = hash := by
  rw [dataHashes_collectEvents, Option.map_eq_some_iff] at expected
  obtain ⟨event, last, equal⟩ := expected
  have member := List.mem_of_getLast? last
  rw [List.mem_filter, decide_eq_true_eq] at member
  exact ⟨event, member.1, member.2, equal⟩

/-- Every Inbox that an event names is queried. -/
theorem mem_addresses_collectEvents {events : List BridgeMessageDelivered}
    {event : BridgeMessageDelivered} (member : event ∈ events) :
    event.inbox ∈ (collectEvents events).addresses := by
  induction events using List.reverseRecOn with
  | nil => cases member
  | append_singleton earlier last inductionHypothesis =>
      have unfolded : (collectEvents (earlier ++ [last])).addresses =
          if last.inbox ∈ (collectEvents earlier).addresses then (collectEvents earlier).addresses
          else (collectEvents earlier).addresses ++ [last.inbox] := by
        rw [collectEvents, List.foldl_append]
        rfl
      rw [unfolded]
      rcases List.mem_append.mp member with before | new
      · have known := inductionHypothesis before
        split
        · exact known
        · exact List.mem_append_left _ known
      · rw [List.mem_singleton] at new
        subst new
        split
        · assumption
        · exact List.mem_append_right _ (List.mem_singleton_self _)

/-! ### The presence and finality checks -/

/-- The arguments of a query for `MessageDelivered` events: a range of blocks and the
index to filter by. -/
structure BridgeQuery where
  startBlock : Nat
  endBlock : Nat
  messageIndex : Nat
deriving DecidableEq, Repr

/-- The query of `verifyDelayedMessageOnParentChain`. -/
def recheckQuery (message : DelayedMessage) : BridgeQuery :=
  ⟨message.parentBlock, message.parentBlock, message.messageIndex⟩

/-- `verifyDelayedMessageOnParentChain`: whether the answer to the query for the
message's block and index has an event with the hash of its data. `none` is a query
that failed, and `iterationFails` an iterator that ends with an error. -/
def verifyDelayedMessageOnParentChain (config : FetcherConfig) (message : DelayedMessage)
    (answer : Option (List BridgeMessageDelivered)) (iterationFails : Bool) : Option Bool :=
  match answer with
  | none => none
  | some events =>
      if events.any fun event => config.keccak256 message.data = event.messageDataHash then
        some true
      else if iterationFails then none
      else some false

/-- A message is found by an event of the answer with its hash. -/
theorem verifyDelayedMessageOnParentChain_true {config : FetcherConfig}
    {message : DelayedMessage} {answer : Option (List BridgeMessageDelivered)}
    {iterationFails : Bool}
    (found : verifyDelayedMessageOnParentChain config message answer iterationFails =
      some true) :
    ∃ events, answer = some events ∧
      ∃ event ∈ events, event.messageDataHash = config.keccak256 message.data := by
  unfold verifyDelayedMessageOnParentChain at found
  split at found
  · cases found
  · rename_i events
    split at found
    · rename_i some
      obtain ⟨event, member, equal⟩ := List.any_eq_true.mp some
      exact ⟨events, rfl, event, member, (of_decide_eq_true equal).symm⟩
    · split at found <;> cases found

/-- A message is gone if a complete answer has no event with its hash. -/
theorem verifyDelayedMessageOnParentChain_false {config : FetcherConfig}
    {message : DelayedMessage} {answer : Option (List BridgeMessageDelivered)}
    {iterationFails : Bool}
    (gone : verifyDelayedMessageOnParentChain config message answer iterationFails =
      some false) :
    ∃ events, answer = some events ∧ iterationFails = false ∧
      ∀ event ∈ events, event.messageDataHash ≠ config.keccak256 message.data := by
  unfold verifyDelayedMessageOnParentChain at gone
  split at gone
  · cases gone
  · rename_i events
    split at gone
    · cases gone
    · rename_i none
      split at gone
      · cases gone
      · rename_i complete
        refine ⟨events, rfl, eq_false_of_ne_true complete, ?_⟩
        intro event member equal
        exact none (List.any_eq_true.mpr ⟨event, member, decide_eq_true equal.symm⟩)

/-- The errors of `GetDelayedMessage`. -/
inductive GetError where
  | delayedMessageNotFound (messageIndex parentBlock : Nat)
  | recheckFailed (messageIndex : Nat)
  | finalityUnavailable
  | parentBlockNotFinalized (messageIndex parentBlock finalizedBlock : Nat)
deriving DecidableEq, Repr

/-- `ensureFinality` and the return after it: the data, if the block of the message is
not above the finalized height that was answered. -/
def ensureFinality (message : DelayedMessage) (messageIndex : Nat) (finalized : Option Nat) :
    Except GetError Bytes :=
  match finalized with
  | none => .error .finalityUnavailable
  | some number =>
      if message.parentBlock > u64 number then
        .error (.parentBlockNotFinalized messageIndex message.parentBlock (u64 number))
      else .ok message.data

theorem ensureFinality_ok {message : DelayedMessage} {messageIndex : Nat}
    {finalized : Option Nat} {data : Bytes}
    (final : ensureFinality message messageIndex finalized = .ok data) :
    data = message.data ∧ ∃ number, finalized = some number ∧ message.parentBlock ≤ number := by
  unfold ensureFinality at final
  split at final
  · cases final
  · rename_i number
    split at final
    · cases final
    · rename_i notAbove
      cases final
      exact ⟨rfl, number, rfl, Nat.le_trans (Nat.not_lt.mp notAbove) (u64_le number)⟩

end EspressoProxy.Verifier.Nitro
