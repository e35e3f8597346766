import EspressoProxy.Semantics.Machine
import EspressoProxy.Verifier.Nitro.DelayedMessageFetcher

/-!
# The goroutines of the delayed message fetcher

The polling goroutine and the verifier goroutine share a `DelayedMessageFetcher`.
Each step of this machine is one RPC call or one section under the lock, so a run is
an interleaving at lock granularity. The labels carry the answers of the parent
chain, which are arbitrary here.
-/

namespace EspressoProxy.Verifier.Nitro

open EspressoProxy.Ethereum EspressoProxy.Semantics

/-- The blocks of a poll and the finalized height it read. -/
structure ScanRange where
  startBlock : Nat
  endBlock : Nat
  finalized : Nat
deriving DecidableEq, Repr

/-- A poll that has the answers of its two log queries. `remaining` are the logs that
the loop of `extractInboxData` has not reached; the whole answer and the messages
stored so far are kept for the statements about a whole poll. -/
structure StoreJob where
  range : ScanRange
  events : List BridgeMessageDelivered
  logs : List Log
  remaining : List Log
  stored : List DelayedMessage
deriving DecidableEq, Repr

/-- Where the polling goroutine is. -/
inductive PollPhase where
  | idle
  | latestKnown (endBlock : Nat)
  | headersKnown (endBlock finalized : Nat)
  | scanning (range : ScanRange)
  | delivered (range : ScanRange) (events : List BridgeMessageDelivered)
  | storing (job : StoreJob)
deriving DecidableEq, Repr

/-- Where the verifier goroutine is in `GetDelayedMessage`. A call that has found a message
waits for the answer to the query that it sent to the Bridge. -/
inductive CallPhase where
  | idle
  | lookedUp (messageIndex : Nat) (message : DelayedMessage) (query : BridgeQuery)
  | rewinding (messageIndex : Nat) (message : DelayedMessage)
  | checked (messageIndex : Nat) (message : DelayedMessage)
  | returned (messageIndex : Nat) (result : Except GetError Bytes)

/-- The shared fetcher, both goroutines, and the entries that `Advance` removed since
the poll in flight started. -/
structure FetcherState where
  fetcher : DelayedMessageFetcher
  poll : PollPhase
  call : CallPhase
  evicted : List DelayedMessage

/-- The scan cursor. -/
def FetcherState.parentBlockNumber (state : FetcherState) : Nat :=
  state.fetcher.parentBlockNumber

/-- The cached message of an index. -/
def FetcherState.cached (state : FetcherState) (messageIndex : Nat) : Option DelayedMessage :=
  state.fetcher.delayedMessages.get messageIndex

/-- A fetcher that has just been made. -/
def FetcherState.initial (finalizedBlock : Nat) : FetcherState where
  fetcher := newDelayedMessageFetcher finalizedBlock
  poll := .idle
  call := .idle
  evicted := []

/-- The steps of a poll, with the answers of the parent chain; `none` is a failed
call. -/
inductive PollLabel where
  | latest (header : Option Nat)
  | finalized (header : Option Nat)
  | start
  | bridge (events : Option (List BridgeMessageDelivered))
  | inbox (logs : Option (List Log))
  | extract (transaction : Option Bytes)
  | update
deriving DecidableEq, Repr

/-- The steps of the verifier goroutine. -/
inductive CallLabel where
  | lookup (messageIndex : Nat)
  | recheck (events : Option (List BridgeMessageDelivered)) (iterationFails : Bool)
  | rewind
  | finality (header : Option Nat)
  | finish
  | advance (toMessageIndex : Nat)
deriving DecidableEq, Repr

inductive FetcherLabel where
  | poll (label : PollLabel)
  | call (label : CallLabel)
deriving DecidableEq, Repr

variable (config : FetcherConfig)

/-- `poll` and the functions it calls. A call that fails ends the poll, and so does a
cursor ahead of the chain. Without events, or without logs for them, nothing is left
to store and the cursor is updated all the same. -/
def FetcherState.pollStep (state : FetcherState) (label : PollLabel) : Option FetcherState :=
  match state.poll, label with
  | .idle, .latest none => some state
  | .idle, .latest (some number) => some { state with poll := .latestKnown (u64 number) }
  | .latestKnown _, .finalized none => some { state with poll := .idle }
  | .latestKnown endBlock, .finalized (some number) =>
      some { state with poll := .headersKnown endBlock (u64 number) }
  | .headersKnown endBlock finalized, .start =>
      match scanRange config state.fetcher.parentBlockNumber endBlock with
      | none => some { state with poll := .idle }
      | some (startBlock, endBlock) =>
          some { state with poll := .scanning ⟨startBlock, endBlock, finalized⟩, evicted := [] }
  | .scanning _, .bridge none => some { state with poll := .idle }
  | .scanning range, .bridge (some []) =>
      some { state with poll := .storing ⟨range, [], [], [], []⟩ }
  | .scanning range, .bridge (some events) =>
      some { state with poll := .delivered range events }
  | .delivered _ _, .inbox none => some { state with poll := .idle }
  | .delivered range events, .inbox (some logs) =>
      some { state with poll := .storing ⟨range, events, logs, logs, []⟩ }
  | .storing job, .extract transaction =>
      match job.remaining with
      | [] => none
      | log :: rest =>
          match extractInboxLog config (collectEvents job.events) job.range.finalized log
              transaction with
          | .error _ => some { state with poll := .idle }
          | .ok message =>
              some { state with
                fetcher := state.fetcher.store message
                poll := .storing { job with
                  remaining := rest
                  stored := job.stored ++ [message] } }
  | .storing job, .update =>
      match job.remaining with
      | [] =>
          some { state with
            fetcher := state.fetcher.updateParentBlockNumber job.range.startBlock
              (u64 (job.range.endBlock + 1))
            poll := .idle }
      | _ :: _ => none
  | _, _ => none

/-- `GetDelayedMessage` and `Advance`. -/
def FetcherState.callStep (state : FetcherState) (label : CallLabel) : Option FetcherState :=
  match state.call, label with
  | .idle, .lookup messageIndex =>
      match state.fetcher.delayedMessages.get messageIndex with
      | none =>
          some { state with
            call := .returned messageIndex (.error
              (.delayedMessageNotFound messageIndex state.fetcher.parentBlockNumber)) }
      | some message =>
          some { state with call := .lookedUp messageIndex message (recheckQuery message) }
  | .lookedUp messageIndex message _, .recheck events iterationFails =>
      match verifyDelayedMessageOnParentChain config message events iterationFails with
      | none =>
          some { state with
            call := .returned messageIndex (.error (.recheckFailed message.messageIndex)) }
      | some false => some { state with call := .rewinding messageIndex message }
      | some true =>
          if config.waitForFinality then
            some { state with call := .checked messageIndex message }
          else some { state with call := .returned messageIndex (.ok message.data) }
  | .rewinding messageIndex message, .rewind =>
      some { state with
        fetcher := state.fetcher.rewind message
        call := .returned messageIndex
          (.error (.delayedMessageNotFound messageIndex message.parentBlock)) }
  | .checked messageIndex message, .finality header =>
      some { state with
        call := .returned messageIndex (ensureFinality message messageIndex header) }
  | .returned _ _, .finish => some { state with call := .idle }
  | .idle, .advance toMessageIndex =>
      some { state with
        fetcher := state.fetcher.advance toMessageIndex
        evicted := state.evicted ++ state.fetcher.delayedMessages.evictedBy toMessageIndex }
  | _, _ => none

/-- One step of either goroutine. -/
def FetcherState.step (state : FetcherState) : FetcherLabel → Option FetcherState
  | .poll label => state.pollStep config label
  | .call label => state.callStep config label

/-- The fetcher with arbitrary answers of the parent chain. -/
def fetcherMachine : Machine FetcherState FetcherLabel where
  step := FetcherState.step config

/-- The index that a call of `GetDelayedMessage` is about. -/
def CallPhase.index? : CallPhase → Option Nat
  | .idle => none
  | .lookedUp messageIndex _ _ | .rewinding messageIndex _ | .checked messageIndex _
  | .returned messageIndex _ => some messageIndex

theorem CallPhase.index?_eq_none {call : CallPhase} : call.index? = none ↔ call = .idle := by
  cases call <;> simp [CallPhase.index?]

/-! ### What each step can do -/

/-- The steps of a poll. Only `stored` writes the cache and only `updated` the
cursor. -/
inductive PollOutcome (before : FetcherState) : PollLabel → FetcherState → Prop where
  | abandoned {label : PollLabel} (notUpdate : label ≠ .update) :
      PollOutcome before label { before with poll := .idle }
  | latest {number : Nat} (phase : before.poll = .idle) :
      PollOutcome before (.latest (some number))
        { before with poll := .latestKnown (u64 number) }
  | finalized {endBlock number : Nat} (phase : before.poll = .latestKnown endBlock) :
      PollOutcome before (.finalized (some number))
        { before with poll := .headersKnown endBlock (u64 number) }
  | started {latest finalized startBlock endBlock : Nat}
      (phase : before.poll = .headersKnown latest finalized)
      (scanned : scanRange config before.parentBlockNumber latest =
        some (startBlock, endBlock)) :
      PollOutcome before .start
        { before with poll := .scanning ⟨startBlock, endBlock, finalized⟩, evicted := [] }
  | noEvents {range : ScanRange} (phase : before.poll = .scanning range) :
      PollOutcome before (.bridge (some []))
        { before with poll := .storing ⟨range, [], [], [], []⟩ }
  | delivered {range : ScanRange} {events : List BridgeMessageDelivered}
      (phase : before.poll = .scanning range) :
      PollOutcome before (.bridge (some events))
        { before with poll := .delivered range events }
  | logged {range : ScanRange} {events : List BridgeMessageDelivered} {logs : List Log}
      (phase : before.poll = .delivered range events) :
      PollOutcome before (.inbox (some logs))
        { before with poll := .storing ⟨range, events, logs, logs, []⟩ }
  | stored {job : StoreJob} {log : Log} {rest : List Log} {transaction : Option Bytes}
      {message : DelayedMessage} (phase : before.poll = .storing job)
      (next : job.remaining = log :: rest)
      (extracted : extractInboxLog config (collectEvents job.events) job.range.finalized log
        transaction = .ok message) :
      PollOutcome before (.extract transaction)
        { before with
          fetcher := before.fetcher.store message
          poll := .storing { job with
            remaining := rest
            stored := job.stored ++ [message] } }
  | updated {job : StoreJob} (phase : before.poll = .storing job)
      (finished : job.remaining = []) :
      PollOutcome before .update
        { before with
          fetcher := before.fetcher.updateParentBlockNumber job.range.startBlock
            (u64 (job.range.endBlock + 1))
          poll := .idle }

/-- The steps of the verifier goroutine. Only `rewound` and `advanced` write what is
shared. -/
inductive CallOutcome (before : FetcherState) : CallLabel → FetcherState → Prop where
  | missing {messageIndex : Nat} (phase : before.call = .idle)
      (absent : before.cached messageIndex = none) :
      CallOutcome before (.lookup messageIndex)
        { before with
          call := .returned messageIndex (.error
            (.delayedMessageNotFound messageIndex before.parentBlockNumber)) }
  | lookedUp {messageIndex : Nat} {message : DelayedMessage} (phase : before.call = .idle)
      (present : before.cached messageIndex = some message) :
      CallOutcome before (.lookup messageIndex)
        { before with call := .lookedUp messageIndex message (recheckQuery message) }
  | recheckFailed {messageIndex : Nat} {message : DelayedMessage} {query : BridgeQuery}
      {events : Option (List BridgeMessageDelivered)} {iterationFails : Bool}
      (phase : before.call = .lookedUp messageIndex message query) :
      CallOutcome before (.recheck events iterationFails)
        { before with
          call := .returned messageIndex (.error (.recheckFailed message.messageIndex)) }
  | gone {messageIndex : Nat} {message : DelayedMessage} {query : BridgeQuery}
      {events : Option (List BridgeMessageDelivered)} {iterationFails : Bool}
      (phase : before.call = .lookedUp messageIndex message query)
      (answer : verifyDelayedMessageOnParentChain config message events iterationFails =
        some false) :
      CallOutcome before (.recheck events iterationFails)
        { before with call := .rewinding messageIndex message }
  | checked {messageIndex : Nat} {message : DelayedMessage} {query : BridgeQuery}
      {events : Option (List BridgeMessageDelivered)} {iterationFails : Bool}
      (phase : before.call = .lookedUp messageIndex message query)
      (answer : verifyDelayedMessageOnParentChain config message events iterationFails =
        some true) (waits : config.waitForFinality = true) :
      CallOutcome before (.recheck events iterationFails)
        { before with call := .checked messageIndex message }
  | unchecked {messageIndex : Nat} {message : DelayedMessage} {query : BridgeQuery}
      {events : Option (List BridgeMessageDelivered)} {iterationFails : Bool}
      (phase : before.call = .lookedUp messageIndex message query)
      (answer : verifyDelayedMessageOnParentChain config message events iterationFails =
        some true) (immediate : config.waitForFinality = false) :
      CallOutcome before (.recheck events iterationFails)
        { before with call := .returned messageIndex (.ok message.data) }
  | rewound {messageIndex : Nat} {message : DelayedMessage}
      (phase : before.call = .rewinding messageIndex message) :
      CallOutcome before .rewind
        { before with
          fetcher := before.fetcher.rewind message
          call := .returned messageIndex
            (.error (.delayedMessageNotFound messageIndex message.parentBlock)) }
  | final {messageIndex : Nat} {message : DelayedMessage} {header : Option Nat}
      (phase : before.call = .checked messageIndex message) :
      CallOutcome before (.finality header)
        { before with
          call := .returned messageIndex (ensureFinality message messageIndex header) }
  | finished {messageIndex : Nat} {result : Except GetError Bytes}
      (phase : before.call = .returned messageIndex result) :
      CallOutcome before .finish { before with call := .idle }
  | advanced {toMessageIndex : Nat} (phase : before.call = .idle) :
      CallOutcome before (.advance toMessageIndex)
        { before with
          fetcher := before.fetcher.advance toMessageIndex
          evicted := before.evicted ++
            before.fetcher.delayedMessages.evictedBy toMessageIndex }

variable {config}

theorem pollStep_outcome {before after : FetcherState} {label : PollLabel}
    (transition : before.pollStep config label = some after) :
    PollOutcome config before label after := by
  obtain ⟨fetcher, poll, call, evicted⟩ := before
  simp only [FetcherState.pollStep] at transition
  split at transition
  · cases transition
    exact .abandoned nofun
  · cases transition
    exact .latest rfl
  · cases transition
    exact .abandoned nofun
  · cases transition
    exact .finalized rfl
  · split at transition
    · cases transition
      exact .abandoned nofun
    · rename_i scanned
      cases transition
      exact .started rfl scanned
  · cases transition
    exact .abandoned nofun
  · cases transition
    exact .noEvents rfl
  · cases transition
    exact .delivered rfl
  · cases transition
    exact .abandoned nofun
  · cases transition
    exact .logged rfl
  · split at transition
    · cases transition
    · rename_i next
      split at transition
      · cases transition
        exact .abandoned nofun
      · rename_i extracted
        cases transition
        exact .stored rfl next extracted
  · split at transition
    · rename_i finished
      cases transition
      exact .updated rfl finished
    · cases transition
  · cases transition

theorem callStep_outcome {before after : FetcherState} {label : CallLabel}
    (transition : before.callStep config label = some after) :
    CallOutcome config before label after := by
  obtain ⟨fetcher, poll, call, evicted⟩ := before
  simp only [FetcherState.callStep] at transition
  split at transition
  · split at transition
    · rename_i absent
      cases transition
      exact .missing rfl absent
    · rename_i present
      cases transition
      exact .lookedUp rfl present
  · split at transition
    · cases transition
      exact .recheckFailed rfl
    · rename_i answer
      cases transition
      exact .gone rfl answer
    · rename_i answer
      split at transition
      · rename_i waits
        cases transition
        exact .checked rfl answer waits
      · rename_i immediate
        cases transition
        exact .unchecked rfl answer (eq_false_of_ne_true immediate)
  · cases transition
    exact .rewound rfl
  · cases transition
    exact .final rfl
  · cases transition
    exact .finished rfl
  · cases transition
    exact .advanced rfl
  · cases transition

/-- A lookup starts a call for its index. -/
theorem index_of_lookup {before after : FetcherState} {messageIndex : Nat}
    (transition : before.callStep config (.lookup messageIndex) = some after) :
    after.call.index? = some messageIndex := by
  cases callStep_outcome transition <;> rfl

/-- The steps between a lookup and the return are about the same index. -/
theorem index_of_callStep {before after : FetcherState} {label : CallLabel}
    (notLookup : ∀ messageIndex, label ≠ .lookup messageIndex) (notFinish : label ≠ .finish)
    (transition : before.callStep config label = some after) :
    after.call.index? = before.call.index? := by
  cases callStep_outcome transition with
  | missing | lookedUp => exact absurd rfl (notLookup _)
  | recheckFailed phase | gone phase | checked phase | unchecked phase | rewound phase
  | final phase => simp [phase, CallPhase.index?]
  | finished => exact absurd rfl notFinish
  | advanced => rfl

/-! ### What a poll keeps track of -/

/-- One log was extracted into a message under the hashes of a poll's events. -/
def StoreJob.Extracted (config : FetcherConfig) (job : StoreJob) (log : Log)
    (message : DelayedMessage) : Prop :=
  ∃ transaction, extractInboxLog config (collectEvents job.events) job.range.finalized log
    transaction = .ok message

/-- The logs and the stored messages of a poll belong together: every log is still to
come or was extracted into a stored message, and every stored message came from a
log. -/
structure StoreJob.Accounted (config : FetcherConfig) (job : StoreJob) : Prop where
  remaining : ∀ log ∈ job.remaining, log ∈ job.logs
  logs : ∀ log ∈ job.logs, log ∈ job.remaining ∨
    ∃ message ∈ job.stored, job.Extracted config log message
  stored : ∀ message ∈ job.stored, ∃ log ∈ job.logs, job.Extracted config log message

/-- Every job of a run accounts for its stored messages. -/
def JobsAccounted (config : FetcherConfig) (state : FetcherState) : Prop :=
  ∀ job, state.poll = .storing job → job.Accounted config

theorem jobsAccounted_initial (finalizedBlock : Nat) :
    JobsAccounted config (.initial finalizedBlock) := by
  intro job storing
  cases storing

theorem PollOutcome.jobsAccounted {before after : FetcherState} {label : PollLabel}
    (outcome : PollOutcome config before label after) (prior : JobsAccounted config before) :
    JobsAccounted config after := by
  intro job storing
  cases outcome with
  | noEvents =>
      cases storing
      exact ⟨nofun, nofun, nofun⟩
  | logged =>
      cases storing
      exact ⟨fun _ member => member, fun _ member => .inl member, nofun⟩
  | @stored earlier log rest transaction message phase next extracted =>
      cases storing
      have accounted := prior _ phase
      have result : earlier.Extracted config log message := ⟨transaction, extracted⟩
      refine ⟨?_, ?_, ?_⟩
      · intro other member
        exact accounted.remaining other (next ▸ List.mem_cons_of_mem _ member)
      · intro other member
        rcases accounted.logs other member with waiting | ⟨kept, found, origin⟩
        · rw [next] at waiting
          rcases List.mem_cons.mp waiting with rfl | later
          · exact .inr ⟨message, List.mem_append_right _ (List.mem_singleton_self _), result⟩
          · exact .inl later
        · exact .inr ⟨kept, List.mem_append_left _ found, origin⟩
      · intro other member
        rcases List.mem_append.mp member with old | new
        · exact accounted.stored other old
        · rw [List.mem_singleton] at new
          subst new
          exact ⟨log, accounted.remaining log (next ▸ List.mem_cons_self), result⟩
  | abandoned | latest | finalized | started | delivered | updated => cases storing

theorem PollOutcome.call_eq {before after : FetcherState} {label : PollLabel}
    (outcome : PollOutcome config before label after) : after.call = before.call := by
  cases outcome <;> rfl

theorem CallOutcome.poll_eq {before after : FetcherState} {label : CallLabel}
    (outcome : CallOutcome config before label after) : after.poll = before.poll := by
  cases outcome <;> rfl

theorem JobsAccounted.step {before after : FetcherState} {label : FetcherLabel}
    (prior : JobsAccounted config before)
    (transition : before.step config label = some after) : JobsAccounted config after := by
  cases label with
  | poll label => exact (pollStep_outcome transition).jobsAccounted prior
  | call label =>
      intro job storing
      rw [(callStep_outcome transition).poll_eq] at storing
      exact prior job storing

theorem jobsAccounted_of_runs {admits : FetcherState → FetcherLabel → Prop}
    {finalizedBlock : Nat} {labels : List FetcherLabel} {state : FetcherState}
    (run : (fetcherMachine config).Runs admits (.initial finalizedBlock) labels state) :
    JobsAccounted config state :=
  run.invariant (jobsAccounted_initial finalizedBlock) fun prior _ transition =>
    JobsAccounted.step prior transition

/-! ### A concrete configuration -/

/-- A configuration whose hash is the data read as a number, and whose Inbox logs
carry the data as it is. -/
def sampleConfig : FetcherConfig where
  waitForFinality := true
  maxBlocksPerScan := 0
  inboxMessageDeliveredTopic := 1
  inboxFromOriginTopic := 2
  sendL2FromOriginSelector := [1, 2, 3, 4]
  keccak256 data := BitVec.ofNat 256 (data.foldl (fun hash byte => 256 * hash + byte.toNat) 1)
  parseInboxMessageDelivered log := some log.data
  unpackSendL2FromOrigin data := some data

/-- The event of a message with one byte of data. -/
def sampleEvent (messageIndex : Nat) (byte : UInt8) : BridgeMessageDelivered :=
  ⟨messageIndex, 7, sampleConfig.keccak256 [byte]⟩

/-- The Inbox log of that message. -/
def sampleLog (messageIndex : Nat) (byte : UInt8) (blockNumber : Nat) : Log :=
  ⟨7, [1, BitVec.ofNat 256 messageIndex], [byte], blockNumber, 0⟩

/-- The first steps of a poll, up to the answers of its two log queries. -/
def samplePoll (latest finalized : Nat) (events : List BridgeMessageDelivered)
    (logs : List Log) : List FetcherLabel :=
  [.poll (.latest (some latest)), .poll (.finalized (some finalized)), .poll .start,
    .poll (.bridge (some events)), .poll (.inbox (some logs))]

end EspressoProxy.Verifier.Nitro
