import EspressoProxy.Verifier.Nitro.FetcherMachine

/-!
# Where delayed messages come from

Whatever the parent chain answers, a cached message carries the data that the Bridge
announced to the poll that stored it, and data is only returned after a query of the
same call has confirmed it. Both are facts about the history of a run: which poll
stored an entry, and what was asked during a call.
-/

namespace EspressoProxy.Verifier.Nitro

open EspressoProxy.Ethereum EspressoProxy.Semantics

/-- The Bridge announces indexes that are 64-bit numbers. -/
def IndexesBounded (_ : FetcherState) : FetcherLabel → Prop
  | .poll (.bridge (some events)) => ∀ event ∈ events, event.messageIndex < 2 ^ 64
  | _ => True

instance (state : FetcherState) (label : FetcherLabel) : Decidable (IndexesBounded state label) :=
  match label with
  | .poll (.bridge (some events)) =>
      inferInstanceAs (Decidable (∀ event ∈ events, event.messageIndex < 2 ^ 64))
  | .poll (.bridge none) | .poll (.latest _) | .poll (.finalized _) | .poll .start
  | .poll (.inbox _) | .poll (.extract _) | .poll .update | .call _ => .isTrue trivial

section History

variable (config : FetcherConfig) (finalizedBlock : Nat) (labels : List FetcherLabel)

/-- The Bridge query of the latest poll returned `events`: no poll started since. -/
def BridgeAnswered (events : List BridgeMessageDelivered) : Prop :=
  (fetcherMachine config).Since IndexesBounded (.initial finalizedBlock)
    (fun _ _ label _ => label = .poll (.bridge (some events)))
    (fun label => label ≠ .poll .start) labels

/-- A poll whose Bridge query returned `events` stored the message. -/
def StoredByPoll (message : DelayedMessage) (events : List BridgeMessageDelivered) : Prop :=
  (fetcherMachine config).Since IndexesBounded (.initial finalizedBlock)
    (fun taken before label after => BridgeAnswered config finalizedBlock taken events ∧
      (∃ transaction, label = .poll (.extract transaction)) ∧
      after.fetcher = before.fetcher.store message)
    (fun _ => True) labels

/-- The call of `GetDelayedMessage` in progress found the message in the cache. -/
def FoundByCall (messageIndex : Nat) (message : DelayedMessage) : Prop :=
  (fetcherMachine config).Since IndexesBounded (.initial finalizedBlock)
    (fun _ before label _ =>
      label = .call (.lookup messageIndex) ∧ before.cached messageIndex = some message)
    (fun label => label ≠ .call .finish) labels

/-- The call in progress sent the query to the Bridge, and `events` were returned. -/
def AskedByCall (query : BridgeQuery) (events : List BridgeMessageDelivered) : Prop :=
  (fetcherMachine config).Since IndexesBounded (.initial finalizedBlock)
    (fun _ before label _ =>
      (∃ messageIndex message, before.call = .lookedUp messageIndex message query) ∧
        ∃ iterationFails, label = .call (.recheck (some events) iterationFails))
    (fun label => label ≠ .call .finish) labels

/-- The call in progress found the message and an event with the hash of its data. -/
def ConfirmedByCall (messageIndex : Nat) (message : DelayedMessage) : Prop :=
  FoundByCall config finalizedBlock labels messageIndex message ∧
    ∃ events, AskedByCall config finalizedBlock labels (recheckQuery message) events ∧
      ∃ event ∈ events, event.messageDataHash = config.keccak256 message.data

/-- A poll that knows events got them from its Bridge query. -/
def PollPhase.Answered : PollPhase → Prop
  | .delivered _ events => BridgeAnswered config finalizedBlock labels events
  | .storing job => BridgeAnswered config finalizedBlock labels job.events
  | _ => True

/-- What is known about the call in progress in each of its phases. -/
def CallPhase.Confirmed : CallPhase → Prop
  | .lookedUp messageIndex message query =>
      FoundByCall config finalizedBlock labels messageIndex message ∧ query = recheckQuery message
  | .rewinding messageIndex message =>
      FoundByCall config finalizedBlock labels messageIndex message
  | .checked messageIndex message =>
      ConfirmedByCall config finalizedBlock labels messageIndex message
  | .returned messageIndex (.ok data) =>
      ∃ message, data = message.data ∧
        ConfirmedByCall config finalizedBlock labels messageIndex message
  | .idle | .returned _ (.error _) => True

/-- An entry was stored by a poll, and carries what the Bridge announced to that poll. -/
def DelayedMessage.Announced (message : DelayedMessage) : Prop :=
  ∃ events, StoredByPoll config finalizedBlock labels message events ∧
    ∃ event ∈ events, event.messageIndex = message.messageIndex ∧
      event.messageDataHash = config.keccak256 message.data

/-- The invariant of runs, about the labels taken and the state they led to. -/
structure Authentic (state : FetcherState) : Prop where
  entries : ∀ {messageIndex message}, state.cached messageIndex = some message →
    message.Announced config finalizedBlock labels
  poll : state.poll.Answered config finalizedBlock labels
  call : state.call.Confirmed config finalizedBlock labels

end History

variable {config : FetcherConfig} {finalizedBlock : Nat} {labels : List FetcherLabel}

theorem authentic_initial :
    Authentic config finalizedBlock [] (.initial finalizedBlock) where
  entries := by
    intro messageIndex message found
    cases (DelayedMessageCache.get_empty messageIndex).symm.trans found
  poll := trivial
  call := trivial

theorem BridgeAnswered.bounded {events : List BridgeMessageDelivered}
    (answered : BridgeAnswered config finalizedBlock labels events) :
    ∀ event ∈ events, event.messageIndex < 2 ^ 64 := by
  obtain ⟨taken, before, label, after, -, admitted, rfl⟩ := answered.happened
  exact admitted

theorem DelayedMessage.Announced.later {message : DelayedMessage}
    (announced : message.Announced config finalizedBlock labels) (label : FetcherLabel) :
    message.Announced config finalizedBlock (labels ++ [label]) := by
  obtain ⟨events, stored, event⟩ := announced
  exact ⟨events, Machine.Since.later stored trivial, event⟩

theorem ConfirmedByCall.later {messageIndex : Nat} {message : DelayedMessage}
    (confirmed : ConfirmedByCall config finalizedBlock labels messageIndex message)
    {label : FetcherLabel} (within : label ≠ .call .finish) :
    ConfirmedByCall config finalizedBlock (labels ++ [label]) messageIndex message := by
  obtain ⟨found, events, asked, event⟩ := confirmed
  exact ⟨Machine.Since.later found within, events, Machine.Since.later asked within, event⟩

theorem PollPhase.Answered.later {poll : PollPhase}
    (answered : poll.Answered config finalizedBlock labels) {label : FetcherLabel}
    (within : label ≠ .poll .start) : poll.Answered config finalizedBlock (labels ++ [label]) := by
  cases poll with
  | delivered | storing => exact Machine.Since.later answered within
  | idle | latestKnown | headersKnown | scanning => trivial

theorem CallPhase.Confirmed.later {call : CallPhase}
    (confirmed : call.Confirmed config finalizedBlock labels) {label : FetcherLabel}
    (within : label ≠ .call .finish) :
    call.Confirmed config finalizedBlock (labels ++ [label]) := by
  cases call with
  | idle => trivial
  | lookedUp => exact ⟨Machine.Since.later confirmed.1 within, confirmed.2⟩
  | rewinding => exact Machine.Since.later confirmed within
  | checked => exact ConfirmedByCall.later confirmed within
  | returned messageIndex result =>
      cases result with
      | error => trivial
      | ok data =>
          obtain ⟨message, same, asked⟩ := confirmed
          exact ⟨message, same, asked.later within⟩

/-- A message that a poll extracts carries what the Bridge announced to it. -/
theorem announced_of_extracted {before after : FetcherState} {job : StoreJob} {log : Log}
    {transaction : Option Bytes} {message : DelayedMessage}
    (run : (fetcherMachine config).Runs IndexesBounded (.initial finalizedBlock) labels before)
    (transition : before.step config (.poll (.extract transaction)) = some after)
    (answered : BridgeAnswered config finalizedBlock labels job.events)
    (stored : after.fetcher = before.fetcher.store message)
    (extracted : extractInboxLog config (collectEvents job.events) job.range.finalized log
      transaction = .ok message) :
    message.Announced config finalizedBlock (labels ++ [.poll (.extract transaction)]) := by
  obtain ⟨-, expected, -, -⟩ := extractInboxLog_ok extracted
  obtain ⟨event, member, index, hash⟩ := exists_event_of_dataHashes expected
  rw [u64_of_lt (answered.bounded event member)] at index
  exact ⟨job.events,
    Machine.Since.now run trivial transition ⟨answered, ⟨transaction, rfl⟩, stored⟩,
    event, member, index, hash⟩

theorem Authentic.poll_step {before after : FetcherState} {label : PollLabel}
    (run : (fetcherMachine config).Runs IndexesBounded (.initial finalizedBlock) labels before)
    (authentic : Authentic config finalizedBlock labels before)
    (admitted : IndexesBounded before (.poll label))
    (transition : before.step config (.poll label) = some after) :
    Authentic config finalizedBlock (labels ++ [.poll label]) after := by
  have outcome := pollStep_outcome transition
  have entries : ∀ {messageIndex message}, before.cached messageIndex = some message →
      message.Announced config finalizedBlock (labels ++ [.poll label]) :=
    fun found => (authentic.entries found).later _
  have poll := authentic.poll
  refine ⟨?_, ?_, outcome.call_eq ▸ authentic.call.later nofun⟩
  · intro messageIndex message found
    cases outcome with
    | stored phase next extracted =>
        rw [phase] at poll
        have new := announced_of_extracted run transition poll rfl extracted
        have inserted := (DelayedMessageCache.get_insert _ _ _).symm.trans found
        split at inserted
        · cases inserted
          exact new
        · exact entries inserted
    | updated =>
        simp only [FetcherState.cached,
          DelayedMessageFetcher.delayedMessages_updateParentBlockNumber] at found
        exact entries found
    | _ => exact entries found
  · cases outcome with
    | noEvents | delivered => exact Machine.Since.now run admitted transition rfl
    | logged phase | stored phase =>
        rw [phase] at poll
        exact Machine.Since.later poll nofun
    | abandoned | latest | finalized | started | updated => trivial

/-- A re-check that finds the message confirms it for the call in progress. -/
theorem confirmed_of_recheck {before after : FetcherState} {messageIndex : Nat}
    {message : DelayedMessage} {events : Option (List BridgeMessageDelivered)}
    {iterationFails : Bool}
    (run : (fetcherMachine config).Runs IndexesBounded (.initial finalizedBlock) labels before)
    (transition : before.step config (.call (.recheck events iterationFails)) = some after)
    (phase : before.call = .lookedUp messageIndex message (recheckQuery message))
    (found : FoundByCall config finalizedBlock labels messageIndex message)
    (answer : verifyDelayedMessageOnParentChain config message events iterationFails =
      some true) :
    ConfirmedByCall config finalizedBlock (labels ++ [.call (.recheck events iterationFails)])
      messageIndex message := by
  obtain ⟨listed, rfl, event⟩ := verifyDelayedMessageOnParentChain_true answer
  exact ⟨Machine.Since.later found nofun, listed,
    Machine.Since.now run trivial transition ⟨⟨messageIndex, message, phase⟩, iterationFails, rfl⟩,
    event⟩

theorem Authentic.call_step {before after : FetcherState} {label : CallLabel}
    (run : (fetcherMachine config).Runs IndexesBounded (.initial finalizedBlock) labels before)
    (authentic : Authentic config finalizedBlock labels before)
    (transition : before.step config (.call label) = some after) :
    Authentic config finalizedBlock (labels ++ [.call label]) after := by
  have outcome := callStep_outcome transition
  have call := authentic.call
  refine ⟨?_, outcome.poll_eq ▸ authentic.poll.later nofun, ?_⟩
  · intro messageIndex message found
    apply DelayedMessage.Announced.later
    cases outcome with
    | rewound => cases (DelayedMessageCache.get_empty messageIndex).symm.trans found
    | advanced =>
        have kept := (DelayedMessageCache.get_advance _ _ _).symm.trans found
        split at kept
        · cases kept
        · exact authentic.entries kept
    | _ => exact authentic.entries found
  · cases outcome with
    | missing | recheckFailed | rewound | finished => trivial
    | advanced => exact call.later nofun
    | lookedUp phase present =>
        exact ⟨Machine.Since.now run trivial transition ⟨rfl, present⟩, rfl⟩
    | gone phase =>
        rw [phase] at call
        exact Machine.Since.later call.1 nofun
    | checked phase answer =>
        rw [phase] at call
        obtain ⟨found, rfl⟩ := call
        exact confirmed_of_recheck run transition phase found answer
    | unchecked phase answer =>
        rw [phase] at call
        obtain ⟨found, rfl⟩ := call
        exact ⟨_, rfl, confirmed_of_recheck run transition phase found answer⟩
    | @final messageIndex message header phase =>
        rw [phase] at call
        cases result : ensureFinality message messageIndex header with
        | error => trivial
        | ok data =>
            exact ⟨message, (ensureFinality_ok result).1, ConfirmedByCall.later call nofun⟩

theorem Authentic.step {before after : FetcherState} {label : FetcherLabel}
    (run : (fetcherMachine config).Runs IndexesBounded (.initial finalizedBlock) labels before)
    (authentic : Authentic config finalizedBlock labels before)
    (admitted : IndexesBounded before label)
    (transition : before.step config label = some after) :
    Authentic config finalizedBlock (labels ++ [label]) after := by
  cases label with
  | poll label => exact authentic.poll_step run admitted transition
  | call label => exact authentic.call_step run transition

theorem authentic_of_runs {state : FetcherState}
    (run : (fetcherMachine config).Runs IndexesBounded (.initial finalizedBlock) labels state) :
    Authentic config finalizedBlock labels state :=
  run.invariantAlong authentic_initial fun prior authentic admitted transition =>
    authentic.step prior admitted transition

/-- Authenticity. In every interleaving of polls, rewinds and calls, an entry is stored
under its own index and has the data that the Bridge announced for that index to the poll
that stored it. Data that `GetDelayedMessage` returns is that of an entry the call found,
and the Bridge has confirmed it to a query of the same call for the block and the index
of the entry. -/
theorem delayed_message_authentic {state : FetcherState}
    (run : (fetcherMachine config).Runs IndexesBounded (.initial finalizedBlock) labels state) :
    (∀ messageIndex message, state.cached messageIndex = some message →
      message.messageIndex = messageIndex ∧
        ∃ events, StoredByPoll config finalizedBlock labels message events ∧
          ∃ event ∈ events, event.messageIndex = messageIndex ∧
            event.messageDataHash = config.keccak256 message.data) ∧
    ∀ messageIndex data, state.call = .returned messageIndex (.ok data) →
      ∃ message events, data = message.data ∧
        FoundByCall config finalizedBlock labels messageIndex message ∧
        AskedByCall config finalizedBlock labels
          ⟨message.parentBlock, message.parentBlock, messageIndex⟩ events ∧
        ∃ event ∈ events, event.messageDataHash = config.keccak256 data := by
  have authentic := authentic_of_runs run
  constructor
  · intro messageIndex message found
    have key : message.messageIndex = messageIndex :=
      DelayedMessageCache.messageIndex_of_get found
    obtain ⟨events, stored, event, member, index, hash⟩ := authentic.entries found
    exact ⟨key, events, stored, event, member, index.trans key, hash⟩
  · intro messageIndex data returned
    have call := authentic.call
    rw [returned] at call
    obtain ⟨message, rfl, found, events, asked, event⟩ := call
    obtain ⟨taken, before, label, after, -, -, -, present⟩ := found.happened
    have key : message.messageIndex = messageIndex :=
      DelayedMessageCache.messageIndex_of_get present
    rw [recheckQuery, key] at asked
    exact ⟨message, events, rfl, found, asked, event⟩

/-- A poll stores message 0, whose data is in calldata, and a call returns it. -/
theorem delayed_message_authentic_from_origin :
    let labels := samplePoll 10 2 [sampleEvent 0 5] [⟨7, [2, 0], [], 7, 0⟩] ++
      [.poll (.extract (some [1, 2, 3, 4, 5])), .poll .update, .call (.lookup 0),
        .call (.recheck (some [sampleEvent 0 5]) false), .call (.finality (some 8))]
    ∃ state, (fetcherMachine sampleConfig).Runs IndexesBounded (.initial 2) labels state ∧
      state.cached 0 = some ⟨[5], 7, 0, 2⟩ ∧ state.call = .returned 0 (.ok [5]) ∧
      (∃ events, StoredByPoll sampleConfig 2 labels ⟨[5], 7, 0, 2⟩ events) ∧
      ∃ query events, AskedByCall sampleConfig 2 labels query events ∧
        query.messageIndex = 0 ∧
        ∃ event ∈ events, event.messageDataHash = sampleConfig.keccak256 [5] := by
  intro labels
  obtain ⟨state, computed, cached, returned⟩ :
      ∃ state, (fetcherMachine sampleConfig).exec IndexesBounded (.initial 2) labels =
        some state ∧ state.cached 0 = some ⟨[5], 7, 0, 2⟩ ∧
        state.call = .returned 0 (.ok [5]) := ⟨_, rfl, rfl, rfl⟩
  have run := Machine.Runs.ofExec computed
  obtain ⟨entries, calls⟩ := delayed_message_authentic run
  obtain ⟨-, stored, byPoll, -⟩ := entries 0 _ cached
  obtain ⟨message, events, -, -, asked, event⟩ := calls 0 _ returned
  exact ⟨state, run, cached, returned, ⟨stored, byPoll⟩, _, events, asked, rfl, event⟩

end EspressoProxy.Verifier.Nitro
