import EspressoProxy.Verifier.Nitro.FetcherMachine

/-!
# What a moved scan cursor says about the cache

A poll ends by moving the cursor past the range it scanned, if the cursor is still
where the poll found it. Two things are asked of that moment: that everything the
Bridge announced in the range was stored, and that nothing that was stored has been
cleared by a rewind in between.

Neither holds without a condition. The loop over the Inbox logs checks every log
against the Bridge events, and never the events against the logs. The comparison of
the cursor with its old value does not notice a rewind to that very value.
-/

namespace EspressoProxy.Verifier.Nitro

open EspressoProxy.Ethereum EspressoProxy.Semantics

variable {config : FetcherConfig}

/-! ### Stored ranges -/

/-- The hash that the last event of an index announces. -/
def announcedHash (events : List BridgeMessageDelivered) (messageIndex : Nat) : Option Hash :=
  (events.filter fun event => event.messageIndex = messageIndex).getLast?.map (·.messageDataHash)

/-- Below `2^64` the map of `fetchInboxData` has the announced hashes. -/
theorem dataHashes_eq_announcedHash {events : List BridgeMessageDelivered}
    (bounded : ∀ event ∈ events, event.messageIndex < 2 ^ 64) (messageIndex : Nat) :
    (collectEvents events).dataHashes.get messageIndex = announcedHash events messageIndex := by
  rw [dataHashes_collectEvents, announcedHash]
  have sameEvents : (events.filter fun event => u64 event.messageIndex = messageIndex) =
      events.filter fun event => event.messageIndex = messageIndex := by
    apply List.filter_congr
    intro event member
    rw [u64_of_lt (bounded event member)]
  rw [sameEvents]

/-- The step for one log puts a message into the cache: the poll goes on, and the cache has the
message under the index of the log. -/
def WritesEntry (message : DelayedMessage) (before : FetcherState) (label : FetcherLabel)
    (after : FetcherState) : Prop :=
  ∃ job log rest transaction, label = .poll (.extract transaction) ∧
    before.poll = .storing job ∧ job.remaining = log :: rest ∧
    log.messageIndex = some message.messageIndex ∧ after.poll ≠ .idle ∧
    after.cached message.messageIndex = some message

/-- The poll in flight put the message into the cache: no poll started since. -/
def WrittenByPoll (config : FetcherConfig) (finalizedBlock : Nat) (labels : List FetcherLabel)
    (message : DelayedMessage) : Prop :=
  (fetcherMachine config).Since (fun _ _ => True) (.initial finalizedBlock)
    (fun _ before label after => WritesEntry message before label after)
    (fun label => label ≠ .poll .start) labels

/-- The poll in flight stored a cache entry for an event: under the event's index, with data
that hashes to what the event announces. -/
def EntryStored (config : FetcherConfig) (finalizedBlock : Nat) (labels : List FetcherLabel)
    (event : BridgeMessageDelivered) : Prop :=
  ∃ message, WrittenByPoll config finalizedBlock labels message ∧
    message.messageIndex = event.messageIndex ∧
    config.keccak256 message.data = event.messageDataHash

/-- The Inbox answered an event: some log has its index, and no later event of that
index announces another hash. -/
def StoreJob.Answered (job : StoreJob) (event : BridgeMessageDelivered) : Prop :=
  (∃ log ∈ job.logs, log.messageIndex = some event.messageIndex) ∧
    announcedHash job.events event.messageIndex = some event.messageDataHash

/-- When the loop over the logs is done, the messages it went through are exactly those of the
answered events. -/
theorem StoreJob.Accounted.exists_stored_iff {job : StoreJob} (accounted : job.Accounted config)
    (finished : job.remaining = [])
    (bounded : ∀ event ∈ job.events, event.messageIndex < 2 ^ 64)
    (event : BridgeMessageDelivered) :
    (∃ message ∈ job.stored, message.messageIndex = event.messageIndex ∧
      config.keccak256 message.data = event.messageDataHash) ↔ job.Answered event := by
  constructor
  · rintro ⟨message, stored, sameIndex, sameHash⟩
    obtain ⟨log, member, transaction, extracted⟩ := accounted.stored message stored
    obtain ⟨indexed, announced, -, -⟩ := extractInboxLog_ok extracted
    rw [sameIndex] at indexed
    rw [dataHashes_eq_announcedHash bounded, sameIndex, sameHash] at announced
    exact ⟨⟨log, member, indexed⟩, announced⟩
  · rintro ⟨⟨log, member, indexed⟩, announced⟩
    rcases accounted.logs log member with waiting | ⟨message, stored, transaction, extracted⟩
    · rw [finished] at waiting
      cases waiting
    · obtain ⟨logIndex, expected, -, -⟩ := extractInboxLog_ok extracted
      have sameIndex : message.messageIndex = event.messageIndex :=
        Option.some.inj (logIndex.symm.trans indexed)
      rw [dataHashes_eq_announcedHash bounded, sameIndex, announced] at expected
      exact ⟨message, stored, sameIndex, (Option.some.inj expected).symm⟩

/-! ### What a poll has put into the cache -/

/-- The poll has fixed its range. -/
def PollPhase.inRange : PollPhase → Bool
  | .scanning _ | .delivered _ _ | .storing _ => true
  | .idle | .latestKnown _ | .headersKnown _ _ => false

/-- The messages that the loop of the poll went through. -/
def PollPhase.stored : PollPhase → List DelayedMessage
  | .storing job => job.stored
  | _ => []

/-- The messages that the poll in flight went through are those it put into the cache. -/
def WritesRecorded (config : FetcherConfig) (finalizedBlock : Nat) (labels : List FetcherLabel)
    (state : FetcherState) : Prop :=
  state.poll.inRange → ∀ message,
    WrittenByPoll config finalizedBlock labels message ↔ message ∈ state.poll.stored

/-- A step that stores one message puts that message into the cache and no other. -/
theorem writesEntry_stored_iff {before : FetcherState} {job : StoreJob} {log : Log}
    {rest : List Log} {transaction : Option Bytes} {message other : DelayedMessage}
    (phase : before.poll = .storing job) (next : job.remaining = log :: rest)
    (extracted : extractInboxLog config (collectEvents job.events) job.range.finalized log
      transaction = .ok message) (later : StoreJob) :
    WritesEntry other before (.poll (.extract transaction))
        { before with fetcher := before.fetcher.store message, poll := .storing later } ↔
      other = message := by
  have inserted := DelayedMessageCache.get_insert before.fetcher.delayedMessages message
    message.messageIndex
  rw [if_pos rfl] at inserted
  obtain ⟨indexed, -⟩ := extractInboxLog_ok extracted
  constructor
  · rintro ⟨found, first, others, -, -, storing, remaining, otherIndex, -, cached⟩
    rw [phase] at storing
    cases storing
    rw [next] at remaining
    cases remaining
    have sameIndex : message.messageIndex = other.messageIndex :=
      Option.some.inj (indexed.symm.trans otherIndex)
    rw [← sameIndex] at cached
    exact Option.some.inj (cached.symm.trans inserted)
  · rintro rfl
    exact ⟨job, log, rest, transaction, rfl, phase, next, indexed, nofun, inserted⟩

section Written

variable {finalizedBlock : Nat} {labels : List FetcherLabel} {before after : FetcherState}

/-- A step that is not the start of a poll and not the one for a log writes nothing. -/
theorem writtenByPoll_next_iff {label : FetcherLabel} {message : DelayedMessage}
    (run : (fetcherMachine config).Reaches (.initial finalizedBlock) labels before)
    (transition : (fetcherMachine config).step before label = some after)
    (notStart : label ≠ .poll .start) (notExtract : ∀ answer, label ≠ .poll (.extract answer)) :
    WrittenByPoll config finalizedBlock (labels ++ [label]) message ↔
      WrittenByPoll config finalizedBlock labels message := by
  rw [WrittenByPoll, run.since_next_iff trivial transition, WrittenByPoll, and_iff_left notStart,
    or_iff_right]
  rintro ⟨-, -, -, answer, isExtract, -⟩
  exact notExtract answer isExtract

theorem WritesRecorded.poll_step {label : PollLabel}
    (run : (fetcherMachine config).Reaches (.initial finalizedBlock) labels before)
    (recorded : WritesRecorded config finalizedBlock labels before)
    (transition : (fetcherMachine config).step before (.poll label) = some after) :
    WritesRecorded config finalizedBlock (labels ++ [.poll label]) after := by
  intro inRange message
  cases pollStep_outcome transition with
  | abandoned | latest | finalized | updated => cases inRange
  | started =>
      refine iff_of_false ?_ List.not_mem_nil
      rw [WrittenByPoll, run.since_next_iff trivial transition]
      rintro (⟨-, -, -, answer, isExtract, -⟩ | ⟨-, quiet⟩)
      · cases isExtract
      · exact quiet rfl
  | noEvents phase | delivered phase | logged phase =>
      rw [WritesRecorded, phase] at recorded
      rw [writtenByPoll_next_iff run transition nofun nofun]
      exact recorded rfl message
  | @stored job log rest transaction found phase next extracted =>
      rw [WritesRecorded, phase] at recorded
      have earlier := recorded rfl message
      rw [WrittenByPoll, run.since_next_iff trivial transition,
        writesEntry_stored_iff phase next extracted, and_iff_left nofun]
      simp only [PollPhase.stored, List.mem_append, List.mem_singleton] at earlier ⊢
      exact (or_congr_right earlier).trans or_comm

theorem WritesRecorded.step {label : FetcherLabel}
    (run : (fetcherMachine config).Reaches (.initial finalizedBlock) labels before)
    (recorded : WritesRecorded config finalizedBlock labels before)
    (transition : (fetcherMachine config).step before label = some after) :
    WritesRecorded config finalizedBlock (labels ++ [label]) after := by
  cases label with
  | poll label => exact recorded.poll_step run transition
  | call label =>
      intro inRange message
      rw [(callStep_outcome transition).poll_eq] at inRange ⊢
      rw [writtenByPoll_next_iff run transition nofun nofun]
      exact recorded inRange message

theorem writesRecorded_of_reaches
    (run : (fetcherMachine config).Reaches (.initial finalizedBlock) labels before) :
    WritesRecorded config finalizedBlock labels before :=
  run.invariantAlong (P := WritesRecorded config finalizedBlock) nofun
    fun prior recorded _ transition => recorded.step prior transition

/-- The poll stored an entry for an event exactly if one of its messages is the event's. -/
theorem entryStored_iff {job : StoreJob}
    (run : (fetcherMachine config).Reaches (.initial finalizedBlock) labels before)
    (storing : before.poll = .storing job) (event : BridgeMessageDelivered) :
    EntryStored config finalizedBlock labels event ↔
      ∃ message ∈ job.stored, message.messageIndex = event.messageIndex ∧
        config.keccak256 message.data = event.messageDataHash := by
  have recorded := writesRecorded_of_reaches run
  rw [WritesRecorded, storing] at recorded
  exact exists_congr fun message => and_congr_left fun _ => recorded rfl message

end Written

/-! ### The end of a poll -/

/-- Only the last step of a poll writes the cursor. -/
theorem PollOutcome.parentBlockNumber_eq {before after : FetcherState} {label : PollLabel}
    (outcome : PollOutcome config before label after) (notUpdate : label ≠ .update) :
    after.parentBlockNumber = before.parentBlockNumber := by
  cases outcome with
  | updated => exact absurd rfl notUpdate
  | abandoned | latest | finalized | started | noEvents | delivered | logged | stored => rfl

/-- The last step of a poll moves a cursor that it finds unmoved. -/
theorem parentBlockNumber_of_update {before after : FetcherState} {job : StoreJob}
    (storing : before.poll = .storing job)
    (unmoved : before.parentBlockNumber = job.range.startBlock)
    (transition : before.pollStep config .update = some after) :
    job.remaining = [] ∧ after.parentBlockNumber = u64 (job.range.endBlock + 1) ∧
      (∀ messageIndex, after.cached messageIndex = before.cached messageIndex) ∧
      after.evicted = before.evicted := by
  cases pollStep_outcome transition with
  | abandoned notUpdate => exact absurd rfl notUpdate
  | @updated other phase finished =>
      have same : other = job := by
        rw [phase] at storing
        cases storing
        rfl
      subst same
      have moved := DelayedMessageFetcher.updateParentBlockNumber_of_eq unmoved
        (u64 (other.range.endBlock + 1))
      refine ⟨finished, ?_, ?_, rfl⟩
      · simp only [FetcherState.parentBlockNumber, moved]
      · intro messageIndex
        simp only [FetcherState.cached,
          DelayedMessageFetcher.delayedMessages_updateParentBlockNumber]

/-- A poll that ends with an error leaves the cursor alone. When a poll moves the cursor past
its range, it has stored a cache entry for every event of the Bridge query exactly if the
Inbox query answered every one of them. -/
theorem cursor_passes_stored_range_iff {finalizedBlock : Nat} {labels : List FetcherLabel}
    {before after : FetcherState} {label : PollLabel}
    (reached : (fetcherMachine config).Reaches (.initial finalizedBlock) labels before)
    (transition : (fetcherMachine config).step before (.poll label) = some after) :
    (label ≠ .update → after.parentBlockNumber = before.parentBlockNumber) ∧
    ∀ job, before.poll = .storing job → label = .update →
      before.parentBlockNumber = job.range.startBlock →
      (∀ event ∈ job.events, event.messageIndex < 2 ^ 64) →
      after.parentBlockNumber = u64 (job.range.endBlock + 1) ∧
        ((∀ event ∈ job.events, EntryStored config finalizedBlock labels event) ↔
          ∀ event ∈ job.events, job.Answered event) := by
  refine ⟨(pollStep_outcome transition).parentBlockNumber_eq, ?_⟩
  rintro job storing rfl unmoved bounded
  obtain ⟨finished, moved, -, -⟩ := parentBlockNumber_of_update storing unmoved transition
  have accounted := jobsAccounted_of_runs reached job storing
  refine ⟨moved, forall_congr' fun event => imp_congr_right fun _ => ?_⟩
  rw [entryStored_iff reached storing, accounted.exists_stored_iff finished bounded]

/-- A poll in which both messages that the Bridge announced are answered and stored. -/
theorem cursor_passes_two_stored_messages :
    ∃ labels before after job,
      (fetcherMachine sampleConfig).Reaches (.initial 6000) labels before ∧
      (fetcherMachine sampleConfig).step before (.poll .update) = some after ∧
      before.poll = .storing job ∧ job.events = [sampleEvent 0 5, sampleEvent 1 6] ∧
      after.parentBlockNumber = 6101 ∧
      (∀ event ∈ job.events, EntryStored sampleConfig 6000 labels event) ∧
      after.cached 0 = some ⟨[5], 6050, 0, 6000⟩ ∧
      after.cached 1 = some ⟨[6], 6051, 1, 6000⟩ := by
  obtain ⟨before, after, job, computed, transition, storing, unmoved, range, events, logs,
      cached⟩ : ∃ before after job,
        (fetcherMachine sampleConfig).exec (fun _ _ => True) (.initial 6000)
          (samplePoll 6100 6000 [sampleEvent 0 5, sampleEvent 1 6]
              [sampleLog 0 5 6050, sampleLog 1 6 6051] ++
            [.poll (.extract none), .poll (.extract none)]) = some before ∧
        (fetcherMachine sampleConfig).step before (.poll .update) = some after ∧
        before.poll = .storing job ∧ before.parentBlockNumber = job.range.startBlock ∧
        job.range.endBlock = 6100 ∧ job.events = [sampleEvent 0 5, sampleEvent 1 6] ∧
        job.logs = [sampleLog 0 5 6050, sampleLog 1 6 6051] ∧
        after.cached 0 = some ⟨[5], 6050, 0, 6000⟩ ∧
        after.cached 1 = some ⟨[6], 6051, 1, 6000⟩ :=
    ⟨_, _, _, rfl, rfl, rfl, rfl, rfl, rfl, rfl, rfl, rfl⟩
  have run := Machine.Runs.ofExec computed
  have bounded : ∀ event ∈ job.events, event.messageIndex < 2 ^ 64 := by
    rw [events]
    decide
  have answered : ∀ event ∈ job.events, job.Answered event := by
    intro event member
    rw [StoreJob.Answered, logs, events]
    rw [events] at member
    rcases List.mem_cons.mp member with rfl | second
    · exact ⟨⟨sampleLog 0 5 6050, List.mem_cons_self, rfl⟩, rfl⟩
    · rw [List.mem_singleton] at second
      subst second
      exact ⟨⟨sampleLog 1 6 6051, List.mem_cons_of_mem _ List.mem_cons_self, rfl⟩, rfl⟩
  obtain ⟨moved, stores⟩ :=
    (cursor_passes_stored_range_iff run transition).2 job storing rfl unmoved bounded
  rw [range] at moved
  exact ⟨_, before, after, job, run, transition, storing, events, moved, stores.mpr answered,
    cached⟩

/-- The Bridge announces the messages 0 and 1, the Inbox query returns the log of 0
only, and the cursor moves past both: message 1 is never stored. -/
theorem cursor_passes_unanswered_message :
    ∃ labels before after job,
      (fetcherMachine sampleConfig).Reaches (.initial 6000) labels before ∧
      (fetcherMachine sampleConfig).step before (.poll .update) = some after ∧
      before.poll = .storing job ∧ before.parentBlockNumber = job.range.startBlock ∧
      after.parentBlockNumber = job.range.endBlock + 1 ∧
      sampleEvent 1 6 ∈ job.events ∧
      ¬ EntryStored sampleConfig 6000 labels (sampleEvent 1 6) ∧ after.cached 1 = none := by
  obtain ⟨before, after, job, computed, transition, storing, unmoved, moved, events, stored,
      missing⟩ :
      ∃ before after job,
        (fetcherMachine sampleConfig).exec (fun _ _ => True) (.initial 6000)
          (samplePoll 6100 6000 [sampleEvent 0 5, sampleEvent 1 6] [sampleLog 0 5 6050] ++
            [.poll (.extract none)]) = some before ∧
        (fetcherMachine sampleConfig).step before (.poll .update) = some after ∧
        before.poll = .storing job ∧ before.parentBlockNumber = job.range.startBlock ∧
        after.parentBlockNumber = job.range.endBlock + 1 ∧
        job.events = [sampleEvent 0 5, sampleEvent 1 6] ∧
        job.stored = [⟨[5], 6050, 0, 6000⟩] ∧ after.cached 1 = none :=
    ⟨_, _, _, rfl, rfl, rfl, rfl, rfl, rfl, rfl, rfl⟩
  have run := Machine.Runs.ofExec computed
  refine ⟨_, before, after, job, run, transition, storing, unmoved, moved, ?_, ?_, missing⟩
  · rw [events]
    exact List.mem_cons_of_mem _ List.mem_cons_self
  · rw [entryStored_iff run storing]
    rintro ⟨message, member, sameIndex, -⟩
    rw [stored, List.mem_singleton] at member
    subst member
    cases sameIndex

/-! ### Rewinds during a poll -/

/-- The messages of a poll are still there: the last one it stored under each index is
cached or was removed by `Advance`. -/
def StoreJob.Kept (job : StoreJob) (state : FetcherState) : Prop :=
  ∀ message ∈ job.stored, ∃ latest ∈ job.stored, latest.messageIndex = message.messageIndex ∧
    (state.cached message.messageIndex = some latest ∨ latest ∈ state.evicted)

/-- A rewind does not return the cursor to the start of a poll that has stored
something already. -/
def RewindsElsewhere (state : FetcherState) (label : FetcherLabel) : Prop :=
  match label, state.call, state.poll with
  | .call .rewind, .rewinding _ message, .storing job =>
      job.stored = [] ∨ message.finalizedBlock ≠ job.range.startBlock
  | _, _, _ => True

instance (state : FetcherState) (label : FetcherLabel) :
    Decidable (RewindsElsewhere state label) := by
  unfold RewindsElsewhere
  split <;> infer_instance

/-- While the cursor is where the poll found it, the messages of the poll are kept. -/
def StoredKept (state : FetcherState) : Prop :=
  ∀ job, state.poll = .storing job → state.parentBlockNumber = job.range.startBlock →
    job.Kept state

theorem storedKept_initial (finalizedBlock : Nat) : StoredKept (.initial finalizedBlock) := by
  intro job storing
  cases storing

/-- The next message of a poll takes the place of an earlier one with its index and
leaves the others. -/
theorem StoreJob.Kept.store {job : StoreJob} {state : FetcherState} (kept : job.Kept state)
    (message : DelayedMessage) (rest : List Log) (poll : PollPhase) :
    StoreJob.Kept { job with remaining := rest, stored := job.stored ++ [message] }
      { state with fetcher := state.fetcher.store message, poll } := by
  intro other member
  by_cases sameIndex : other.messageIndex = message.messageIndex
  · refine ⟨message, List.mem_append_right _ (List.mem_singleton_self _), sameIndex.symm, .inl ?_⟩
    rw [sameIndex]
    exact (DelayedMessageCache.get_insert _ _ _).trans (if_pos rfl)
  · have earlier : other ∈ job.stored := by
      rcases List.mem_append.mp member with old | new
      · exact old
      · exact absurd (congrArg _ (List.mem_singleton.mp new)) sameIndex
    obtain ⟨latest, found, equal, present⟩ := kept other earlier
    refine ⟨latest, List.mem_append_left _ found, equal, ?_⟩
    rcases present with cached | gone
    · exact .inl ((DelayedMessageCache.get_insert _ _ _).trans ((if_neg sameIndex).trans cached))
    · exact .inr gone

/-- What `Advance` removes from the cache it adds to the removed entries. -/
theorem StoreJob.Kept.advance {job : StoreJob} {state : FetcherState} (kept : job.Kept state)
    (toMessageIndex : Nat) :
    job.Kept { state with
      fetcher := state.fetcher.advance toMessageIndex
      evicted := state.evicted ++ state.fetcher.delayedMessages.evictedBy toMessageIndex } := by
  intro other member
  obtain ⟨latest, found, equal, present⟩ := kept other member
  refine ⟨latest, found, equal, ?_⟩
  rcases present with cached | gone
  · by_cases passed : other.messageIndex ≤ toMessageIndex
    · exact .inr (List.mem_append_right _ (DelayedMessageCache.mem_evictedBy cached passed))
    · exact .inl ((DelayedMessageCache.get_advance _ _ _).trans ((if_neg passed).trans cached))
  · exact .inr (List.mem_append_left _ gone)

theorem PollOutcome.storedKept {before after : FetcherState} {label : PollLabel}
    (outcome : PollOutcome config before label after) (prior : StoredKept before) :
    StoredKept after := by
  intro job storing unmoved
  cases outcome with
  | noEvents | logged =>
      cases storing
      intro message member
      cases member
  | stored phase next extracted =>
      cases storing
      exact (prior _ phase unmoved).store _ _ _
  | abandoned | latest | finalized | started | delivered | updated => cases storing

theorem CallOutcome.storedKept {before after : FetcherState} {label : CallLabel}
    (outcome : CallOutcome config before label after) (prior : StoredKept before)
    (elsewhere : RewindsElsewhere before (.call label)) : StoredKept after := by
  intro job storing unmoved
  cases outcome with
  | @rewound messageIndex message phase =>
      have running : before.poll = .storing job := storing
      simp only [RewindsElsewhere, phase, running] at elsewhere
      rcases elsewhere with nothing | different
      · intro other member
        rw [nothing] at member
        cases member
      · exact absurd unmoved different
  | advanced => exact (prior job storing unmoved).advance _
  | missing | lookedUp | recheckFailed | gone | checked | unchecked | final | finished =>
      exact prior job storing unmoved

theorem StoredKept.step {before after : FetcherState} {label : FetcherLabel}
    (prior : StoredKept before) (elsewhere : RewindsElsewhere before label)
    (transition : before.step config label = some after) : StoredKept after := by
  cases label with
  | poll label => exact (pollStep_outcome transition).storedKept prior
  | call label => exact (callStep_outcome transition).storedKept prior elsewhere

/-- If no rewind returns the cursor to the start of a poll in flight that has stored
something, then whenever the end of a poll moves the cursor, every message it stored
is still cached or was removed by `Advance`. -/
theorem rewind_not_lost_to_poll {finalizedBlock : Nat} {labels : List FetcherLabel}
    {before after : FetcherState} {job : StoreJob}
    (run : (fetcherMachine config).Runs RewindsElsewhere (.initial finalizedBlock) labels before)
    (storing : before.poll = .storing job)
    (unmoved : before.parentBlockNumber = job.range.startBlock)
    (transition : (fetcherMachine config).step before (.poll .update) = some after) :
    after.parentBlockNumber = u64 (job.range.endBlock + 1) ∧ job.Kept after := by
  have kept : StoredKept before :=
    run.invariant (storedKept_initial finalizedBlock) fun prior elsewhere transition =>
      StoredKept.step prior elsewhere transition
  obtain ⟨-, moved, cached, evicted⟩ := parentBlockNumber_of_update storing unmoved transition
  refine ⟨moved, ?_⟩
  intro message member
  rw [cached, evicted]
  exact kept job storing unmoved message member

/-- The first poll of a rescan: message 0 is stored, found gone from the chain, and
the cursor goes back to the finalized block 6000. -/
def sampleRewind : List FetcherLabel :=
  samplePoll 6100 6000 [sampleEvent 0 5] [sampleLog 0 5 6050] ++
    [.poll (.extract none), .poll .update, .call (.lookup 0),
      .call (.recheck (some []) false), .call .rewind, .call .finish]

/-- A rescan from the block that an earlier rewind went back to. -/
theorem rewind_not_lost_to_rescan :
    ∃ labels before after job,
      (fetcherMachine sampleConfig).Runs RewindsElsewhere (.initial 6000) labels before ∧
      (fetcherMachine sampleConfig).step before (.poll .update) = some after ∧
      before.poll = .storing job ∧ job.stored = [⟨[5], 6051, 0, 6000⟩] ∧
      before.parentBlockNumber = 6000 ∧ after.parentBlockNumber = 6101 ∧ job.Kept after := by
  obtain ⟨before, after, job, computed, transition, storing, unmoved, start, range, stored⟩ :
      ∃ before after job,
        (fetcherMachine sampleConfig).exec RewindsElsewhere (.initial 6000)
          (sampleRewind ++ samplePoll 6100 6000 [sampleEvent 0 5] [sampleLog 0 5 6051] ++
            [.poll (.extract none)]) = some before ∧
        (fetcherMachine sampleConfig).step before (.poll .update) = some after ∧
        before.poll = .storing job ∧ before.parentBlockNumber = job.range.startBlock ∧
        before.parentBlockNumber = 6000 ∧ job.range.endBlock = 6100 ∧
        job.stored = [⟨[5], 6051, 0, 6000⟩] :=
    ⟨_, _, _, rfl, rfl, rfl, rfl, rfl, rfl, rfl⟩
  have run := Machine.Runs.ofExec computed
  obtain ⟨moved, kept⟩ := rewind_not_lost_to_poll run storing unmoved transition
  rw [range] at moved
  exact ⟨_, before, after, job, run, transition, storing, stored, start, moved, kept⟩

/-- The same rescan, with message 0 found gone once more after the poll stored it: the
second rewind goes back to 6000 again, where this poll started. The poll then moves
the cursor past the range, and the cache is empty. -/
theorem rewind_lost_to_rescan :
    ∃ labels before after job,
      (fetcherMachine sampleConfig).Reaches (.initial 6000) labels before ∧
      (fetcherMachine sampleConfig).step before (.poll .update) = some after ∧
      before.poll = .storing job ∧ before.parentBlockNumber = job.range.startBlock ∧
      after.parentBlockNumber = job.range.endBlock + 1 ∧
      job.stored = [⟨[5], 6051, 0, 6000⟩] ∧ after.cached 0 = none ∧ after.evicted = [] ∧
      ¬ job.Kept after := by
  obtain ⟨before, after, job, computed, transition, storing, unmoved, moved, stored, cleared,
      notAdvanced⟩ :
      ∃ before after job,
        (fetcherMachine sampleConfig).exec (fun _ _ => True) (.initial 6000)
          (sampleRewind ++ samplePoll 6100 6000 [sampleEvent 0 5] [sampleLog 0 5 6051] ++
            [.poll (.extract none), .call (.lookup 0), .call (.recheck (some []) false),
              .call .rewind]) = some before ∧
        (fetcherMachine sampleConfig).step before (.poll .update) = some after ∧
        before.poll = .storing job ∧ before.parentBlockNumber = job.range.startBlock ∧
        after.parentBlockNumber = job.range.endBlock + 1 ∧
        job.stored = [⟨[5], 6051, 0, 6000⟩] ∧ after.cached 0 = none ∧ after.evicted = [] :=
    ⟨_, _, _, rfl, rfl, rfl, rfl, rfl, rfl, rfl, rfl⟩
  refine ⟨_, before, after, job, .ofExec computed, transition, storing, unmoved, moved, stored,
    cleared, notAdvanced, ?_⟩
  intro kept
  obtain ⟨latest, -, -, present⟩ := kept ⟨[5], 6051, 0, 6000⟩ (stored ▸ List.mem_cons_self)
  rcases present with cached | gone
  · rw [cleared] at cached
    cases cached
  · rw [notAdvanced] at gone
    cases gone

end EspressoProxy.Verifier.Nitro
