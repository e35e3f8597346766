import EspressoProxy.Verifier.Nitro.Safety

/-!
# The cursors of the streamer and of the feed client

The feed client starts at the store's number and the streamer one after it. They are
advanced in pairs, the streamer first, and `advanceTo` sets the feed client to a
position wherever it was. The feed client never gets ahead of the streamer, so it
discards nothing that the streamer has still to reach. At the end of a tick the streamer
stands right after the store's number, unless a write failed.
-/

namespace EspressoProxy.Verifier.Nitro

open EspressoProxy.Ethereum EspressoProxy.Semantics EspressoProxy.Store

variable {config : NitroConfig}

/-- `AdvanceTo` moves the streamer to a position that is ahead and does nothing
otherwise. -/
def MovesToTarget (config : NitroConfig) : Prop :=
  ∀ cursor pos, config.moveCursor cursor pos = max cursor pos

/-- The tick is not cancelled, and polled block numbers can be increased. -/
def Uncancelled (_state : NitroState) : NitroLabel → Prop
  | .cancel => False
  | .finalityPoll block => block + 1 < 2 ^ 64
  | _ => True

instance (state : NitroState) : ∀ label, Decidable (Uncancelled state label)
  | .cancel => isFalse id
  | .finalityPoll block => Nat.decLt (block + 1) (2 ^ 64)
  | .found _ | .broadcast _ | .fetcherPoll _ | .proceed | .fetcherCall _ | .sync _ _ _
  | .finish _ _ => isTrue trivial

theorem Uncancelled.finalityBounded {state : NitroState} {label : NitroLabel}
    (admitted : Uncancelled state label) : FinalityBounded state label := by
  cases label with
  | finalityPoll block => exact admitted
  | _ => trivial

/-! ### The streamer and the store -/

/-- The position after everything that was passed in a tick and after the store's
number. -/
def reached (tick : Option Tick) (number : Nat) : Nat :=
  match tick.bind fun tick => tick.passed.getLast? with
  | none => number + 1
  | some last => max (last.message.delivered.pos + 1) (number + 1)

theorem lt_reached (tick : Option Tick) (number : Nat) : number < reached tick number := by
  unfold reached
  split <;> omega

/-- Raising the store's number by a synchronisation raises the position to be
reached. -/
theorem reached_raise (tick : Option Tick) {number block : Nat} (ahead : number < block) :
    max (reached tick number) (block + 1) = reached tick block := by
  unfold reached
  split <;> omega

theorem reached_append (tick : Tick) (passed : Passed) (number : Nat) :
    reached (some { tick with passed := tick.passed ++ [passed] }) number =
      max (passed.message.delivered.pos + 1) (number + 1) := by
  simp [reached]

/-- Where the streamer stands in each phase. Before `advanceTo` calls it, it may have
some way to go. -/
def NitroState.StreamerAt (state : NitroState) : Prop :=
  match state.phase with
  | .panicked => True
  | .advancingTo continues pos =>
      max state.streamer.cursor pos = reached continues state.number
  | phase => state.streamer.cursor = reached phase.tick? state.number

/-- A store write that has failed stays failed. -/
theorem NitroOutcome.noFailure_before {before after : NitroState} {label : NitroLabel}
    (outcome : NitroOutcome config before label after) (noFailure : after.writeFailed = false) :
    before.writeFailed = false := by
  cases outcome with
  | syncFailed | finishFailed => cases noFailure
  | _ => exact noFailure

/-- Without failed writes, the streamer stands after what was passed and stored. -/
theorem streamerAt_step {before after : NitroState} {label : NitroLabel}
    (target : MovesToTarget config) (located : before.Located) (polled : SnapshotBounded before)
    (admitted : Uncancelled before label) (outcome : NitroOutcome config before label after)
    (prior : before.writeFailed = false → before.StreamerAt)
    (noFailure : after.writeFailed = false) : after.StreamerAt := by
  have position := prior (outcome.noFailure_before noFailure)
  cases outcome with
  | found | broadcast | finalityPoll | fetcher => exact position
  | panicked => trivial
  | cancelled => exact absurd admitted id
  | syncFailed | finishFailed => cases noFailure
  | begin phase | noMessage phase | peeked phase | noFeedMessage phase | feedMessage phase
  | rejected phase | matched phase | lookup phase | fetchFailed phase | fetchedMismatch phase
  | fetchedMatch phase | advancedFeed phase | advancedFetcher phase | notAhead phase =>
      simp only [NitroState.StreamerAt, phase] at position
      exact position
  | @advanced tick pos feedMsg held phase present =>
      simp only [NitroState.StreamerAt, phase] at position
      simp only [NitroState.Located, phase] at located
      have key := before.streamer.keyed present
      have stored := lt_reached (NitroPhase.advancing tick pos feedMsg).tick? before.number
      simp only [NitroState.StreamerAt, NitroPhase.tick?, Streamer.advance, NitroState.number,
        reached_append] at position stored ⊢
      omega
  | @advancedTo continues pos phase =>
      simp only [NitroState.StreamerAt, phase] at position
      simp only [NitroState.StreamerAt, NitroPhase.tick?, Streamer.advanceTo, target _ pos]
      exact position
  | @advancedFeedTo continues pos phase =>
      simp only [NitroState.StreamerAt, phase] at position
      cases continues with
      | none => exact position
      | some tick => exact position
  | @syncStored tick block hotshotFallback now written phase snapshot ahead =>
      simp only [NitroState.StreamerAt, phase] at position
      simp only [NitroState.StreamerAt, u64_of_lt (polled block snapshot), position]
      exact reached_raise _ ahead
  | nothingVerified phase nothing =>
      simp only [NitroState.StreamerAt, phase] at position
      simp [NitroState.StreamerAt, position, reached, NitroPhase.tick?, nothing,
        NitroState.number]
  | finishStored phase verified greater =>
      simp only [NitroState.StreamerAt, phase] at position
      simp only [NitroState.StreamerAt, position, reached, NitroPhase.tick?, verified,
        Option.bind_some, Option.bind_none, NitroState.number] at greater ⊢
      omega
  | notGreater phase verified notGreater =>
      have reduced := u64_le (before.number + 1)
      simp only [NitroState.StreamerAt, phase] at position
      simp only [NitroState.StreamerAt, position, reached, NitroPhase.tick?, verified,
        Option.bind_some, Option.bind_none, NitroState.number] at notGreater reduced ⊢
      omega

/-! ### The feed client and the streamer -/

/-- Everything that was received in a run, in order. -/
def receivedIn (labels : List NitroLabel) : List BroadcastFeedMessage :=
  labels.flatMap fun label =>
    match label with
    | .broadcast message => message.received
    | _ => []

theorem receivedIn_append (labels more : List NitroLabel) :
    receivedIn (labels ++ more) = receivedIn labels ++ receivedIn more := by
  simp [receivedIn]

/-- What the phases that move the feed client know about the streamer. -/
def NitroState.FeedFollows (state : NitroState) : Prop :=
  match state.phase with
  | .advancingFeed _ _ => state.feed.nextSeqNum < state.streamer.cursor
  | .advancingFeedTo _ pos => pos ≤ state.streamer.cursor
  | _ => True

/-- The feed client is not ahead of the streamer, and from the streamer's cursor on it
holds the first message received for each position. -/
structure FeedBehind (labels : List NitroLabel) (state : NitroState) : Prop where
  inOrder : state.feed.nextSeqNum ≤ state.streamer.cursor
  follows : state.FeedFollows
  retained : ∀ seqNum, state.streamer.cursor ≤ seqNum →
    state.feed.getMessage seqNum =
      (receivedIn labels).find? fun message => message.sequenceNumber = seqNum

theorem feedBehind_initial {store : EspressoState} (room : store.l2BlockNumber + 1 < 2 ^ 64)
    (file : StateFile) (finalizedBlock : Nat) :
    FeedBehind [] (.initial store file finalizedBlock) where
  inOrder := by
    change store.l2BlockNumber ≤ u64 (store.l2BlockNumber + 1)
    rw [u64_of_lt room]
    exact Nat.le_succ _
  follows := trivial
  retained := by
    intro seqNum _
    exact FeedClient.getMessage_new _ seqNum

/-- A step that is not a broadcast keeps what the feed client holds from the cursor
on, if it does not remove it. -/
theorem FeedBehind.retained_step {before after : NitroState} {label : NitroLabel}
    {labels : List NitroLabel} (behind : FeedBehind labels before)
    (notBroadcast : receivedIn [label] = [])
    (onward : before.streamer.cursor ≤ after.streamer.cursor)
    (kept : ∀ seqNum, after.streamer.cursor ≤ seqNum →
      after.feed.getMessage seqNum = before.feed.getMessage seqNum) (seqNum : Nat)
    (ahead : after.streamer.cursor ≤ seqNum) :
    after.feed.getMessage seqNum =
      (receivedIn (labels ++ [label])).find? fun message => message.sequenceNumber = seqNum := by
  have same : receivedIn (labels ++ [label]) = receivedIn labels := by
    rw [receivedIn_append, notBroadcast, List.append_nil]
  rw [same, kept seqNum ahead]
  exact behind.retained seqNum (Nat.le_trans onward ahead)

theorem FeedBehind.step {before after : NitroState} {label : NitroLabel}
    {labels : List NitroLabel} (behind : FeedBehind labels before) (located : before.Located)
    (target : MovesToTarget config) (outcome : NitroOutcome config before label after) :
    FeedBehind (labels ++ [label]) after := by
  have retained := @FeedBehind.retained_step before after label labels behind
  obtain ⟨inOrder, follows, prior⟩ := behind
  cases outcome with
  | @broadcast message =>
      refine ⟨?_, ?_, ?_⟩
      · simpa using inOrder
      · simpa [NitroState.FeedFollows] using follows
      · intro seqNum ahead
        have received : receivedIn [.broadcast message] = message.received := List.append_nil _
        rw [receivedIn_append, received, List.find?_append, ← prior seqNum ahead]
        exact FeedClient.getMessage_readMessages _ _ (Nat.le_trans inOrder ahead)
  | found | finalityPoll =>
      exact ⟨inOrder, follows, retained rfl (Nat.le_refl _) fun _ _ => rfl⟩
  | fetcher kind =>
      refine ⟨inOrder, follows, retained ?_ (Nat.le_refl _) fun _ _ => rfl⟩
      rcases kind with ⟨_, rfl⟩ | ⟨_, rfl⟩ <;> rfl
  | advanced phase present =>
      simp only [NitroState.Located, phase] at located
      have bound := FeedClient.nextSeqNum_le located.2
      have next : before.feed.nextSeqNum < before.streamer.cursor + 1 := by omega
      exact ⟨Nat.le_of_lt next, next, retained rfl (Nat.le_succ _) fun _ _ => rfl⟩
  | advancedFeed phase =>
      simp only [NitroState.FeedFollows, phase] at follows
      have reduced := u64_le (before.feed.nextSeqNum + 1)
      refine ⟨?_, trivial, retained rfl (Nat.le_refl _) ?_⟩
      · change u64 (before.feed.nextSeqNum + 1) ≤ before.streamer.cursor
        omega
      · intro seqNum ahead
        have later : before.streamer.cursor ≤ seqNum := ahead
        rw [FeedClient.getMessage_advance, if_neg (by omega)]
  | @advancedTo continues pos phase =>
      have onward : before.streamer.cursor ≤ config.moveCursor before.streamer.cursor pos := by
        rw [target]
        exact Nat.le_max_left _ _
      refine ⟨Nat.le_trans inOrder onward, ?_, retained rfl onward fun _ _ => rfl⟩
      change pos ≤ config.moveCursor before.streamer.cursor pos
      rw [target]
      exact Nat.le_max_right _ _
  | @advancedFeedTo continues pos phase =>
      simp only [NitroState.FeedFollows, phase] at follows
      refine ⟨follows, ?_, retained rfl (Nat.le_refl _) ?_⟩
      · cases continues <;> trivial
      · intro seqNum ahead
        have later : before.streamer.cursor ≤ seqNum := ahead
        rw [FeedClient.getMessage_advanceTo, if_neg (by omega)]
  | begin | noMessage | peeked | noFeedMessage | feedMessage | panicked | rejected | matched
  | lookup | fetchFailed | fetchedMismatch | fetchedMatch | advancedFetcher | cancelled
  | notAhead | syncFailed | syncStored | nothingVerified | finishFailed | finishStored
  | notGreater =>
      exact ⟨inOrder, trivial, retained rfl (Nat.le_refl _) fun _ _ => rfl⟩

/-! ### Runs -/

/-- The invariant of an uncancelled run. -/
structure CursorRun (labels : List NitroLabel) (state : NitroState) : Prop where
  snapshot : SnapshotBounded state
  located : state.Located
  streamer : state.writeFailed = false → state.StreamerAt
  feed : FeedBehind labels state

theorem cursorRun_of_runs {store : EspressoState} {file : StateFile} {finalizedBlock : Nat}
    {labels : List NitroLabel} {state : NitroState} (target : MovesToTarget config)
    (room : store.l2BlockNumber + 1 < 2 ^ 64)
    (run : (nitroMachine config).Runs Uncancelled (.initial store file finalizedBlock) labels
      state) : CursorRun labels state := by
  have start : (NitroState.initial store file finalizedBlock).StreamerAt := u64_of_lt room
  refine run.invariantWithLabels
    ⟨nofun, trivial, fun _ => start, feedBehind_initial room file finalizedBlock⟩ ?_
  intro taken before label after prior admitted transition
  have outcome := nitroStep_outcome transition
  exact ⟨prior.snapshot.step admitted.finalityBounded outcome,
    located_step outcome prior.located,
    streamerAt_step target prior.located prior.snapshot admitted outcome prior.streamer,
    prior.feed.step prior.located target outcome⟩

/-- For every run of the Nitro verifier that is not cancelled: at the end of a tick, if no
store write has failed, the streamer's cursor is one after the store's number; and at
every moment the feed client is not ahead of the streamer, and for every position from
the cursor on it still has the first message received. -/
theorem nitro_cursor_agreement {store : EspressoState} {file : StateFile} {finalizedBlock : Nat}
    {labels : List NitroLabel} {state : NitroState} (target : MovesToTarget config)
    (room : store.l2BlockNumber + 1 < 2 ^ 64)
    (run : (nitroMachine config).Runs Uncancelled (.initial store file finalizedBlock) labels
      state) :
    (state.phase = .idle → state.writeFailed = false →
      state.streamer.cursor = state.number + 1) ∧
    state.feed.nextSeqNum ≤ state.streamer.cursor ∧
    ∀ seqNum, state.streamer.cursor ≤ seqNum →
      state.feed.getMessage seqNum =
        (receivedIn labels).find? fun message => message.sequenceNumber = seqNum := by
  have prior := cursorRun_of_runs target room run
  refine ⟨?_, prior.feed.inOrder, prior.feed.retained⟩
  intro idle noFailure
  have position := prior.streamer noFailure
  simp only [NitroState.StreamerAt, idle] at position
  exact position

/-- A tick that verifies the messages 5 and 6, and one in which finality skips to 12: the
streamer is at 13, and the feed message 15 that came in between is still there. -/
theorem nitro_cursor_agreement_after_skip :
    ∃ labels state,
      (nitroMachine sampleNitroConfig).Runs Uncancelled (.startedOn ⟨4, 20, 1⟩) labels
        state ∧
      state.phase = .idle ∧ state.number = 12 ∧ state.streamer.cursor = state.number + 1 ∧
      state.feed.nextSeqNum ≤ state.streamer.cursor ∧
      (receivedIn labels).length = 4 ∧
      state.feed.getMessage 15 =
        (receivedIn labels).find? fun message => message.sequenceNumber = 15 := by
  obtain ⟨labels, state, computed, phase, number, noFailure, count⟩ :
      ∃ labels state,
        (nitroMachine sampleNitroConfig).exec Uncancelled (.startedOn ⟨4, 20, 1⟩)
          labels = some state ∧
        state.phase = .idle ∧ state.number = 12 ∧ state.writeFailed = false ∧
        (receivedIn labels).length = 4 :=
    ⟨sampleTick ++ [.finish 2 true,
        .broadcast ⟨1, [some ⟨9, sampleMessage 2 [1]⟩, some ⟨15, sampleMessage 2 [2]⟩]⟩,
        .finalityPoll 12, .proceed, .proceed, .sync 30 3 true, .proceed, .proceed,
        .finish 4 true],
      _, rfl, rfl, rfl, rfl, rfl⟩
  have run := Machine.Runs.ofExec computed
  have target : MovesToTarget sampleNitroConfig := fun _ _ => rfl
  obtain ⟨position, inOrder, retained⟩ := nitro_cursor_agreement target (by simp) run
  have cursor := position phase noFailure
  exact ⟨labels, state, run, phase, number, cursor, inOrder, count,
    retained 15 (by rw [cursor, number]; decide)⟩

end EspressoProxy.Verifier.Nitro
