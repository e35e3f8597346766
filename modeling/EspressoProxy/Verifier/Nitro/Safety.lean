import EspressoProxy.Verifier.Nitro.Verifier

/-!
# The Nitro tag advances on a match only

`verifyDelayedMessage` writes the data from the parent chain into the streamer's own
message before it compares. If the comparison fails, the next tick finds a message
with data and takes the branch that does not ask the parent chain. That this accepts
nothing wrong rests on the feed client: as long as the streamer stays at a position,
the feed message there is neither replaced nor received anew, so the same comparison
fails again.
-/

namespace EspressoProxy.Verifier.Nitro

open EspressoProxy.Ethereum EspressoProxy.Semantics EspressoProxy.Store

variable {config : NitroConfig}

/-! ### The positions of the streamer and of the feed client -/

/-- How the two positions are related in the phases that move them. -/
def NitroState.MovesInOrder (state : NitroState) : Prop :=
  match state.phase with
  | .advancingFeed _ _ => state.feed.nextSeqNum < state.streamer.cursor
  | .advancingTo _ pos | .advancingFeedTo _ pos => pos = u64 (state.number + 1)
  | _ => True

/-- The feed client may be ahead of the streamer only up to the position after the
store's, where both were sent. The number in the store can be increased, unless the
streamer is at the end of the 64-bit positions. -/
structure FeedBounds (state : NitroState) : Prop where
  word : state.feed.nextSeqNum < 2 ^ 64
  ahead : state.streamer.cursor < state.feed.nextSeqNum →
    state.feed.nextSeqNum ≤ state.number + 1
  small : state.number + 1 < 2 ^ 64 ∨ 2 ^ 64 ≤ state.streamer.cursor
  moves : state.MovesInOrder
  passed : ∀ tick, state.phase.tick? = some tick → ∀ passed ∈ tick.passed,
    passed.message.delivered.pos < state.streamer.cursor

/-- The finalized block numbers that are polled can be increased. -/
def FinalityBounded (_state : NitroState) : NitroLabel → Prop
  | .finalityPoll block => block + 1 < 2 ^ 64
  | _ => True

instance (state : NitroState) : ∀ label, Decidable (FinalityBounded state label)
  | .finalityPoll block => Nat.decLt (block + 1) (2 ^ 64)
  | .found _ | .broadcast _ | .fetcherPoll _ | .proceed | .fetcherCall _ | .cancel
  | .sync _ _ _ | .finish _ _ => isTrue trivial

/-- The last snapshot can be increased. -/
def SnapshotBounded (state : NitroState) : Prop :=
  ∀ block, state.snapshot = some block → block + 1 < 2 ^ 64

theorem SnapshotBounded.step {before after : NitroState} {label : NitroLabel}
    (prior : SnapshotBounded before) (bounded : FinalityBounded before label)
    (outcome : NitroOutcome config before label after) : SnapshotBounded after := by
  cases outcome with
  | finalityPoll =>
      intro block polled
      cases polled
      exact bounded
  | _ => exact prior

/-- `AdvanceTo` of the streamer never moves its cursor back. -/
def MovesForward (config : NitroConfig) : Prop :=
  ∀ cursor pos, cursor ≤ config.moveCursor cursor pos

theorem NitroOutcome.cursor_le {before after : NitroState} {label : NitroLabel}
    (forward : MovesForward config) (outcome : NitroOutcome config before label after) :
    before.streamer.cursor ≤ after.streamer.cursor := by
  cases outcome with
  | advanced => exact Nat.le_succ _
  | advancedTo => exact forward _ _
  | _ => exact Nat.le_refl _

/-- Where the messages passed in a tick come from: they were passed before this step,
or the message in hand was passed by it. -/
theorem NitroOutcome.passed_origin {before after : NitroState} {label : NitroLabel}
    (outcome : NitroOutcome config before label after) {tick : Tick}
    (current : after.phase.tick? = some tick) {passed : Passed} (member : passed ∈ tick.passed) :
    ∃ earlier, before.phase.tick? = some earlier ∧
      (∀ entry ∈ earlier.fetched, entry ∈ tick.fetched) ∧
      (passed ∈ earlier.passed ∨ ∃ pos, before.phase = .advancing earlier pos passed.feedMsg ∧
        before.streamer.buffer.get pos = some passed.message ∧
        after.streamer.cursor = before.streamer.cursor + 1) := by
  cases outcome with
  | found | broadcast | finalityPoll | fetcher =>
      exact ⟨tick, current, fun _ same => same, .inl member⟩
  | begin =>
      cases current
      cases member
  | panicked | cancelled | syncFailed | nothingVerified | finishFailed | finishStored
  | notGreater => cases current
  | noMessage phase | peeked phase | noFeedMessage phase | feedMessage phase | rejected phase
  | matched phase | lookup phase | fetchFailed phase | advancedFeed phase
  | advancedFetcher phase | notAhead phase | syncStored phase =>
      cases current
      exact ⟨_, by rw [phase]; rfl, fun _ same => same, .inl member⟩
  | fetchedMismatch phase | fetchedMatch phase =>
      cases current
      exact ⟨_, by rw [phase]; rfl, fun _ same => List.mem_append_left _ same, .inl member⟩
  | @advanced earlier pos feedMsg held phase present =>
      cases current
      refine ⟨earlier, by rw [phase]; rfl, fun _ same => same, ?_⟩
      rcases List.mem_append.mp member with old | new
      · exact .inl old
      · rw [List.mem_singleton] at new
        subst new
        exact .inr ⟨pos, phase, present, rfl⟩
  | advancedTo phase =>
      exact ⟨tick, by rw [phase]; exact current, fun _ same => same, .inl member⟩
  | advancedFeedTo phase =>
      rw [tick?_afterAdvanceTo] at current
      exact ⟨tick, by rw [phase]; exact current, fun _ same => same, .inl member⟩

/-- Passed messages lie behind the cursor. -/
theorem FeedBounds.passed_step {before after : NitroState} {label : NitroLabel}
    (bounds : FeedBounds before) (located : before.Located) (forward : MovesForward config)
    (outcome : NitroOutcome config before label after) (tick : Tick)
    (current : after.phase.tick? = some tick) (passed : Passed) (member : passed ∈ tick.passed) :
    passed.message.delivered.pos < after.streamer.cursor := by
  obtain ⟨earlier, same, -, old | ⟨pos, phase, present, moved⟩⟩ :=
    outcome.passed_origin current member
  · exact Nat.lt_of_lt_of_le (bounds.passed earlier same passed old) (outcome.cursor_le forward)
  · simp only [NitroState.Located, phase] at located
    have key := before.streamer.keyed present
    omega

theorem FeedBounds.step {before after : NitroState} {label : NitroLabel}
    (bounds : FeedBounds before) (located : before.Located) (polled : SnapshotBounded before)
    (forward : MovesForward config) (outcome : NitroOutcome config before label after) :
    FeedBounds after := by
  have passed := bounds.passed_step located forward outcome
  obtain ⟨word, ahead, small, moves, below⟩ := bounds
  cases outcome with
  | found | finalityPoll | fetcher => exact ⟨word, ahead, small, moves, passed⟩
  | broadcast =>
      refine ⟨?_, ?_, small, ?_, passed⟩
      · simpa using word
      · simpa [NitroState.number] using ahead
      · simpa [NitroState.MovesInOrder, NitroState.number] using moves
  | advanced phase present =>
      simp only [NitroState.Located, phase] at located
      have bound := FeedClient.nextSeqNum_le located.2
      have inOrder : before.feed.nextSeqNum < before.streamer.cursor + 1 := by omega
      refine ⟨word, fun behind => absurd behind (Nat.not_lt.mpr (Nat.le_of_lt inOrder)), ?_,
        inOrder, passed⟩
      exact small.imp_right fun atEnd => Nat.le_succ_of_le atEnd
  | advancedFeed phase =>
      simp only [NitroState.MovesInOrder, phase] at moves
      have reduced := u64_le (before.feed.nextSeqNum + 1)
      have inOrder : u64 (before.feed.nextSeqNum + 1) ≤ before.streamer.cursor := by omega
      exact ⟨u64_lt _, fun behind => absurd behind (Nat.not_lt.mpr inOrder), small, trivial,
        passed⟩
  | @advancedTo continues pos phase =>
      simp only [NitroState.MovesInOrder, phase] at moves
      have onward := forward before.streamer.cursor pos
      refine ⟨word, fun behind => ahead (Nat.lt_of_le_of_lt onward behind), ?_, moves, passed⟩
      exact small.imp_right fun atEnd => Nat.le_trans atEnd onward
  | @advancedFeedTo continues pos phase =>
      simp only [NitroState.MovesInOrder, phase] at moves
      subst moves
      refine ⟨u64_lt _, fun _ => u64_le _, small, ?_, passed⟩
      cases continues <;> trivial
  | @syncStored tick block hotshotFallback now written phase snapshot greater =>
      refine ⟨word, ?_, .inl (polled block snapshot), rfl, passed⟩
      intro behind
      have previous := ahead behind
      change before.feed.nextSeqNum ≤ block + 1
      omega
  | @finishStored tick last now written phase verified greater =>
      have behind := below tick (by rw [phase]; rfl) last (List.mem_of_getLast? verified)
      refine ⟨word, ?_, ?_, trivial, passed⟩
      · intro ahead'
        have previous := ahead ahead'
        change before.feed.nextSeqNum ≤ last.message.delivered.pos + 1
        omega
      · rcases Nat.lt_or_ge (last.message.delivered.pos + 1) (2 ^ 64) with bounded | atEnd
        · exact .inl bounded
        · exact .inr (Nat.le_trans atEnd behind)
  | notGreater phase verified notGreater => exact ⟨word, ahead, small, rfl, passed⟩
  | _ => exact ⟨word, ahead, small, trivial, passed⟩

/-! ### The objects of the streamer -/

/-- The message carries its own data. -/
def MessageWithMetadata.HasData (message : MessageWithMetadata) : Prop :=
  ∃ incoming, message.message = some incoming ∧ incoming.l2msg ≠ []

/-- The message stands for a delayed message, whose data is on the parent chain. -/
def MessageWithMetadata.IsDelayed (message : MessageWithMetadata) : Prop :=
  ∃ incoming, message.message = some incoming ∧ incoming.l2msg = []

theorem MessageWithMetadata.IsDelayed.not_hasData {message : MessageWithMetadata}
    (delayed : message.IsDelayed) : ¬ message.HasData := by
  rintro ⟨incoming, found, nonempty⟩
  obtain ⟨other, sameMessage, empty⟩ := delayed
  rw [found] at sameMessage
  cases sameMessage
  exact nonempty empty

theorem MessageWithMetadata.IsDelayed.withL2msg_nil {message : MessageWithMetadata}
    (delayed : message.IsDelayed) : message.withL2msg [] = message := by
  obtain ⟨incoming, found, empty⟩ := delayed
  obtain ⟨content, delayedMessagesRead⟩ := message
  cases found
  simp only [MessageWithMetadata.withL2msg, Option.map_some, ← empty]

theorem MessageWithMetadata.IsDelayed.hasData_withL2msg {message : MessageWithMetadata}
    (delayed : message.IsDelayed) {data : Bytes} (nonempty : data ≠ []) :
    (message.withL2msg data).HasData := by
  obtain ⟨incoming, found, -⟩ := delayed
  refine ⟨{ incoming with l2msg := data }, ?_, nonempty⟩
  simp only [MessageWithMetadata.withL2msg, found, Option.map_some]

/-- A passed message matched: the feed message has the encoding of what the streamer
delivered, with the data that `GetDelayedMessage` returned for the delayed message if it
was delivered without data. -/
def Passed.Verified (config : NitroConfig) (fetched : List (Nat × Bytes)) (passed : Passed) :
    Prop :=
  ∃ bytes, config.encodeToBytes passed.feedMsg.message = some bytes ∧
    ((passed.message.delivered.messageWithMeta.HasData ∧
        config.encodeToBytes passed.message.delivered.messageWithMeta = some bytes) ∨
      (passed.message.delivered.messageWithMeta.IsDelayed ∧
        ∃ data, (u64Pred passed.message.delivered.messageWithMeta.delayedMessagesRead, data) ∈
            fetched ∧
          config.encodeToBytes (passed.message.delivered.messageWithMeta.withL2msg data) =
            some bytes))

theorem Passed.Verified.mono {fetched more : List (Nat × Bytes)} {passed : Passed}
    (verified : passed.Verified config fetched) (included : ∀ entry ∈ fetched, entry ∈ more) :
    passed.Verified config more := by
  obtain ⟨bytes, feed, own | ⟨delayed, data, member, encoded⟩⟩ := verified
  · exact ⟨bytes, feed, .inl own⟩
  · exact ⟨bytes, feed, .inr ⟨delayed, data, included _ member, encoded⟩⟩

/-- No feed message will match the content at a position: the one cached there does
not, or the feed client is past the position. -/
def Blocked (config : NitroConfig) (feed : FeedClient) (pos : Nat)
    (content : MessageWithMetadata) : Prop :=
  (∃ feedMsg, feed.getMessage pos = some feedMsg ∧
    ensureMessagesMatch config content feedMsg.message ≠ .ok ()) ∨ pos < feed.nextSeqNum

/-- The object at the cursor is as it was delivered, or it was written to and is
blocked. -/
def AtCursor (config : NitroConfig) (streamer : Streamer) (feed : FeedClient) : Prop :=
  ∀ held, streamer.buffer.get streamer.cursor = some held →
    held.content = held.delivered.messageWithMeta ∨
      (held.content.HasData ∧ Blocked config feed streamer.cursor held.content)

/-- What is known in the middle of a comparison. -/
def NitroState.Comparing (config : NitroConfig) (state : NitroState) : Prop :=
  match state.phase with
  | .fetching _ pos _ => ∃ held, state.streamer.buffer.get pos = some held ∧
      held.delivered.messageWithMeta.IsDelayed ∧
      state.fetcher.call.index? =
        some (u64Pred held.delivered.messageWithMeta.delayedMessagesRead)
  | .advancing tick pos feedMsg => ∃ held, state.streamer.buffer.get pos = some held ∧
      (Passed.mk held feedMsg).Verified config tick.fetched
  | _ => True

/-- The verifier has passed its comparison and is about to advance. -/
def NitroPhase.IsAdvancing : NitroPhase → Prop
  | .advancing _ _ _ => True
  | _ => False

/-- The invariant of the objects. The one at the cursor is exempt between a successful
comparison and the advance. -/
structure ObjectsIntact (config : NitroConfig) (state : NitroState) : Prop where
  untouched : ∀ {pos held}, state.streamer.cursor < pos →
    state.streamer.buffer.get pos = some held → held.written = none
  atCursor : ¬ state.phase.IsAdvancing → AtCursor config state.streamer state.feed
  comparing : state.Comparing config
  passed : ∀ tick, state.phase.tick? = some tick → ∀ passed ∈ tick.passed,
    passed.Verified config tick.fetched

theorem content_of_untouched {held : Buffered} (untouched : held.written = none) :
    held.content = held.delivered.messageWithMeta := by
  simp [Buffered.content, untouched]

theorem objectsIntact_initial (store : EspressoState) (file : StateFile) (finalizedBlock : Nat) :
    ObjectsIntact config (.initial store file finalizedBlock) where
  untouched := by
    intro pos held _ found
    simp [NitroState.initial, Streamer.new] at found
  atCursor := by
    intro _ held found
    simp [NitroState.initial, Streamer.new] at found
  comparing := trivial
  passed := nofun

/-- The messages passed in a tick stay verified, and so is one that is passed now. -/
theorem ObjectsIntact.passed_step {before after : NitroState} {label : NitroLabel}
    (intact : ObjectsIntact config before) (outcome : NitroOutcome config before label after)
    (tick : Tick) (current : after.phase.tick? = some tick) (passed : Passed)
    (member : passed ∈ tick.passed) : passed.Verified config tick.fetched := by
  obtain ⟨earlier, same, included, old | ⟨pos, phase, present, -⟩⟩ :=
    outcome.passed_origin current member
  · exact (intact.passed earlier same passed old).mono included
  · have comparing := intact.comparing
    simp only [NitroState.Comparing, phase] at comparing
    obtain ⟨held, found, verified⟩ := comparing
    cases found.symm.trans present
    exact verified.mono included

/-- A found message changes no object that is there. -/
theorem AtCursor.find {streamer : Streamer} {feed : FeedClient}
    (atCursor : AtCursor config streamer feed) (message : MessageWithMetadataAndPos) :
    AtCursor config (streamer.find message) feed := by
  intro held found
  rcases Streamer.get_find found with old | ⟨-, new⟩
  · exact atCursor held old
  · subst new
    exact .inl rfl

/-- Received messages do not replace the one that blocks. -/
theorem AtCursor.readMessages {streamer : Streamer} {feed : FeedClient}
    (atCursor : AtCursor config streamer feed) (broadcast : BroadcastMessage) :
    AtCursor config streamer (feed.readMessages broadcast) := by
  intro held found
  rcases atCursor held found with original | ⟨hasData, ⟨feedMsg, cached, mismatch⟩ | past⟩
  · exact .inl original
  · exact .inr ⟨hasData, .inl ⟨feedMsg,
      FeedClient.getMessage_readMessages_of_some cached broadcast, mismatch⟩⟩
  · exact .inr ⟨hasData, .inr (by simpa using past)⟩

/-- Advancing the feed client removes a message behind the cursor only. -/
theorem AtCursor.advanceFeed {streamer : Streamer} {feed : FeedClient}
    (atCursor : AtCursor config streamer feed) (inOrder : feed.nextSeqNum < streamer.cursor) :
    AtCursor config streamer feed.advance := by
  intro held found
  rcases atCursor held found with original | ⟨hasData, ⟨feedMsg, cached, mismatch⟩ | past⟩
  · exact .inl original
  · refine .inr ⟨hasData, .inl ⟨feedMsg, ?_, mismatch⟩⟩
    rw [FeedClient.getMessage_advance, if_neg (by omega), cached]
  · omega

/-- Sending the feed client to the position after the store's either leaves the
blocking message or puts the feed client past it. -/
theorem AtCursor.advanceFeedTo {state : NitroState} (bounds : FeedBounds state)
    (atCursor : AtCursor config state.streamer state.feed) :
    AtCursor config state.streamer (state.feed.advanceTo (u64 (state.number + 1))) := by
  intro held found
  have word := bounds.word
  rcases atCursor held found with original | ⟨hasData, ⟨feedMsg, cached, mismatch⟩ | past⟩
  · exact .inl original
  · by_cases removed : state.streamer.cursor < u64 (state.number + 1)
    · exact .inr ⟨hasData, .inr removed⟩
    · refine .inr ⟨hasData, .inl ⟨feedMsg, ?_, mismatch⟩⟩
      rw [FeedClient.getMessage_advanceTo, if_neg removed, cached]
  · have target := bounds.ahead past
    have small : state.number + 1 < 2 ^ 64 := by
      rcases bounds.small with bounded | atEnd
      · exact bounded
      · omega
    refine .inr ⟨hasData, .inr ?_⟩
    change state.streamer.cursor < u64 (state.number + 1)
    rw [u64_of_lt small]
    omega

/-- Wherever the streamer moves on to, the object there is as it was delivered. -/
theorem AtCursor.moveStreamer {streamer : Streamer} {feed : FeedClient}
    (untouched : ∀ {pos held}, streamer.cursor < pos → streamer.buffer.get pos = some held →
      held.written = none) {cursor : Nat} (onward : streamer.cursor < cursor) :
    AtCursor config { streamer with cursor } feed := by
  intro held found
  exact .inl (content_of_untouched (untouched onward found))

theorem AtCursor.advanceTo {streamer : Streamer} {feed : FeedClient}
    (forward : MovesForward config) (atCursor : AtCursor config streamer feed)
    (untouched : ∀ {pos held}, streamer.cursor < pos → streamer.buffer.get pos = some held →
      held.written = none) (pos : Nat) :
    AtCursor config (streamer.advanceTo config.moveCursor pos) feed := by
  rcases Nat.lt_or_eq_of_le (forward streamer.cursor pos) with onward | same
  · exact moveStreamer untouched onward
  · rw [Streamer.advanceTo, ← same]
    exact atCursor

/-- A comparison that succeeds without asking the parent chain is one of a message as it
was delivered. -/
theorem verified_of_matched {state : NitroState} {tick : Tick} {feedMsg : BroadcastFeedMessage}
    {held : Buffered} (atCursor : AtCursor config state.streamer state.feed)
    (present : state.streamer.buffer.get state.streamer.cursor = some held)
    (cached : state.feed.getMessage state.streamer.cursor = some feedMsg)
    (hasData : held.content.HasData)
    (matched : ensureMessagesMatch config held.content feedMsg.message = .ok ()) :
    (Passed.mk held feedMsg).Verified config tick.fetched := by
  rcases atCursor held present with original | ⟨-, ⟨other, sameCached, mismatch⟩ | past⟩
  · obtain ⟨bytes, encoded, feedEncoded⟩ := ensureMessagesMatch_ok.mp matched
    rw [original] at encoded hasData
    exact ⟨bytes, feedEncoded, .inl ⟨hasData, encoded⟩⟩
  · -- The object was written to in an earlier tick; the same comparison failed then.
    cases sameCached.symm.trans cached
    exact absurd matched mismatch
  · have bound := FeedClient.nextSeqNum_le cached
    omega

theorem content_written (held : Buffered) (data : Bytes) :
    ({ held with written := some data } : Buffered).content =
      held.delivered.messageWithMeta.withL2msg data :=
  rfl

/-- The object after a failed comparison is blocked, if the data changed it at all. -/
theorem AtCursor.written {state : NitroState} {feedMsg : BroadcastFeedMessage}
    {held : Buffered} {data : Bytes}
    (present : state.streamer.buffer.get state.streamer.cursor = some held)
    (delayed : held.delivered.messageWithMeta.IsDelayed)
    (cached : state.feed.getMessage state.streamer.cursor = some feedMsg)
    (mismatch : ensureMessagesMatch config { held with written := some data }.content
      feedMsg.message ≠ .ok ()) :
    AtCursor config (state.streamer.writeL2msg state.streamer.cursor data) state.feed := by
  intro object found
  have stored := (Streamer.get_writeL2msg present data state.streamer.cursor).symm.trans found
  rw [if_pos rfl] at stored
  cases stored
  by_cases empty : data = []
  · subst empty
    exact .inl ((content_written held []).trans delayed.withL2msg_nil)
  · refine .inr ⟨?_, .inl ⟨feedMsg, cached, mismatch⟩⟩
    rw [content_written]
    exact delayed.hasData_withL2msg empty

/-- Writing to the object at the cursor leaves those ahead of it. -/
theorem untouched_write {streamer : Streamer} {held : Buffered}
    (present : streamer.buffer.get streamer.cursor = some held) (data : Bytes)
    (untouched : ∀ {pos held}, streamer.cursor < pos → streamer.buffer.get pos = some held →
      held.written = none) {pos : Nat} {object : Buffered} (aheadOf : streamer.cursor < pos)
    (found : (streamer.writeL2msg streamer.cursor data).buffer.get pos = some object) :
    object.written = none := by
  rw [Streamer.get_writeL2msg present, if_neg (by omega)] at found
  exact untouched aheadOf found

/-- No step writes to an object ahead of the cursor. -/
theorem ObjectsIntact.untouched_step {before after : NitroState} {label : NitroLabel}
    (intact : ObjectsIntact config before) (located : before.Located)
    (forward : MovesForward config) (outcome : NitroOutcome config before label after)
    {pos : Nat} {held : Buffered} (aheadOf : after.streamer.cursor < pos)
    (present : after.streamer.buffer.get pos = some held) : held.written = none := by
  cases outcome with
  | found =>
      rcases Streamer.get_find present with old | ⟨-, new⟩
      · exact intact.untouched aheadOf old
      · subst new
        rfl
  | fetchedMismatch phase target | fetchedMatch phase target =>
      simp only [NitroState.Located, phase] at located
      obtain ⟨rfl, -⟩ := located
      exact untouched_write target _ intact.untouched aheadOf present
  | advanced => exact intact.untouched (Nat.lt_trans (Nat.lt_succ_self _) aheadOf) present
  | advancedTo => exact intact.untouched (Nat.lt_of_le_of_lt (forward _ _) aheadOf) present
  | _ => exact intact.untouched aheadOf present

theorem ObjectsIntact.atCursor_of_phase {state : NitroState} {phase : NitroPhase}
    (intact : ObjectsIntact config state) (same : state.phase = phase)
    (outside : ¬ phase.IsAdvancing) : AtCursor config state.streamer state.feed :=
  intact.atCursor (same ▸ outside)

/-- The object at the cursor stays as it was delivered or blocked. -/
theorem ObjectsIntact.atCursor_step {before after : NitroState} {label : NitroLabel}
    (intact : ObjectsIntact config before) (bounds : FeedBounds before)
    (located : before.Located) (forward : MovesForward config)
    (outcome : NitroOutcome config before label after) (outside : ¬ after.phase.IsAdvancing) :
    AtCursor config after.streamer after.feed := by
  have moves := bounds.moves
  cases outcome with
  | found => exact (intact.atCursor outside).find _
  | broadcast => exact (intact.atCursor outside).readMessages _
  | finalityPoll | fetcher => exact intact.atCursor outside
  | matched | fetchedMatch => exact absurd trivial outside
  | @fetchedMismatch tick pos feedMsg held messageIndex data phase present index mismatch =>
      have comparing := intact.comparing
      simp only [NitroState.Located, phase] at located
      simp only [NitroState.Comparing, phase] at comparing
      obtain ⟨rfl, cached⟩ := located
      obtain ⟨object, found, delayed, -⟩ := comparing
      cases found.symm.trans present
      exact AtCursor.written present delayed cached mismatch
  | advanced => exact AtCursor.moveStreamer intact.untouched (Nat.lt_succ_self _)
  | advancedFeed phase =>
      simp only [NitroState.MovesInOrder, phase] at moves
      exact (intact.atCursor_of_phase phase id).advanceFeed moves
  | advancedTo phase =>
      exact (intact.atCursor_of_phase phase id).advanceTo forward intact.untouched _
  | advancedFeedTo phase =>
      simp only [NitroState.MovesInOrder, phase] at moves
      subst moves
      exact (intact.atCursor_of_phase phase id).advanceFeedTo bounds
  | begin phase | noMessage phase | peeked phase | noFeedMessage phase | feedMessage phase
  | panicked phase | rejected phase | lookup phase | fetchFailed phase | advancedFetcher phase
  | notAhead phase | syncFailed phase | syncStored phase | nothingVerified phase
  | finishFailed phase | finishStored phase | notGreater phase =>
      exact intact.atCursor_of_phase phase id
  | cancelled phase =>
      rcases phase with phase | phase
      · exact intact.atCursor_of_phase phase id
      · exact intact.atCursor_of_phase phase id

/-- A comparison that asks the parent chain is one of a message delivered without data,
and every comparison that succeeds is a verification. -/
theorem ObjectsIntact.comparing_step {before after : NitroState} {label : NitroLabel}
    (intact : ObjectsIntact config before) (located : before.Located)
    (outcome : NitroOutcome config before label after) : after.Comparing config := by
  have comparing := intact.comparing
  cases outcome with
  | @found message =>
      unfold NitroState.Comparing at comparing ⊢
      simp only
      split at comparing
      · obtain ⟨held, present, rest⟩ := comparing
        exact ⟨held, Streamer.get_find_of_some present message, rest⟩
      · obtain ⟨held, present, rest⟩ := comparing
        exact ⟨held, Streamer.get_find_of_some present message, rest⟩
      · trivial
  | broadcast | finalityPoll => exact comparing
  | fetcher kind sameIndex =>
      unfold NitroState.Comparing at comparing ⊢
      simp only [sameIndex]
      exact comparing
  | @matched tick pos feedMsg held incoming phase present message nonempty matched =>
      simp only [NitroState.Located, phase] at located
      obtain ⟨rfl, cached⟩ := located
      exact ⟨held, present, verified_of_matched (intact.atCursor_of_phase phase id) present cached
        ⟨incoming, message, nonempty⟩ matched⟩
  | @lookup tick pos feedMsg held incoming fetcher phase present message empty index =>
      simp only [NitroState.Located, phase] at located
      obtain ⟨rfl, -⟩ := located
      have delayed : held.content.IsDelayed := ⟨incoming, message, empty⟩
      have original : held.content = held.delivered.messageWithMeta := by
        rcases intact.atCursor_of_phase phase id held present with original | ⟨hasData, -⟩
        · exact original
        · exact absurd hasData delayed.not_hasData
      rw [original] at delayed index
      exact ⟨held, present, delayed, index⟩
  | @fetchedMatch tick pos feedMsg held messageIndex data phase present index matched =>
      simp only [NitroState.Comparing, phase] at comparing
      obtain ⟨object, found, delayed, called⟩ := comparing
      cases found.symm.trans present
      obtain ⟨bytes, encoded, feedEncoded⟩ := ensureMessagesMatch_ok.mp matched
      refine ⟨{ held with written := some data }, ?_, bytes, feedEncoded,
        .inr ⟨delayed, data, ?_, encoded⟩⟩
      · rw [Streamer.get_writeL2msg present, if_pos rfl]
      · rw [← Option.some.inj (index.symm.trans called)]
        exact List.mem_append_right _ (List.mem_singleton_self _)
  | @advancedFeedTo continues => cases continues <;> trivial
  | _ => trivial

theorem ObjectsIntact.step {before after : NitroState} {label : NitroLabel}
    (intact : ObjectsIntact config before) (bounds : FeedBounds before)
    (located : before.Located) (forward : MovesForward config)
    (outcome : NitroOutcome config before label after) : ObjectsIntact config after where
  untouched := intact.untouched_step located forward outcome
  atCursor := intact.atCursor_step bounds located forward outcome
  comparing := intact.comparing_step located outcome
  passed := intact.passed_step outcome

/-! ### Runs -/

/-- The invariant of a run: the snapshot was polled, the positions are in order, and the
objects are intact. -/
structure SafeRun (config : NitroConfig) (labels : List NitroLabel) (state : NitroState) :
    Prop where
  polled : ∀ block, state.snapshot = some block → .finalityPoll block ∈ labels
  snapshot : SnapshotBounded state
  located : state.Located
  bounds : FeedBounds state
  intact : ObjectsIntact config state

theorem feedBounds_initial {store : EspressoState} (room : store.l2BlockNumber + 1 < 2 ^ 64)
    (file : StateFile) (finalizedBlock : Nat) :
    FeedBounds (.initial store file finalizedBlock) where
  word := Nat.lt_of_succ_lt room
  ahead := by
    intro behind
    change u64 (store.l2BlockNumber + 1) < store.l2BlockNumber at behind
    rw [u64_of_lt room] at behind
    omega
  small := .inl room
  moves := trivial
  passed := nofun

theorem polled_step {before after : NitroState} {label : NitroLabel} {labels : List NitroLabel}
    (polled : ∀ block, before.snapshot = some block → .finalityPoll block ∈ labels)
    (outcome : NitroOutcome config before label after) (block : Nat)
    (current : after.snapshot = some block) : .finalityPoll block ∈ labels ++ [label] := by
  cases outcome with
  | finalityPoll =>
      cases current
      exact List.mem_append_right _ (List.mem_singleton_self _)
  | _ => exact List.mem_append_left _ (polled block current)

theorem safeRun_of_runs {store : EspressoState} {file : StateFile} {finalizedBlock : Nat}
    {labels : List NitroLabel} {state : NitroState} (forward : MovesForward config)
    (room : store.l2BlockNumber + 1 < 2 ^ 64)
    (run : (nitroMachine config).Runs FinalityBounded (.initial store file finalizedBlock) labels
      state) : SafeRun config labels state := by
  refine run.invariantWithLabels ⟨nofun, nofun, trivial, feedBounds_initial room file _,
    objectsIntact_initial store file _⟩ ?_
  intro taken before label after safe bounded transition
  have outcome := nitroStep_outcome transition
  exact ⟨polled_step safe.polled outcome, safe.snapshot.step bounded outcome,
    located_step outcome safe.located,
    safe.bounds.step safe.located safe.snapshot forward outcome,
    safe.intact.step safe.bounds safe.located forward outcome⟩

/-- Only the synchronisation with finality and the end of a tick change the number in
the store. -/
theorem NitroOutcome.number_changed {before after : NitroState} {label : NitroLabel}
    (outcome : NitroOutcome config before label after) (changed : after.number ≠ before.number) :
    before.snapshot = some after.number ∨
      ∃ tick last, before.phase = .synced tick ∧ tick.passed.getLast? = some last ∧
        after.number = last.message.delivered.pos := by
  cases outcome with
  | syncStored phase polled => exact .inl polled
  | finishStored phase verified => exact .inr ⟨_, _, phase, verified, rfl⟩
  | _ => exact absurd rfl changed

/-- What a tick has fetched after the call returned was fetched before or is what the call
returned. -/
theorem fetched_of_fetching {before after : NitroState} {tick later : Tick} {pos : Nat}
    {feedMsg : BroadcastFeedMessage} (phase : before.phase = .fetching tick pos feedMsg)
    (transition : before.proceed config = some after)
    (current : after.phase.tick? = some later) {entry : Nat × Bytes}
    (member : entry ∈ later.fetched) :
    entry ∈ tick.fetched ∨ before.fetcher.call = .returned entry.1 (.ok entry.2) := by
  simp only [NitroState.proceed, phase] at transition
  split at transition
  · cases transition
    cases current
    exact .inl member
  · rename_i held messageIndex data present returned
    cases transition
    simp only [NitroState.verifyDelayedMessage] at current
    have extended : later.fetched = tick.fetched ++ [(messageIndex, data)] := by
      split at current <;> cases current <;> rfl
    rw [extended] at member
    rcases List.mem_append.mp member with old | new
    · exact .inl old
    · rw [List.mem_singleton.mp new]
      exact .inr returned
  · cases transition

theorem fetched_origin {before after : NitroState} {label : NitroLabel}
    (transition : before.step config label = some after) {later : Tick}
    (current : after.phase.tick? = some later) {entry : Nat × Bytes}
    (member : entry ∈ later.fetched) :
    (∃ tick, before.phase.tick? = some tick ∧ entry ∈ tick.fetched) ∨
      before.fetcher.call = .returned entry.1 (.ok entry.2) := by
  cases nitroStep_outcome transition with
  | found | broadcast | finalityPoll | fetcher => exact .inl ⟨later, current, member⟩
  | begin =>
      cases current
      cases member
  | panicked | cancelled | syncFailed | nothingVerified | finishFailed | finishStored
  | notGreater => cases current
  | noMessage phase | peeked phase | noFeedMessage phase | feedMessage phase | rejected phase
  | matched phase | lookup phase | advancedFeed phase | advancedFetcher phase
  | notAhead phase | syncStored phase =>
      cases current
      exact .inl ⟨_, by rw [phase]; rfl, member⟩
  | @advanced tick pos feedMsg held phase =>
      cases current
      exact .inl ⟨tick, by rw [phase]; rfl, member⟩
  | fetchFailed phase | fetchedMismatch phase | fetchedMatch phase =>
      exact (fetched_of_fetching phase transition current member).imp_left
        fun old => ⟨_, by rw [phase]; rfl, old⟩
  | advancedTo phase => exact .inl ⟨later, by rw [phase]; exact current, member⟩
  | advancedFeedTo phase =>
      rw [tick?_afterAdvanceTo] at current
      exact .inl ⟨later, by rw [phase]; exact current, member⟩

/-- For every run of the Nitro verifier, if the streamer never moves back: every message
passed in a tick was verified in that tick, the one that is being passed against the
feed message cached for its position; what a tick has fetched for delayed messages is what
the fetcher's calls returned; and whenever the number in the store changes, it becomes a
polled finalized block or the position of the last message passed in the tick. -/
theorem nitro_tag_advances_only_on_match {store : EspressoState} {file : StateFile}
    {finalizedBlock : Nat} {labels : List NitroLabel} {before : NitroState}
    (forward : MovesForward config) (room : store.l2BlockNumber + 1 < 2 ^ 64)
    (run : (nitroMachine config).Runs FinalityBounded (.initial store file finalizedBlock) labels
      before) :
    (∀ tick, before.phase.tick? = some tick → ∀ passed ∈ tick.passed,
      passed.Verified config tick.fetched) ∧
    (∀ tick pos feedMsg, before.phase = .advancing tick pos feedMsg →
      before.feed.getMessage pos = some feedMsg ∧
      ∃ held, before.streamer.peek = some held ∧ held.delivered.pos = pos ∧
        (Passed.mk held feedMsg).Verified config tick.fetched) ∧
    ∀ label after, (nitroMachine config).step before label = some after →
      (∀ tick, after.phase.tick? = some tick → ∀ entry ∈ tick.fetched,
        (∃ earlier, before.phase.tick? = some earlier ∧ entry ∈ earlier.fetched) ∨
          before.fetcher.call = .returned entry.1 (.ok entry.2)) ∧
      (after.number ≠ before.number →
        .finalityPoll after.number ∈ labels ∨
          ∃ tick last, before.phase = .synced tick ∧ tick.passed.getLast? = some last ∧
            after.number = last.message.delivered.pos) := by
  have safe := safeRun_of_runs forward room run
  refine ⟨safe.intact.passed, ?_, ?_⟩
  · intro tick pos feedMsg phase
    have located := safe.located
    have comparing := safe.intact.comparing
    simp only [NitroState.Located, phase] at located
    simp only [NitroState.Comparing, phase] at comparing
    obtain ⟨rfl, cached⟩ := located
    obtain ⟨held, present, verified⟩ := comparing
    exact ⟨cached, held, present, before.streamer.keyed present, verified⟩
  · intro label after transition
    refine ⟨fun tick current entry member => fetched_origin transition current member,
      fun changed => ?_⟩
    rcases (nitroStep_outcome transition).number_changed changed with polled | verified
    · exact .inl (safe.polled _ polled)
    · exact .inr verified

/-- A verifier on the sample configuration of the fetcher, with an encoding that keeps
everything apart. -/
def sampleNitroConfig : NitroConfig where
  encodeToBytes message := message.message.map fun incoming =>
    [UInt8.ofNat message.delayedMessagesRead, UInt8.ofNat incoming.header.length] ++
      incoming.header ++ incoming.l2msg
  moveCursor := max
  fetcher := sampleConfig

/-- A verifier started on a stored state, with the parent chain finalized up to block
10. -/
def NitroState.startedOn (store : EspressoState) : NitroState :=
  .initial store (.holding store) 10

def sampleMessage (delayedMessagesRead : Nat) (l2msg : Bytes) : MessageWithMetadata :=
  ⟨some ⟨[3], l2msg⟩, delayedMessagesRead⟩

/-- Message 5 carries data, message 6 stands for the delayed message 1, whose data the
feed has and the fetcher finds on the parent chain. -/
def sampleTick : List NitroLabel :=
  [.found ⟨sampleMessage 1 [9], 5, 20⟩, .found ⟨sampleMessage 2 [], 6, 21⟩,
    .broadcast ⟨1, [some ⟨5, sampleMessage 1 [9]⟩, some ⟨6, sampleMessage 2 [8]⟩]⟩,
    .fetcherPoll (.latest (some 10)), .fetcherPoll (.finalized (some 10)), .fetcherPoll .start,
    .fetcherPoll (.bridge (some [sampleEvent 1 8])),
    .fetcherPoll (.inbox (some [sampleLog 1 8 7])), .fetcherPoll (.extract none),
    .fetcherPoll .update,
    .proceed, .proceed, .proceed, .proceed, .proceed, .proceed, .proceed,
    .proceed, .proceed, .proceed, .fetcherCall (.recheck (some [sampleEvent 1 8]) false),
    .fetcherCall (.finality (some 10)), .proceed, .proceed, .proceed, .proceed,
    .proceed, .sync 0 1 true]

/-- A tick that moves a store at 4 to message 6, after the messages 5 and 6. -/
theorem nitro_tag_advances_past_delayed_message :
    ∃ labels before after tick,
      (nitroMachine sampleNitroConfig).Runs FinalityBounded (.startedOn ⟨4, 20, 1⟩)
        labels before ∧
      (nitroMachine sampleNitroConfig).step before (.finish 2 true) = some after ∧
      before.phase = .synced tick ∧ before.number = 4 ∧ after.number = 6 ∧
      tick.passed.length = 2 ∧ tick.fetched = [(1, [8])] ∧
      ∀ passed ∈ tick.passed, passed.Verified sampleNitroConfig tick.fetched := by
  obtain ⟨before, after, tick, computed, transition, phase, number, moved, count, fetched⟩ :
      ∃ before after tick,
        (nitroMachine sampleNitroConfig).exec FinalityBounded (.startedOn ⟨4, 20, 1⟩)
          sampleTick = some before ∧
        (nitroMachine sampleNitroConfig).step before (.finish 2 true) = some after ∧
        before.phase = .synced tick ∧ before.number = 4 ∧ after.number = 6 ∧
        tick.passed.length = 2 ∧ tick.fetched = [(1, [8])] :=
    ⟨_, _, _, rfl, rfl, rfl, rfl, rfl, rfl, by decide⟩
  have run := Machine.Runs.ofExec computed
  have forward : MovesForward sampleNitroConfig := fun cursor pos => Nat.le_max_left cursor pos
  have verified := (nitro_tag_advances_only_on_match forward (by simp) run).1 tick
    (by rw [phase]; rfl)
  exact ⟨_, before, after, tick, run, transition, phase, number, moved, count, fetched, verified⟩

end EspressoProxy.Verifier.Nitro
