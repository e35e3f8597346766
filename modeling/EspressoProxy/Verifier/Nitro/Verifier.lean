import EspressoProxy.Store.EspressoStore
import EspressoProxy.Verifier.Nitro.FeedClient
import EspressoProxy.Verifier.Nitro.FetcherMachine

/-!
# The Nitro verifier

`verifyAndAdvance` compares the messages that the Espresso streamer delivers with
those of the sequencer feed, and moves the store to the last one that matches or to the
finalized block of the full node. It runs concurrently with the streamer, the feed
client, the finality poller and the polls of the delayed message fetcher. Each step of
the machine is one call or one section under a lock, so a run is an interleaving of
all of them.

The streamer is a library outside this repository. What is used of it is stated with
`Streamer`: it holds each message as an object, and its cursor is where `Peek` looks.
-/

namespace EspressoProxy.Verifier.Nitro

open EspressoProxy.Ethereum EspressoProxy.Semantics EspressoProxy.Store

/-! ### The streamer -/

/-- A message of the streamer: the content, the position in the rollup and the height
of the HotShot block it was found in. -/
structure MessageWithMetadataAndPos where
  messageWithMeta : MessageWithMetadata
  pos : Nat
  hotshotHeight : Nat
deriving DecidableEq, Repr

/-- A message object of the streamer. The verifier holds a pointer to it and writes to
its `L2msg`, which is the only write: `written` is what was written last. -/
structure Buffered where
  delivered : MessageWithMetadataAndPos
  written : Option Bytes
deriving DecidableEq, Repr

/-- The content of the object as it is now. -/
def Buffered.content (held : Buffered) : MessageWithMetadata :=
  match held.written with
  | none => held.delivered.messageWithMeta
  | some data => held.delivered.messageWithMeta.withL2msg data

/-- The streamer: its cursor and the objects it holds, each at its position. -/
structure Streamer where
  cursor : Nat
  buffer : GoMap Nat Buffered
  keyed : ∀ {pos held}, buffer.get pos = some held → held.delivered.pos = pos

namespace Streamer

def new (startPos : Nat) : Streamer where
  cursor := startPos
  buffer := ∅
  keyed := by
    intro pos held found
    simp at found

def peek (streamer : Streamer) : Option Buffered := streamer.buffer.get streamer.cursor

/-- A message was found on HotShot. The object of a position is not replaced. -/
def find (streamer : Streamer) (message : MessageWithMetadataAndPos) : Streamer where
  cursor := streamer.cursor
  buffer :=
    if (streamer.buffer.get message.pos).isSome then streamer.buffer
    else streamer.buffer.set message.pos ⟨message, none⟩
  keyed := by
    intro pos held found
    split at found
    · exact streamer.keyed found
    · rw [GoMap.get_set] at found
      split at found
      · rename_i same
        cases found
        exact same.symm
      · exact streamer.keyed found

def advance (streamer : Streamer) : Streamer :=
  { streamer with cursor := streamer.cursor + 1 }

/-- The cursor after `AdvanceTo`, as the library computes it from the old cursor and
the target. -/
def advanceTo (moveCursor : Nat → Nat → Nat) (streamer : Streamer) (pos : Nat) : Streamer :=
  { streamer with cursor := moveCursor streamer.cursor pos }

/-- The verifier's write through its pointer to the object of a position. -/
def writeL2msg (streamer : Streamer) (pos : Nat) (data : Bytes) : Streamer where
  cursor := streamer.cursor
  buffer :=
    match streamer.buffer.get pos with
    | none => streamer.buffer
    | some held => streamer.buffer.set pos { held with written := some data }
  keyed := by
    intro other held found
    split at found
    · exact streamer.keyed found
    · rename_i target present
      rw [GoMap.get_set] at found
      split at found
      · rename_i same
        cases found
        have key : target.delivered.pos = pos := streamer.keyed present
        exact key.trans same.symm
      · exact streamer.keyed found

theorem get_find_of_some {streamer : Streamer} {pos : Nat} {held : Buffered}
    (found : streamer.buffer.get pos = some held) (message : MessageWithMetadataAndPos) :
    (streamer.find message).buffer.get pos = some held := by
  simp only [find]
  split
  · exact found
  · rename_i absent
    have different : pos ≠ message.pos := by
      rintro rfl
      simp [found] at absent
    rw [GoMap.get_set_of_ne _ _ different, found]

/-- An object after a find was there before or is the new message, untouched. -/
theorem get_find {streamer : Streamer} {message : MessageWithMetadataAndPos} {pos : Nat}
    {held : Buffered} (found : (streamer.find message).buffer.get pos = some held) :
    streamer.buffer.get pos = some held ∨
      (streamer.buffer.get pos = none ∧ held = ⟨message, none⟩) := by
  simp only [find] at found
  split at found
  · exact .inl found
  · rename_i absent
    rw [GoMap.get_set] at found
    split at found
    · rename_i same
      cases found
      exact .inr ⟨same ▸ Option.not_isSome_iff_eq_none.mp absent, rfl⟩
    · exact .inl found

theorem get_writeL2msg {streamer : Streamer} {pos : Nat} {held : Buffered}
    (present : streamer.buffer.get pos = some held) (data : Bytes) (other : Nat) :
    (streamer.writeL2msg pos data).buffer.get other =
      if other = pos then some { held with written := some data }
      else streamer.buffer.get other := by
  simp only [writeL2msg, present]
  exact GoMap.get_set _ _ _ _

end Streamer

/-! ### Comparing messages -/

/-- The functions outside this repository that the verifier uses: RLP encoding, the
streamer's `AdvanceTo`, and those of the fetcher. -/
structure NitroConfig where
  encodeToBytes : MessageWithMetadata → Option Bytes
  moveCursor : Nat → Nat → Nat
  fetcher : FetcherConfig

inductive MatchError where
  | encodeEspresso
  | encodeFeed
  | mismatch
deriving DecidableEq, Repr

/-- Both messages have the same encoding. -/
def ensureMessagesMatch (config : NitroConfig) (espresso feed : MessageWithMetadata) :
    Except MatchError Unit :=
  match config.encodeToBytes espresso with
  | none => .error .encodeEspresso
  | some espressoBytes =>
      match config.encodeToBytes feed with
      | none => .error .encodeFeed
      | some feedBytes => if espressoBytes ≠ feedBytes then .error .mismatch else .ok ()

theorem ensureMessagesMatch_ok {config : NitroConfig} {espresso feed : MessageWithMetadata} :
    ensureMessagesMatch config espresso feed = .ok () ↔
      ∃ bytes, config.encodeToBytes espresso = some bytes ∧
        config.encodeToBytes feed = some bytes := by
  unfold ensureMessagesMatch
  constructor
  · intro matched
    split at matched
    · cases matched
    · rename_i espressoBytes encoded
      split at matched
      · cases matched
      · rename_i feedBytes feedEncoded
        split at matched
        · cases matched
        · rename_i same
          exact ⟨espressoBytes, encoded, (not_not.mp same) ▸ feedEncoded⟩
  · rintro ⟨bytes, encoded, feedEncoded⟩
    simp [encoded, feedEncoded]

/-! ### The machine -/

/-- A message that the drain passed, as its object was then, with the feed message it
was compared with. -/
structure Passed where
  message : Buffered
  feedMsg : BroadcastFeedMessage
deriving DecidableEq, Repr

/-- What happened in a tick so far: the messages passed and the data that
`GetDelayedMessage` returned. The variable `verifiedMsg` is the last of `passed`. -/
structure Tick where
  passed : List Passed
  fetched : List (Nat × Bytes)
deriving DecidableEq, Repr

/-- Where the verifier goroutine is. `advance` and `advanceTo` call the streamer first
and the feed client second; after `advanceTo` a tick goes on or is over. -/
inductive NitroPhase where
  | idle
  | draining (tick : Tick)
  | peeked (tick : Tick) (pos : Nat)
  | verifying (tick : Tick) (pos : Nat) (feedMsg : BroadcastFeedMessage)
  | fetching (tick : Tick) (pos : Nat) (feedMsg : BroadcastFeedMessage)
  | advancing (tick : Tick) (pos : Nat) (feedMsg : BroadcastFeedMessage)
  | advancingFeed (tick : Tick) (messageIndex : Nat)
  | advancingFetcher (tick : Tick) (messageIndex : Nat)
  | drained (tick : Tick)
  | advancingTo (continues : Option Tick) (pos : Nat)
  | advancingFeedTo (continues : Option Tick) (pos : Nat)
  | synced (tick : Tick)
  | panicked
deriving DecidableEq, Repr

/-- Where `advanceTo` returns to: the rest of the tick, or its end. -/
def afterAdvanceTo : Option Tick → NitroPhase
  | none => .idle
  | some tick => .synced tick

/-- The verifier and everything it shares with other goroutines. `found` are the
messages that the streamer has found so far, and `writeFailed` says whether a store
write has failed. -/
structure NitroState where
  store : EspressoState
  file : StateFile
  streamer : Streamer
  feed : FeedClient
  fetcher : FetcherState
  snapshot : Option Nat
  phase : NitroPhase
  found : List MessageWithMetadataAndPos
  writeFailed : Bool

/-- The number in the store. -/
def NitroState.number (state : NitroState) : Nat := state.store.l2BlockNumber

/-- `NewNitroEspressoBatchVerifier` on an opened store, given the finalized height of
the parent chain. -/
def NitroState.initial (store : EspressoState) (file : StateFile) (finalizedBlock : Nat) :
    NitroState where
  store := store
  file := file
  streamer := .new (u64 (store.l2BlockNumber + 1))
  feed := newFeedClient store.l2BlockNumber
  fetcher := .initial finalizedBlock
  snapshot := none
  phase := .idle
  found := []
  writeFailed := false

/-- The labels. The first four are steps of the other goroutines; the rest are steps of
the verifier, with the answers and the outcome of the disk write where they have
any. -/
inductive NitroLabel where
  | found (message : MessageWithMetadataAndPos)
  | broadcast (message : BroadcastMessage)
  | finalityPoll (block : Nat)
  | fetcherPoll (label : PollLabel)
  | proceed
  | fetcherCall (label : CallLabel)
  | cancel
  | sync (hotshotFallback now : Nat) (written : Bool)
  | finish (now : Nat) (written : Bool)
deriving DecidableEq, Repr

variable (config : NitroConfig)

/-- `verifyMessage` up to the call of `GetDelayedMessage`. A missing message is a nil
pointer. -/
def NitroState.verifyMessage (state : NitroState) (tick : Tick) (pos : Nat)
    (feedMsg : BroadcastFeedMessage) (held : Buffered) : Option NitroState :=
  match held.content.message with
  | none => some { state with phase := .panicked }
  | some incoming =>
      if incoming.l2msg = [] then
        if held.content.delayedMessagesRead ≠ feedMsg.message.delayedMessagesRead then
          some { state with phase := .drained tick }
        else if held.content.delayedMessagesRead = 0 then
          some { state with phase := .drained tick }
        else
          (state.fetcher.callStep config.fetcher
              (.lookup (u64Pred held.content.delayedMessagesRead))).map fun fetcher =>
            { state with fetcher, phase := .fetching tick pos feedMsg }
      else
        match ensureMessagesMatch config held.content feedMsg.message with
        | .error _ => some { state with phase := .drained tick }
        | .ok () => some { state with phase := .advancing tick pos feedMsg }

/-- The end of `verifyDelayedMessage`: what `GetDelayedMessage` returned is written to
the message of the streamer and compared. -/
def NitroState.verifyDelayedMessage (state : NitroState) (tick : Tick) (pos : Nat)
    (feedMsg : BroadcastFeedMessage) (held : Buffered) (messageIndex : Nat) (data : Bytes) :
    NitroState :=
  let tick := { tick with fetched := tick.fetched ++ [(messageIndex, data)] }
  let updated := { held with written := some data }
  { state with
    streamer := state.streamer.writeL2msg pos data
    fetcher := { state.fetcher with call := .idle }
    phase :=
      match ensureMessagesMatch config updated.content feedMsg.message with
      | .error _ => .drained tick
      | .ok () => .advancing tick pos feedMsg }

/-- The steps of the verifier that wait for nothing outside. -/
def NitroState.proceed (state : NitroState) : Option NitroState :=
  match state.phase with
  | .idle => some { state with phase := .draining ⟨[], []⟩ }
  | .draining tick =>
      match state.streamer.peek with
      | none => some { state with phase := .drained tick }
      | some held => some { state with phase := .peeked tick held.delivered.pos }
  | .peeked tick pos =>
      match state.feed.getMessage pos with
      | none => some { state with phase := .drained tick }
      | some feedMsg => some { state with phase := .verifying tick pos feedMsg }
  | .verifying tick pos feedMsg =>
      match state.streamer.buffer.get pos with
      | none => none
      | some held => state.verifyMessage config tick pos feedMsg held
  | .fetching tick pos feedMsg =>
      match state.streamer.buffer.get pos, state.fetcher.call with
      | some _, .returned _ (.error _) =>
          some { state with
            fetcher := { state.fetcher with call := .idle }
            phase := .drained tick }
      | some held, .returned messageIndex (.ok data) =>
          some (state.verifyDelayedMessage config tick pos feedMsg held messageIndex data)
      | _, _ => none
  | .advancing tick pos feedMsg =>
      match state.streamer.buffer.get pos with
      | none => none
      | some held =>
          some { state with
            streamer := state.streamer.advance
            phase := .advancingFeed { tick with passed := tick.passed ++ [⟨held, feedMsg⟩] }
              (u64Pred held.content.delayedMessagesRead) }
  | .advancingFeed tick messageIndex =>
      some { state with
        feed := state.feed.advance
        phase := .advancingFetcher tick messageIndex }
  | .advancingFetcher tick messageIndex =>
      (state.fetcher.callStep config.fetcher (.advance messageIndex)).map fun fetcher =>
        { state with fetcher, phase := .draining tick }
  | .advancingTo continues pos =>
      some { state with
        streamer := state.streamer.advanceTo config.moveCursor pos
        phase := .advancingFeedTo continues pos }
  | .advancingFeedTo continues pos =>
      some { state with
        feed := state.feed.advanceTo pos
        phase := afterAdvanceTo continues }
  | .drained _ | .synced _ | .panicked => none

/-- `syncEspressoStateWithNitroFinality`. A failed write ends the tick. -/
def NitroState.syncEspressoStateWithNitroFinality (state : NitroState) (tick : Tick)
    (hotshotFallback now : Nat) (written : Bool) : NitroState :=
  let nitroFinalizedBlock := state.snapshot.getD 0
  if nitroFinalizedBlock > state.store.l2BlockNumber then
    match updateIfGreater state.store state.file nitroFinalizedBlock hotshotFallback now
        written with
    | (store, file, .error _) => { state with store, file, phase := .idle, writeFailed := true }
    | (store, file, .ok true) =>
        { state with
          store, file
          phase := .advancingTo (some tick) (u64 (nitroFinalizedBlock + 1)) }
    | (store, file, .ok false) => { state with store, file, phase := .synced tick }
  else { state with phase := .synced tick }

/-- The end of `verifyAndAdvance`, with the last message passed. -/
def NitroState.storeVerified (state : NitroState) (tick : Tick) (now : Nat) (written : Bool) :
    NitroState :=
  match tick.passed.getLast? with
  | none => { state with phase := .idle }
  | some verifiedMsg =>
      match updateIfGreater state.store state.file verifiedMsg.message.delivered.pos
          verifiedMsg.message.delivered.hotshotHeight now written with
      | (store, file, .error _) =>
          { state with store, file, phase := .idle, writeFailed := true }
      | (store, file, .ok true) => { state with store, file, phase := .idle }
      | (store, file, .ok false) =>
          { state with
            store, file
            phase := .advancingTo none (u64 (state.store.l2BlockNumber + 1)) }

/-- One step of any goroutine. A cancelled tick ends without an update. -/
def NitroState.step (state : NitroState) : NitroLabel → Option NitroState
  | .found message =>
      some { state with
        streamer := state.streamer.find message
        found := state.found ++ [message] }
  | .broadcast message => some { state with feed := state.feed.readMessages message }
  | .finalityPoll block => some { state with snapshot := some block }
  | .fetcherPoll label =>
      (state.fetcher.pollStep config.fetcher label).map fun fetcher => { state with fetcher }
  | .proceed => state.proceed config
  | .fetcherCall label =>
      match state.phase, label with
      | .fetching _ _ _, .recheck _ _ | .fetching _ _ _, .rewind | .fetching _ _ _, .finality _ =>
          (state.fetcher.callStep config.fetcher label).map fun fetcher => { state with fetcher }
      | _, _ => none
  | .cancel =>
      match state.phase with
      | .draining _ | .drained _ => some { state with phase := .idle }
      | _ => none
  | .sync hotshotFallback now written =>
      match state.phase with
      | .drained tick =>
          some (state.syncEspressoStateWithNitroFinality tick hotshotFallback now written)
      | _ => none
  | .finish now written =>
      match state.phase with
      | .synced tick => some (state.storeVerified tick now written)
      | _ => none

/-- The Nitro verifier with everything that runs beside it. -/
def nitroMachine : Machine NitroState NitroLabel where
  step := NitroState.step config

/-! ### What each step can do -/

/-- Everything a step can do. The tick of each phase is carried along, and only the
constructors that say so touch the streamer, the feed client or the store. -/
inductive NitroOutcome (before : NitroState) : NitroLabel → NitroState → Prop where
  | found {message : MessageWithMetadataAndPos} :
      NitroOutcome before (.found message)
        { before with
          streamer := before.streamer.find message
          found := before.found ++ [message] }
  | broadcast {message : BroadcastMessage} :
      NitroOutcome before (.broadcast message)
        { before with feed := before.feed.readMessages message }
  | finalityPoll {block : Nat} :
      NitroOutcome before (.finalityPoll block) { before with snapshot := some block }
  | fetcher {label : NitroLabel} {fetcher : FetcherState}
      (kind : (∃ pollLabel, label = .fetcherPoll pollLabel) ∨
        ∃ callLabel, label = .fetcherCall callLabel)
      (sameIndex : fetcher.call.index? = before.fetcher.call.index?) :
      NitroOutcome before label { before with fetcher }
  | begin (phase : before.phase = .idle) :
      NitroOutcome before .proceed { before with phase := .draining ⟨[], []⟩ }
  | noMessage {tick : Tick} (phase : before.phase = .draining tick) :
      NitroOutcome before .proceed { before with phase := .drained tick }
  | peeked {tick : Tick} {held : Buffered} (phase : before.phase = .draining tick)
      (peeked : before.streamer.peek = some held) :
      NitroOutcome before .proceed { before with phase := .peeked tick held.delivered.pos }
  | noFeedMessage {tick : Tick} {pos : Nat} (phase : before.phase = .peeked tick pos) :
      NitroOutcome before .proceed { before with phase := .drained tick }
  | feedMessage {tick : Tick} {pos : Nat} {feedMsg : BroadcastFeedMessage}
      (phase : before.phase = .peeked tick pos)
      (cached : before.feed.getMessage pos = some feedMsg) :
      NitroOutcome before .proceed { before with phase := .verifying tick pos feedMsg }
  | panicked {tick : Tick} {pos : Nat} {feedMsg : BroadcastFeedMessage}
      (phase : before.phase = .verifying tick pos feedMsg) :
      NitroOutcome before .proceed { before with phase := .panicked }
  | rejected {tick : Tick} {pos : Nat} {feedMsg : BroadcastFeedMessage}
      (phase : before.phase = .verifying tick pos feedMsg) :
      NitroOutcome before .proceed { before with phase := .drained tick }
  | matched {tick : Tick} {pos : Nat} {feedMsg : BroadcastFeedMessage} {held : Buffered}
      {incoming : L1IncomingMessage} (phase : before.phase = .verifying tick pos feedMsg)
      (present : before.streamer.buffer.get pos = some held)
      (message : held.content.message = some incoming) (nonempty : incoming.l2msg ≠ [])
      (matched : ensureMessagesMatch config held.content feedMsg.message = .ok ()) :
      NitroOutcome before .proceed { before with phase := .advancing tick pos feedMsg }
  | lookup {tick : Tick} {pos : Nat} {feedMsg : BroadcastFeedMessage} {held : Buffered}
      {incoming : L1IncomingMessage} {fetcher : FetcherState}
      (phase : before.phase = .verifying tick pos feedMsg)
      (present : before.streamer.buffer.get pos = some held)
      (message : held.content.message = some incoming) (empty : incoming.l2msg = [])
      (index : fetcher.call.index? = some (u64Pred held.content.delayedMessagesRead)) :
      NitroOutcome before .proceed
        { before with fetcher, phase := .fetching tick pos feedMsg }
  | fetchFailed {tick : Tick} {pos : Nat} {feedMsg : BroadcastFeedMessage}
      (phase : before.phase = .fetching tick pos feedMsg) :
      NitroOutcome before .proceed
        { before with
          fetcher := { before.fetcher with call := .idle }
          phase := .drained tick }
  | fetchedMismatch {tick : Tick} {pos : Nat} {feedMsg : BroadcastFeedMessage}
      {held : Buffered} {messageIndex : Nat} {data : Bytes}
      (phase : before.phase = .fetching tick pos feedMsg)
      (present : before.streamer.buffer.get pos = some held)
      (index : before.fetcher.call.index? = some messageIndex)
      (mismatch : ensureMessagesMatch config { held with written := some data }.content
        feedMsg.message ≠ .ok ()) :
      NitroOutcome before .proceed
        { before with
          streamer := before.streamer.writeL2msg pos data
          fetcher := { before.fetcher with call := .idle }
          phase := .drained { tick with fetched := tick.fetched ++ [(messageIndex, data)] } }
  | fetchedMatch {tick : Tick} {pos : Nat} {feedMsg : BroadcastFeedMessage} {held : Buffered}
      {messageIndex : Nat} {data : Bytes} (phase : before.phase = .fetching tick pos feedMsg)
      (present : before.streamer.buffer.get pos = some held)
      (index : before.fetcher.call.index? = some messageIndex)
      (matched : ensureMessagesMatch config { held with written := some data }.content
        feedMsg.message = .ok ()) :
      NitroOutcome before .proceed
        { before with
          streamer := before.streamer.writeL2msg pos data
          fetcher := { before.fetcher with call := .idle }
          phase := .advancing { tick with fetched := tick.fetched ++ [(messageIndex, data)] } pos
            feedMsg }
  | advanced {tick : Tick} {pos : Nat} {feedMsg : BroadcastFeedMessage} {held : Buffered}
      (phase : before.phase = .advancing tick pos feedMsg)
      (present : before.streamer.buffer.get pos = some held) :
      NitroOutcome before .proceed
        { before with
          streamer := before.streamer.advance
          phase := .advancingFeed { tick with passed := tick.passed ++ [⟨held, feedMsg⟩] }
            (u64Pred held.content.delayedMessagesRead) }
  | advancedFeed {tick : Tick} {messageIndex : Nat}
      (phase : before.phase = .advancingFeed tick messageIndex) :
      NitroOutcome before .proceed
        { before with
          feed := before.feed.advance
          phase := .advancingFetcher tick messageIndex }
  | advancedFetcher {tick : Tick} {messageIndex : Nat} {fetcher : FetcherState}
      (phase : before.phase = .advancingFetcher tick messageIndex) :
      NitroOutcome before .proceed { before with fetcher, phase := .draining tick }
  | advancedTo {continues : Option Tick} {pos : Nat}
      (phase : before.phase = .advancingTo continues pos) :
      NitroOutcome before .proceed
        { before with
          streamer := before.streamer.advanceTo config.moveCursor pos
          phase := .advancingFeedTo continues pos }
  | advancedFeedTo {continues : Option Tick} {pos : Nat}
      (phase : before.phase = .advancingFeedTo continues pos) :
      NitroOutcome before .proceed
        { before with
          feed := before.feed.advanceTo pos
          phase := afterAdvanceTo continues }
  | cancelled {tick : Tick}
      (phase : before.phase = .draining tick ∨ before.phase = .drained tick) :
      NitroOutcome before .cancel { before with phase := .idle }
  | notAhead {tick : Tick} {hotshotFallback now : Nat} {written : Bool}
      (phase : before.phase = .drained tick) :
      NitroOutcome before (.sync hotshotFallback now written)
        { before with phase := .synced tick }
  | syncFailed {tick : Tick} {hotshotFallback now : Nat} {written : Bool}
      (phase : before.phase = .drained tick) :
      NitroOutcome before (.sync hotshotFallback now written)
        { before with phase := .idle, writeFailed := true }
  | syncStored {tick : Tick} {block hotshotFallback now : Nat} {written : Bool}
      (phase : before.phase = .drained tick) (polled : before.snapshot = some block)
      (ahead : before.number < block) :
      NitroOutcome before (.sync hotshotFallback now written)
        { before with
          store := ⟨block, hotshotFallback, now⟩
          file := .holding ⟨block, hotshotFallback, now⟩
          phase := .advancingTo (some tick) (u64 (block + 1)) }
  | nothingVerified {tick : Tick} {now : Nat} {written : Bool}
      (phase : before.phase = .synced tick) (nothing : tick.passed.getLast? = none) :
      NitroOutcome before (.finish now written) { before with phase := .idle }
  | finishFailed {tick : Tick} {now : Nat} {written : Bool}
      (phase : before.phase = .synced tick) :
      NitroOutcome before (.finish now written)
        { before with phase := .idle, writeFailed := true }
  | finishStored {tick : Tick} {last : Passed} {now : Nat} {written : Bool}
      (phase : before.phase = .synced tick) (verified : tick.passed.getLast? = some last)
      (greater : before.number < last.message.delivered.pos) :
      NitroOutcome before (.finish now written)
        { before with
          store := ⟨last.message.delivered.pos, last.message.delivered.hotshotHeight, now⟩
          file := .holding
            ⟨last.message.delivered.pos, last.message.delivered.hotshotHeight, now⟩
          phase := .idle }
  | notGreater {tick : Tick} {last : Passed} {now : Nat} {written : Bool}
      (phase : before.phase = .synced tick) (verified : tick.passed.getLast? = some last)
      (notGreater : last.message.delivered.pos ≤ before.number) :
      NitroOutcome before (.finish now written)
        { before with phase := .advancingTo none (u64 (before.number + 1)) }

variable {config}

theorem verifyMessage_outcome {before after : NitroState} {tick : Tick} {pos : Nat}
    {feedMsg : BroadcastFeedMessage} {held : Buffered}
    (phase : before.phase = .verifying tick pos feedMsg)
    (present : before.streamer.buffer.get pos = some held)
    (transition : before.verifyMessage config tick pos feedMsg held = some after) :
    NitroOutcome config before .proceed after := by
  unfold NitroState.verifyMessage at transition
  split at transition
  · cases transition
    exact .panicked phase
  · rename_i incoming message
    split at transition
    · rename_i empty
      split at transition
      · cases transition
        exact .rejected phase
      · split at transition
        · cases transition
          exact .rejected phase
        · rw [Option.map_eq_some_iff] at transition
          obtain ⟨fetcher, called, rfl⟩ := transition
          exact .lookup phase present message empty (index_of_lookup called)
    · rename_i nonempty
      split at transition
      · cases transition
        exact .rejected phase
      · rename_i matched
        cases transition
        exact .matched phase present message nonempty matched

theorem verifyDelayedMessage_outcome {before : NitroState} {tick : Tick} {pos : Nat}
    {feedMsg : BroadcastFeedMessage} {held : Buffered} {messageIndex : Nat}
    (phase : before.phase = .fetching tick pos feedMsg)
    (present : before.streamer.buffer.get pos = some held)
    (index : before.fetcher.call.index? = some messageIndex) (data : Bytes) :
    NitroOutcome config before .proceed
      (before.verifyDelayedMessage config tick pos feedMsg held messageIndex data) := by
  simp only [NitroState.verifyDelayedMessage]
  split
  · rename_i mismatch
    exact .fetchedMismatch phase present index (by rw [mismatch]; nofun)
  · rename_i matched
    exact .fetchedMatch phase present index matched

theorem proceed_outcome {before after : NitroState}
    (transition : before.proceed config = some after) :
    NitroOutcome config before .proceed after := by
  unfold NitroState.proceed at transition
  split at transition
  · rename_i phase
    cases transition
    exact .begin phase
  · rename_i phase
    split at transition
    · cases transition
      exact .noMessage phase
    · rename_i peeked
      cases transition
      exact .peeked phase peeked
  · rename_i phase
    split at transition
    · cases transition
      exact .noFeedMessage phase
    · rename_i cached
      cases transition
      exact .feedMessage phase cached
  · rename_i phase
    split at transition
    · cases transition
    · rename_i present
      exact verifyMessage_outcome phase present transition
  · rename_i phase
    split at transition
    · cases transition
      exact .fetchFailed phase
    · rename_i present returned
      cases transition
      exact verifyDelayedMessage_outcome phase present (by rw [returned]; rfl) _
    · cases transition
  · rename_i phase
    split at transition
    · cases transition
    · rename_i present
      cases transition
      exact .advanced phase present
  · rename_i phase
    cases transition
    exact .advancedFeed phase
  · rename_i phase
    rw [Option.map_eq_some_iff] at transition
    obtain ⟨fetcher, -, rfl⟩ := transition
    exact .advancedFetcher phase
  · rename_i phase
    cases transition
    exact .advancedTo phase
  · rename_i phase
    cases transition
    exact .advancedFeedTo phase
  all_goals cases transition

theorem sync_outcome {before : NitroState} {tick : Tick} (phase : before.phase = .drained tick)
    (hotshotFallback now : Nat) (written : Bool) :
    NitroOutcome config before (.sync hotshotFallback now written)
      (before.syncEspressoStateWithNitroFinality tick hotshotFallback now written) := by
  unfold NitroState.syncEspressoStateWithNitroFinality
  by_cases ahead : before.snapshot.getD 0 > before.store.l2BlockNumber
  · obtain ⟨block, polled⟩ : ∃ block, before.snapshot = some block := by
      cases polled : before.snapshot with
      | none => simp [polled] at ahead
      | some block => exact ⟨block, rfl⟩
    have value : before.snapshot.getD 0 = block := by
      rw [polled]
      rfl
    rw [value] at ahead
    simp only [value, if_pos ahead]
    rcases updateIfGreater_cases before.store before.file block hotshotFallback now written with
      ⟨notGreater, -⟩ | ⟨-, -, outcome⟩ | ⟨-, -, outcome⟩
    · exact absurd ahead (Nat.not_lt.mpr notGreater)
    · rw [outcome]
      exact .syncFailed phase
    · rw [outcome]
      exact .syncStored phase polled ahead
  · simp only [ahead, if_false]
    exact .notAhead phase

theorem finish_outcome {before : NitroState} {tick : Tick} (phase : before.phase = .synced tick)
    (now : Nat) (written : Bool) :
    NitroOutcome config before (.finish now written) (before.storeVerified tick now written) := by
  unfold NitroState.storeVerified
  cases verified : tick.passed.getLast? with
  | none => exact .nothingVerified phase verified
  | some last =>
      simp only
      rcases updateIfGreater_cases before.store before.file last.message.delivered.pos
          last.message.delivered.hotshotHeight now written with
        ⟨notGreater, outcome⟩ | ⟨-, -, outcome⟩ | ⟨greater, -, outcome⟩
      · rw [outcome]
        exact .notGreater phase verified notGreater
      · rw [outcome]
        exact .finishFailed phase
      · rw [outcome]
        exact .finishStored phase verified greater

theorem nitroStep_outcome {before after : NitroState} {label : NitroLabel}
    (transition : before.step config label = some after) :
    NitroOutcome config before label after := by
  unfold NitroState.step at transition
  split at transition
  · cases transition
    exact .found
  · cases transition
    exact .broadcast
  · cases transition
    exact .finalityPoll
  · rw [Option.map_eq_some_iff] at transition
    obtain ⟨fetcher, moved, rfl⟩ := transition
    exact .fetcher (.inl ⟨_, rfl⟩) (by rw [(pollStep_outcome moved).call_eq])
  · exact proceed_outcome transition
  · split at transition
    case h_4 => cases transition
    all_goals
      rw [Option.map_eq_some_iff] at transition
      obtain ⟨fetcher, moved, rfl⟩ := transition
      exact .fetcher (.inr ⟨_, rfl⟩) (index_of_callStep (by nofun) (by nofun) moved)
  · split at transition
    · rename_i phase
      cases transition
      exact .cancelled (.inl phase)
    · rename_i phase
      cases transition
      exact .cancelled (.inr phase)
    · cases transition
  · split at transition
    · rename_i phase
      cases transition
      exact sync_outcome phase _ _ _
    · cases transition
  · split at transition
    · rename_i phase
      cases transition
      exact finish_outcome phase _ _
    · cases transition

/-! ### Where the message in hand is -/

/-- The tick that a phase belongs to. -/
def NitroPhase.tick? : NitroPhase → Option Tick
  | .idle | .panicked => none
  | .draining tick | .peeked tick _ | .verifying tick _ _ | .fetching tick _ _
  | .advancing tick _ _ | .advancingFeed tick _ | .advancingFetcher tick _ | .drained tick
  | .synced tick => some tick
  | .advancingTo continues _ | .advancingFeedTo continues _ => continues

theorem tick?_afterAdvanceTo (continues : Option Tick) :
    (afterAdvanceTo continues).tick? = continues := by
  cases continues <;> rfl

/-- The message in hand is the one at the cursor, and the feed message it is compared
with is cached. Only the verifier removes messages from the feed client. -/
def NitroState.Located (state : NitroState) : Prop :=
  match state.phase with
  | .peeked _ pos => pos = state.streamer.cursor
  | .verifying _ pos feedMsg | .fetching _ pos feedMsg | .advancing _ pos feedMsg =>
      pos = state.streamer.cursor ∧ state.feed.getMessage pos = some feedMsg
  | _ => True

theorem located_step {before after : NitroState} {label : NitroLabel}
    (outcome : NitroOutcome config before label after) (prior : before.Located) :
    after.Located := by
  cases outcome with
  | found | finalityPoll | fetcher => exact prior
  | broadcast =>
      unfold NitroState.Located at prior ⊢
      simp only
      split at prior
      · exact prior
      · exact ⟨prior.1, FeedClient.getMessage_readMessages_of_some prior.2 _⟩
      · exact ⟨prior.1, FeedClient.getMessage_readMessages_of_some prior.2 _⟩
      · exact ⟨prior.1, FeedClient.getMessage_readMessages_of_some prior.2 _⟩
      · trivial
  | peeked phase peeked => exact before.streamer.keyed peeked
  | feedMessage phase cached =>
      simp only [NitroState.Located, phase] at prior
      exact ⟨prior, cached⟩
  | matched phase | lookup phase =>
      simp only [NitroState.Located, phase] at prior
      exact prior
  | fetchedMatch phase =>
      simp only [NitroState.Located, phase] at prior
      exact prior
  | @advancedFeedTo continues => cases continues <;> trivial
  | _ => trivial

/-! ### The fetcher of the verifier -/

/-- The call of `GetDelayedMessage` that `verifyDelayedMessage` makes for an object, if it
gets that far. -/
def lookupOf (held : Buffered) (feedMsg : BroadcastFeedMessage) : Option FetcherLabel :=
  match held.content.message with
  | none => none
  | some incoming =>
      if incoming.l2msg = [] then
        if held.content.delayedMessagesRead ≠ feedMsg.message.delayedMessagesRead then none
        else if held.content.delayedMessagesRead = 0 then none
        else some (.call (.lookup (u64Pred held.content.delayedMessagesRead)))
      else none

/-- What a step of the verifier is to its fetcher. -/
def fetcherAction (state : NitroState) : NitroLabel → Option FetcherLabel
  | .fetcherPoll label => some (.poll label)
  | .fetcherCall label => some (.call label)
  | .proceed =>
      match state.phase with
      | .verifying _ pos feedMsg => (state.streamer.buffer.get pos).bind (lookupOf · feedMsg)
      | .fetching _ _ _ => some (.call .finish)
      | .advancingFetcher _ messageIndex => some (.call (.advance messageIndex))
      | _ => none
  | .found _ | .broadcast _ | .finalityPoll _ | .cancel | .sync _ _ _ | .finish _ _ => none

/-- A step as its fetcher sees it: nothing, or a step of its own. -/
def FetcherMoves (config : NitroConfig) (before after : NitroState) :
    Option FetcherLabel → Prop
  | none => after.fetcher = before.fetcher
  | some action => before.fetcher.step config.fetcher action = some after.fetcher

theorem verifyMessage_moves {before after : NitroState} {tick : Tick} {pos : Nat}
    {feedMsg : BroadcastFeedMessage} {held : Buffered}
    (transition : before.verifyMessage config tick pos feedMsg held = some after) :
    FetcherMoves config before after (lookupOf held feedMsg) := by
  cases present : held.content.message with
  | none =>
      simp only [NitroState.verifyMessage, present] at transition
      cases transition
      simp only [lookupOf, present, FetcherMoves]
  | some incoming =>
      simp only [NitroState.verifyMessage, present] at transition
      simp only [lookupOf, present]
      by_cases empty : incoming.l2msg = []
      · simp only [if_pos empty] at transition ⊢
        split at transition
        · rename_i different
          cases transition
          rw [if_pos different]
          rfl
        · rename_i same
          rw [if_neg same]
          split at transition
          · rename_i zero
            cases transition
            rw [if_pos zero]
            rfl
          · rename_i nonzero
            obtain ⟨fetcher, moved, rfl⟩ := Option.map_eq_some_iff.mp transition
            rw [if_neg nonzero]
            exact moved
      · simp only [if_neg empty] at transition ⊢
        split at transition <;> cases transition <;> rfl

theorem proceed_moves {before after : NitroState}
    (transition : before.proceed config = some after) :
    FetcherMoves config before after (fetcherAction before .proceed) := by
  cases phase : before.phase with
  | idle | advancingFeed | advancingTo | advancingFeedTo | drained | synced | panicked =>
      simp only [NitroState.proceed, phase] at transition
      cases transition <;> simp only [fetcherAction, phase, FetcherMoves]
  | draining | peeked | advancing =>
      simp only [NitroState.proceed, phase] at transition
      split at transition <;> cases transition <;> simp only [fetcherAction, phase, FetcherMoves]
  | verifying tick pos feedMsg =>
      simp only [NitroState.proceed, phase] at transition
      split at transition
      · cases transition
      · rename_i present
        simp only [fetcherAction, phase, present, Option.bind_some]
        exact verifyMessage_moves transition
  | fetching tick pos feedMsg =>
      simp only [NitroState.proceed, phase] at transition
      simp only [fetcherAction, phase, FetcherMoves, FetcherState.step]
      split at transition
      · rename_i returned
        cases transition
        simp [FetcherState.callStep, returned]
      · rename_i returned
        cases transition
        simp [FetcherState.callStep, returned, NitroState.verifyDelayedMessage]
      · cases transition
  | advancingFetcher tick messageIndex =>
      simp only [NitroState.proceed, phase] at transition
      obtain ⟨fetcher, moved, rfl⟩ := Option.map_eq_some_iff.mp transition
      simp only [fetcherAction, phase, FetcherMoves]
      exact moved

theorem nitroStep_moves {before after : NitroState} {label : NitroLabel}
    (transition : before.step config label = some after) :
    FetcherMoves config before after (fetcherAction before label) := by
  cases label with
  | proceed => exact proceed_moves transition
  | fetcherPoll label =>
      obtain ⟨fetcher, moved, rfl⟩ := Option.map_eq_some_iff.mp transition
      exact moved
  | fetcherCall label =>
      simp only [NitroState.step] at transition
      split at transition
      case h_4 => cases transition
      all_goals
        obtain ⟨fetcher, moved, rfl⟩ := Option.map_eq_some_iff.mp transition
        exact moved
  | found | broadcast | finalityPoll | cancel | sync | finish =>
      change after.fetcher = before.fetcher
      cases nitroStep_outcome transition with
      | fetcher kind => rcases kind with ⟨_, impossible⟩ | ⟨_, impossible⟩ <;> cases impossible
      | _ => rfl

end EspressoProxy.Verifier.Nitro
