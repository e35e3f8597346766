import EspressoProxy.Verifier.Nitro.Cursors

/-!
# The feed client's cursor and the store

The cursor of the feed client is what a reconnect asks for, and everything below it is
dropped from the cache. It should never go back and stand at the store's number or one
after it between ticks. The streamer ignores an `AdvanceTo` that is behind, but the feed
client obeys it. So a finalized block below what the tick has just passed sets the feed
client back behind messages that are already verified, and it stays behind.
-/

namespace EspressoProxy.Verifier.Nitro

open EspressoProxy.Ethereum EspressoProxy.Semantics EspressoProxy.Store

variable {config : NitroConfig}

/-- A finalized block that raises the store is not behind the feed client. -/
def NotBehindFeed (state : NitroState) : NitroLabel → Prop
  | .sync _ _ _ => ∀ block ∈ state.snapshot, state.number < block →
      state.feed.nextSeqNum ≤ block + 1
  | _ => True

instance (state : NitroState) : ∀ label, Decidable (NotBehindFeed state label)
  | .sync _ _ _ => inferInstanceAs (Decidable (∀ block ∈ state.snapshot, state.number < block →
      state.feed.nextSeqNum ≤ block + 1))
  | .found _ | .broadcast _ | .finalityPoll _ | .fetcherPoll _ | .proceed | .fetcherCall _
  | .cancel | .finish _ _ => isTrue trivial

/-- The side condition of the runs below. The positions can be increased, the tick is not
cancelled and finality is not behind the feed client. -/
structure FeedKeepsPace (state : NitroState) (label : NitroLabel) : Prop where
  uncancelled : Uncancelled state label
  feedRoom : state.feed.nextSeqNum + 1 < 2 ^ 64
  storeRoom : state.number + 1 < 2 ^ 64
  notBehind : NotBehindFeed state label

instance (state : NitroState) (label : NitroLabel) : Decidable (FeedKeepsPace state label) :=
  decidable_of_iff (Uncancelled state label ∧ state.feed.nextSeqNum + 1 < 2 ^ 64 ∧
      state.number + 1 < 2 ^ 64 ∧ NotBehindFeed state label)
    ⟨fun ⟨uncancelled, feedRoom, storeRoom, notBehind⟩ =>
        ⟨uncancelled, feedRoom, storeRoom, notBehind⟩,
      fun ⟨uncancelled, feedRoom, storeRoom, notBehind⟩ =>
        ⟨uncancelled, feedRoom, storeRoom, notBehind⟩⟩

/-- Where the feed client stands in each phase: beside the streamer, except between the two
calls of `advance` and of `advanceTo`. -/
def NitroState.FeedBeside (state : NitroState) : Prop :=
  match state.phase with
  | .panicked => True
  | .advancingFeed _ _ =>
      state.feed.nextSeqNum < state.streamer.cursor ∧
        state.streamer.cursor ≤ state.feed.nextSeqNum + 2
  | .advancingTo _ pos =>
      state.feed.nextSeqNum ≤ pos ∧ state.streamer.cursor ≤ pos + 1
  | .advancingFeedTo _ pos =>
      state.feed.nextSeqNum ≤ pos ∧ pos ≤ state.streamer.cursor ∧
        state.streamer.cursor ≤ pos + 1
  | _ =>
      state.feed.nextSeqNum ≤ state.streamer.cursor ∧
        state.streamer.cursor ≤ state.feed.nextSeqNum + 1

/-- Without failed writes, the feed client stays beside the streamer. -/
theorem feedBeside_step {before after : NitroState} {label : NitroLabel}
    (target : MovesToTarget config) (polled : SnapshotBounded before)
    (streamer : before.writeFailed = false → before.StreamerAt) (pace : FeedKeepsPace before label)
    (outcome : NitroOutcome config before label after)
    (prior : before.writeFailed = false → before.FeedBeside)
    (noFailure : after.writeFailed = false) : after.FeedBeside := by
  have earlier := outcome.noFailure_before noFailure
  have beside := prior earlier
  cases outcome with
  | found | finalityPoll | fetcher => exact beside
  | broadcast =>
      simpa [NitroState.FeedBeside] using beside
  | panicked => trivial
  | cancelled => exact absurd pace.uncancelled id
  | syncFailed | finishFailed => cases noFailure
  | begin phase | noMessage phase | peeked phase | noFeedMessage phase | feedMessage phase
  | rejected phase | matched phase | lookup phase | fetchFailed phase | fetchedMismatch phase
  | fetchedMatch phase | advancedFetcher phase | notAhead phase | nothingVerified phase
  | finishStored phase =>
      simp only [NitroState.FeedBeside, phase] at beside
      exact beside
  | advanced phase present =>
      simp only [NitroState.FeedBeside, phase] at beside
      simp only [NitroState.FeedBeside, Streamer.advance]
      omega
  | advancedFeed phase =>
      simp only [NitroState.FeedBeside, phase] at beside
      simp only [NitroState.FeedBeside, FeedClient.advance, u64_of_lt pace.feedRoom]
      omega
  | @advancedTo continues pos phase =>
      simp only [NitroState.FeedBeside, phase] at beside
      simp only [NitroState.FeedBeside, Streamer.advanceTo, target _ pos]
      omega
  | @advancedFeedTo continues pos phase =>
      simp only [NitroState.FeedBeside, phase] at beside
      cases continues with
      | none => exact beside.2
      | some tick => exact beside.2
  | @syncStored tick block hotshotFallback now written phase snapshot ahead =>
      have notBehind := pace.notBehind block snapshot ahead
      simp only [NitroState.FeedBeside, phase] at beside
      simp only [NitroState.FeedBeside, u64_of_lt (polled block snapshot)]
      omega
  | notGreater phase verified notGreater =>
      have position := streamer earlier
      simp only [NitroState.FeedBeside, phase] at beside
      simp only [NitroState.StreamerAt, phase, NitroPhase.tick?, reached, verified,
        Option.bind_some] at position
      simp only [NitroState.FeedBeside, u64_of_lt pace.storeRoom]
      omega

/-- Beside the streamer, the feed client only moves forward. -/
theorem NitroOutcome.nextSeqNum_le {before after : NitroState} {label : NitroLabel}
    (outcome : NitroOutcome config before label after) (pace : FeedKeepsPace before label)
    (beside : before.FeedBeside) : before.feed.nextSeqNum ≤ after.feed.nextSeqNum := by
  cases outcome with
  | broadcast => simp
  | advancedFeed =>
      change before.feed.nextSeqNum ≤ u64 (before.feed.nextSeqNum + 1)
      rw [u64_of_lt pace.feedRoom]
      exact Nat.le_succ _
  | advancedFeedTo phase =>
      simp only [NitroState.FeedBeside, phase] at beside
      exact beside.1
  | _ => exact Nat.le_refl _

theorem feedBeside_of_runs {store : EspressoState} {file : StateFile} {finalizedBlock : Nat}
    {labels : List NitroLabel} {state : NitroState} (target : MovesToTarget config)
    (room : store.l2BlockNumber + 1 < 2 ^ 64)
    (run : (nitroMachine config).Runs FeedKeepsPace (.initial store file finalizedBlock) labels
      state) (noFailure : state.writeFailed = false) : state.FeedBeside := by
  have start : (NitroState.initial store file finalizedBlock).FeedBeside := by
    change store.l2BlockNumber ≤ u64 (store.l2BlockNumber + 1) ∧
      u64 (store.l2BlockNumber + 1) ≤ store.l2BlockNumber + 1
    rw [u64_of_lt room]
    exact ⟨Nat.le_succ _, Nat.le_refl _⟩
  refine run.invariantAlong (P := fun _ state => state.writeFailed = false → state.FeedBeside)
    (fun _ => start) ?_ noFailure
  intro taken before label after run prior pace transition noFailure
  have cursors := cursorRun_of_runs target room (run.weaken fun pace => pace.uncancelled)
  exact feedBeside_step target cursors.snapshot cursors.streamer pace
    (nitroStep_outcome transition) prior noFailure

/-- In every run without failed writes in which finality never is behind the feed client:
at the end of a tick the feed client is at the store's number or one after it, so it keeps
at most the message of that number among those verified; and it never goes back. -/
theorem feed_cursor_follows_store {store : EspressoState} {file : StateFile}
    {finalizedBlock : Nat} {labels : List NitroLabel} {state : NitroState}
    (target : MovesToTarget config) (room : store.l2BlockNumber + 1 < 2 ^ 64)
    (run : (nitroMachine config).Runs FeedKeepsPace (.initial store file finalizedBlock) labels
      state) (noFailure : state.writeFailed = false) :
    (state.phase = .idle →
      (state.feed.nextSeqNum = state.number ∨ state.feed.nextSeqNum = state.number + 1) ∧
      ∀ seqNum message, state.feed.getMessage seqNum = some message →
        seqNum ≤ state.number → seqNum = state.number) ∧
    ∀ more later, (nitroMachine config).Runs FeedKeepsPace state more later →
      later.writeFailed = false → state.feed.nextSeqNum ≤ later.feed.nextSeqNum := by
  constructor
  · intro idle
    have beside := feedBeside_of_runs target room run noFailure
    have position := (cursorRun_of_runs target room
      (run.weaken fun pace => pace.uncancelled)).streamer noFailure
    simp only [NitroState.FeedBeside, idle] at beside
    simp only [NitroState.StreamerAt, idle, NitroPhase.tick?, reached, Option.bind_none]
      at position
    refine ⟨by omega, fun seqNum message cached verified => ?_⟩
    have kept := FeedClient.nextSeqNum_le cached
    omega
  · intro more later rest
    refine rest.invariantAlong (P := fun _ later => later.writeFailed = false →
      state.feed.nextSeqNum ≤ later.feed.nextSeqNum) (fun _ => Nat.le_refl _) ?_
    intro taken before label after between prior pace transition noFailure
    have outcome := nitroStep_outcome transition
    have earlier := outcome.noFailure_before noFailure
    have beside := feedBeside_of_runs target room (run.trans between) earlier
    exact Nat.le_trans (prior earlier) (outcome.nextSeqNum_le pace beside)

/-- The steps that find, compare and pass the messages 5, 6 and 7. -/
def sampleDrain : List NitroLabel :=
  [.found ⟨sampleMessage 1 [9], 5, 20⟩, .found ⟨sampleMessage 1 [8], 6, 21⟩,
    .found ⟨sampleMessage 1 [7], 7, 22⟩,
    .broadcast ⟨1, [some ⟨5, sampleMessage 1 [9]⟩, some ⟨6, sampleMessage 1 [8]⟩,
      some ⟨7, sampleMessage 1 [7]⟩]⟩] ++
    List.replicate 20 .proceed

/-- A store at 4, the messages 5, 6 and 7 and the finalized block 7: the feed client goes
from 7 to 8 and the store to 7. -/
theorem feed_cursor_follows_store_to_finality :
    ∃ drained later, (nitroMachine sampleNitroConfig).Runs FeedKeepsPace
        (.startedOn ⟨4, 20, 1⟩) sampleDrain drained ∧
      (nitroMachine sampleNitroConfig).Runs FeedKeepsPace drained
        [.finalityPoll 7, .sync 30 3 true, .proceed, .proceed, .finish 4 true, .proceed, .proceed]
        later ∧
      later.phase = .idle ∧ later.number = 7 ∧ drained.feed.nextSeqNum = 7 ∧
      later.feed.nextSeqNum = 8 ∧ drained.feed.nextSeqNum ≤ later.feed.nextSeqNum := by
  obtain ⟨drained, later, first, second, phase, number, noFailure, stillNone, before, after⟩ :
      ∃ drained later,
        (nitroMachine sampleNitroConfig).exec FeedKeepsPace (.startedOn ⟨4, 20, 1⟩) sampleDrain =
          some drained ∧
        (nitroMachine sampleNitroConfig).exec FeedKeepsPace drained
          [.finalityPoll 7, .sync 30 3 true, .proceed, .proceed, .finish 4 true, .proceed,
            .proceed] = some later ∧
        later.phase = .idle ∧ later.number = 7 ∧ drained.writeFailed = false ∧
        later.writeFailed = false ∧ drained.feed.nextSeqNum = 7 ∧ later.feed.nextSeqNum = 8 :=
    ⟨_, _, rfl, rfl, rfl, rfl, rfl, rfl, rfl, rfl⟩
  have run := Machine.Runs.ofExec first
  have rest := Machine.Runs.ofExec second
  have target : MovesToTarget sampleNitroConfig := fun _ _ => rfl
  have forward := (feed_cursor_follows_store target (by simp) run noFailure).2 _ later rest
    stillNone
  exact ⟨drained, later, run, rest, phase, number, before, after, forward⟩

/-- A store at 4, the messages 5, 6 and 7 and the finalized block 5: the feed client goes
back from 7 to 6, and at the end of the tick it is behind the store, which is at 7. -/
theorem feed_cursor_set_back_by_finality :
    ∃ drained later, (nitroMachine sampleNitroConfig).Reaches (.startedOn ⟨4, 20, 1⟩)
        sampleDrain drained ∧
      (nitroMachine sampleNitroConfig).Reaches drained
        [.finalityPoll 5, .sync 30 3 true, .proceed, .proceed, .finish 4 true] later ∧
      later.phase = .idle ∧ later.writeFailed = false ∧ later.number = 7 ∧
      drained.feed.nextSeqNum = 7 ∧ later.feed.nextSeqNum = 6 := by
  obtain ⟨drained, later, first, second, final⟩ : ∃ drained later,
      (nitroMachine sampleNitroConfig).exec (fun _ _ => True) (.startedOn ⟨4, 20, 1⟩)
        sampleDrain = some drained ∧
      (nitroMachine sampleNitroConfig).exec (fun _ _ => True) drained
        [.finalityPoll 5, .sync 30 3 true, .proceed, .proceed, .finish 4 true] = some later ∧
      later.phase = .idle ∧ later.writeFailed = false ∧ later.number = 7 ∧
      drained.feed.nextSeqNum = 7 ∧ later.feed.nextSeqNum = 6 :=
    ⟨_, _, rfl, rfl, rfl, rfl, rfl, rfl, rfl⟩
  exact ⟨drained, later, Machine.Runs.ofExec first, Machine.Runs.ofExec second, final⟩

end EspressoProxy.Verifier.Nitro
