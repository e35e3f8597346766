import EspressoProxy.Verifier.Nitro.Attempts
import EspressoProxy.Verifier.Nitro.Cursors

/-!
# The Nitro verifier catches up

Suppose that the streamer and the feed client hold messages for every position up to a
target, and that each of them passes `verifyMessage`. The other goroutines go on finding,
receiving and polling while the verifier drains. They add messages and never replace one, so
the drain does not stop before the target, and it takes a bounded number of the verifier's
own steps to get there. A tick that ends has stored it.
-/

namespace EspressoProxy.Verifier.Nitro

open EspressoProxy.Ethereum EspressoProxy.Semantics EspressoProxy.Store

variable {config : NitroConfig}

/-- A step of the verifier goroutine. -/
def NitroLabel.isOwn : NitroLabel → Bool
  | .proceed | .fetcherCall _ | .sync _ _ _ | .finish _ _ => true
  | _ => false

/-! ### The verifier goroutine is never blocked -/

/-- The position of the message that the verifier has a pointer to. -/
def NitroPhase.inHand? : NitroPhase → Option Nat
  | .peeked _ pos | .verifying _ pos _ | .fetching _ pos _ | .advancing _ pos _ => some pos
  | _ => none

/-- The message in hand is there, and a call of `GetDelayedMessage` is under way exactly while
the verifier waits for one. -/
structure Operable (state : NitroState) : Prop where
  present : ∀ pos, state.phase.inHand? = some pos → (state.streamer.buffer.get pos).isSome
  calling : match state.phase with
    | .panicked => True
    | .fetching _ _ _ => state.fetcher.call.index?.isSome
    | _ => state.fetcher.call.index? = none

theorem notInHand {phase : NitroPhase} {P : Nat → Prop} (nothing : phase.inHand? = none)
    (pos : Nat) (inHand : phase.inHand? = some pos) : P pos := by
  rw [nothing] at inHand
  cases inHand

theorem operable_step {before after : NitroState} {label : NitroLabel}
    (operable : Operable before) (transition : before.step config label = some after) :
    Operable after := by
  have outcome := nitroStep_outcome transition
  obtain ⟨present, calling⟩ := operable
  cases outcome with
  | found =>
      refine ⟨fun pos inHand => ?_, calling⟩
      obtain ⟨held, found⟩ := Option.isSome_iff_exists.mp (present pos inHand)
      exact Option.isSome_iff_exists.mpr ⟨held, Streamer.get_find_of_some found _⟩
  | broadcast | finalityPoll => exact ⟨present, calling⟩
  | fetcher kind sameIndex =>
      refine ⟨present, ?_⟩
      simp only [sameIndex]
      exact calling
  | begin phase | noMessage phase | noFeedMessage phase | rejected phase | advancedFeed phase
  | advancedTo phase | notAhead phase | syncFailed phase | syncStored phase
  | nothingVerified phase | finishFailed phase | finishStored phase | notGreater phase =>
      rw [phase] at calling
      exact ⟨notInHand rfl, calling⟩
  | cancelled phase =>
      rcases phase with phase | phase <;> rw [phase] at calling <;> exact ⟨notInHand rfl, calling⟩
  | panicked phase => exact ⟨notInHand rfl, trivial⟩
  | @peeked tick held phase found =>
      rw [phase] at calling
      refine ⟨fun pos inHand => ?_, calling⟩
      obtain rfl := Option.some.inj inHand
      rw [before.streamer.keyed found]
      exact Option.isSome_of_eq_some found
  | feedMessage phase | matched phase =>
      rw [phase] at present calling
      exact ⟨present, calling⟩
  | lookup phase _ _ _ index =>
      rw [phase] at present
      exact ⟨present, Option.isSome_of_eq_some index⟩
  | fetchFailed => exact ⟨notInHand rfl, rfl⟩
  | fetchedMismatch => exact ⟨notInHand rfl, rfl⟩
  | fetchedMatch phase found =>
      rw [phase] at present
      refine ⟨fun pos inHand => ?_, rfl⟩
      simp only [Streamer.get_writeL2msg found]
      split
      · rfl
      · exact present pos inHand
  | advanced phase =>
      rw [phase] at calling
      exact ⟨notInHand rfl, calling⟩
  | @advancedFetcher tick messageIndex _ phase =>
      -- The outcome leaves the fetcher open; `Advance` does not start a call.
      simp only [NitroState.step, NitroState.proceed, phase, Option.map_eq_some_iff] at transition
      obtain ⟨fetcher, moved, same⟩ := transition
      refine ⟨notInHand rfl, ?_⟩
      rw [← same]
      cases callStep_outcome moved with
      | advanced idle => exact CallPhase.index?_eq_none.mpr idle
  | @advancedFeedTo continues pos phase =>
      rw [phase] at calling
      cases continues with
      | none => exact ⟨notInHand rfl, calling⟩
      | some tick => exact ⟨notInHand rfl, calling⟩

theorem operable_of_runs {admits : NitroState → NitroLabel → Prop} {store : EspressoState}
    {file : StateFile} {finalizedBlock : Nat} {labels : List NitroLabel} {state : NitroState}
    (run : (nitroMachine config).Runs admits (.initial store file finalizedBlock) labels state) :
    Operable state :=
  run.invariant (P := Operable) ⟨notInHand rfl, rfl⟩ fun operable _ transition =>
    operable_step operable transition

/-- Some answer of the parent chain lets a call of `GetDelayedMessage` go on. -/
theorem exists_callStep {state : FetcherState} (calling : state.call.index?.isSome)
    (pending : ∀ index result, state.call ≠ .returned index result) :
    (state.callStep config.fetcher (.recheck none false)).isSome ∨
      (state.callStep config.fetcher .rewind).isSome ∨
      (state.callStep config.fetcher (.finality none)).isSome := by
  cases call : state.call with
  | idle =>
      rw [call] at calling
      cases calling
  | lookedUp index message query =>
      simp [FetcherState.callStep, call, verifyDelayedMessageOnParentChain]
  | rewinding index message => simp [FetcherState.callStep, call]
  | checked index message => simp [FetcherState.callStep, call]
  | returned index result => exact absurd call (pending index result)

/-- Unless it has panicked, the verifier can take a step. -/
theorem Operable.exists_own {state : NitroState} (operable : Operable state)
    (alive : state.phase ≠ .panicked) :
    ∃ label, label.isOwn = true ∧ (state.step config label).isSome := by
  obtain ⟨present, calling⟩ := operable
  have held {pos : Nat} (inHand : state.phase.inHand? = some pos) :
      ∃ held, state.streamer.buffer.get pos = some held :=
    Option.isSome_iff_exists.mp (present pos inHand)
  cases phase : state.phase with
  | panicked => exact absurd phase alive
  | drained tick => exact ⟨.sync 0 0 true, rfl, by simp only [NitroState.step, phase]; rfl⟩
  | synced tick => exact ⟨.finish 0 true, rfl, by simp only [NitroState.step, phase]; rfl⟩
  | idle | advancingFeed | advancingTo | advancingFeedTo =>
      exact ⟨.proceed, rfl, by simp only [NitroState.step, NitroState.proceed, phase]; rfl⟩
  | draining tick =>
      refine ⟨.proceed, rfl, ?_⟩
      simp only [NitroState.step, NitroState.proceed, phase]
      split <;> rfl
  | peeked tick pos =>
      refine ⟨.proceed, rfl, ?_⟩
      simp only [NitroState.step, NitroState.proceed, phase]
      split <;> rfl
  | verifying tick pos feedMsg =>
      obtain ⟨held, found⟩ := held (by rw [phase]; rfl)
      rw [phase] at calling
      have idle := CallPhase.index?_eq_none.mp calling
      refine ⟨.proceed, rfl, ?_⟩
      simp only [NitroState.step, NitroState.proceed, phase, found, NitroState.verifyMessage]
      split
      · rfl
      · split
        · split
          · rfl
          · split
            · rfl
            · simp only [FetcherState.callStep, idle]
              split <;> rfl
        · split <;> rfl
  | fetching tick pos feedMsg =>
      obtain ⟨held, found⟩ := held (by rw [phase]; rfl)
      rw [phase] at calling
      by_cases returned : ∃ index result, state.fetcher.call = .returned index result
      · obtain ⟨index, result, returned⟩ := returned
        refine ⟨.proceed, rfl, ?_⟩
        simp only [NitroState.step, NitroState.proceed, phase, found, returned]
        cases result <;> rfl
      · have moves (label : CallLabel)
            (kind : (∃ events fails, label = .recheck events fails) ∨ label = .rewind ∨
              ∃ header, label = .finality header)
            (moved : (state.fetcher.callStep config.fetcher label).isSome) :
            ∃ label, label.isOwn = true ∧ (state.step config label).isSome := by
          refine ⟨.fetcherCall label, rfl, ?_⟩
          rcases kind with ⟨events, fails, rfl⟩ | rfl | ⟨header, rfl⟩ <;>
            simpa only [NitroState.step, phase, Option.isSome_map] using moved
        rcases exists_callStep calling fun index result same => returned ⟨index, result, same⟩ with
          recheck | rewind | finality
        · exact moves _ (.inl ⟨_, _, rfl⟩) recheck
        · exact moves _ (.inr (.inl rfl)) rewind
        · exact moves _ (.inr (.inr ⟨_, rfl⟩)) finality
  | advancing tick pos feedMsg =>
      obtain ⟨held, found⟩ := held (by rw [phase]; rfl)
      exact ⟨.proceed, rfl, by simp only [NitroState.step, NitroState.proceed, phase, found]; rfl⟩
  | advancingFetcher tick messageIndex =>
      rw [phase] at calling
      have idle := CallPhase.index?_eq_none.mp calling
      refine ⟨.proceed, rfl, ?_⟩
      simp only [NitroState.step, NitroState.proceed, phase, FetcherState.callStep, idle]
      rfl

/-! ### Messages that will pass -/

/-- The first position whose comparison is still to come. -/
def NitroState.frontier (state : NitroState) : Nat :=
  match state.phase with
  | .advancing _ _ _ => state.streamer.cursor + 1
  | _ => state.streamer.cursor

-- What `GetDelayedMessage` answers, and the position to be reached.
variable (config) (parent : ParentState) (target : Nat)

/-- Streamer and feed client have a message for the position, and the two pass. -/
def ReadyAt (state : NitroState) (pos : Nat) : Prop :=
  ∃ held feedMsg, state.streamer.buffer.get pos = some held ∧
    state.feed.getMessage pos = some feedMsg ∧
    (verifyMessage config parent held feedMsg.message).2 = .verified

/-- The call of `GetDelayedMessage` that the verifier waits for is the one its message needs. -/
def NitroState.Asking (state : NitroState) : Prop :=
  match state.phase with
  | .fetching _ pos feedMsg => ∃ held index, state.streamer.buffer.get pos = some held ∧
      consulted held feedMsg.message = some index ∧ state.fetcher.call.index? = some index
  | _ => True

/-- The phases between the start of a tick and the end of its drain. -/
def NitroPhase.InDrain : NitroPhase → Prop
  | .drained _ | .advancingTo _ _ | .advancingFeedTo _ _ | .synced _ | .panicked => False
  | _ => True

/-- The drain has not reached the target and everything it needs is there. -/
structure Pursuing (state : NitroState) : Prop where
  ready : ∀ pos, state.frontier ≤ pos → pos ≤ target → ReadyAt config parent state pos
  asking : state.Asking
  drain : state.phase.InDrain

/-- A call that has returned, returned what `parent` says. -/
def CallPhase.AnsweredBy : CallPhase → Prop
  | .returned index result => result = parent index
  | _ => True

instance : ∀ call : CallPhase, Decidable (call.AnsweredBy parent)
  | .returned index result => inferInstanceAs (Decidable (result = parent index))
  | .idle | .lookedUp _ _ _ | .rewinding _ _ | .checked _ _ => isTrue trivial

/-- Nothing is cancelled, and up to the target the calls of `GetDelayedMessage` return what
`parent` says. -/
def Answered (state : NitroState) (label : NitroLabel) : Prop :=
  Uncancelled state label ∧ (label = .proceed → state.streamer.cursor ≤ target →
    state.fetcher.call.AnsweredBy parent)

instance (state : NitroState) (label : NitroLabel) :
    Decidable (Answered parent target state label) :=
  inferInstanceAs (Decidable (_ ∧ _))

/-- The steps left in a call of `GetDelayedMessage`. -/
def CallPhase.stepsLeft : CallPhase → Nat
  | .idle => 0
  | .returned _ _ => 1
  | .rewinding _ _ | .checked _ _ => 2
  | .lookedUp _ _ _ => 3

/-- How far the drain is from the target, in steps of the verifier. -/
def NitroState.distance (state : NitroState) : Nat :=
  10 * (target + 1 - state.streamer.cursor) +
    match state.phase with
    | .advancingFeed _ _ => 12
    | .idle | .advancingFetcher _ _ => 11
    | .draining _ => 10
    | .peeked _ _ => 9
    | .verifying _ _ _ => 8
    | .fetching _ _ _ => 4 + state.fetcher.call.stepsLeft
    | _ => 4

variable {config parent target}

/-- A position stays ready while its object and its feed message stay. -/
theorem ReadyAt.kept {before after : NitroState} {pos : Nat}
    (ready : ReadyAt config parent before pos)
    (object : ∀ held, before.streamer.buffer.get pos = some held →
      after.streamer.buffer.get pos = some held)
    (cached : ∀ feedMsg, before.feed.getMessage pos = some feedMsg →
      after.feed.getMessage pos = some feedMsg) : ReadyAt config parent after pos := by
  obtain ⟨held, feedMsg, present, received, verified⟩ := ready
  exact ⟨held, feedMsg, object held present, cached feedMsg received, verified⟩

/-- Whether an attempt passes depends only on the answer it asks for. -/
theorem verifyMessage_congr {held : Buffered} {feedMsg : MessageWithMetadata} {index : Nat}
    (asked : consulted held feedMsg = some index) {other : ParentState}
    (same : other index = parent index) :
    verifyMessage config other held feedMsg = verifyMessage config parent held feedMsg := by
  rw [verifyMessage_of_consulted asked, verifyMessage_of_consulted asked, same]

/-- The lookup that a delayed message needs is made. -/
theorem proceed_lookup {before after : NitroState} {tick : Tick} {pos index : Nat}
    {feedMsg : BroadcastFeedMessage} {held : Buffered}
    (phase : before.phase = .verifying tick pos feedMsg)
    (present : before.streamer.buffer.get pos = some held)
    (asked : consulted held feedMsg.message = some index)
    (transition : before.proceed config = some after) :
    after.Asking ∧ after.phase.InDrain := by
  have consulting := asked
  unfold consulted at asked
  split at asked
  · cases asked
  · rename_i incoming message
    split at asked
    · rename_i conditions
      obtain ⟨empty, same, nonzero⟩ := conditions
      obtain rfl := Option.some.inj asked
      simp only [NitroState.proceed, phase, present, NitroState.verifyMessage, message,
        if_pos empty, if_neg (not_not.mpr same), if_neg nonzero, Option.map_eq_some_iff]
        at transition
      obtain ⟨fetcher, moved, rfl⟩ := transition
      simp only [NitroState.Asking]
      exact ⟨⟨held, _, present, consulting, index_of_lookup moved⟩, trivial⟩
    · cases asked

/-- The drain does not stop before the target. -/
theorem Pursuing.proceed {before after : NitroState}
    (pursuing : Pursuing config parent target before) (located : before.Located)
    (behind : before.streamer.cursor ≤ target)
    (answered : Answered parent target before .proceed)
    (transition : before.proceed config = some after) :
    after.Asking ∧ after.phase.InDrain := by
  obtain ⟨ready, asking, drain⟩ := pursuing
  have next (atCursor : before.frontier = before.streamer.cursor) :
      ReadyAt config parent before before.streamer.cursor :=
    ready _ (Nat.le_of_eq atCursor) behind
  cases phase : before.phase with
  | idle | advancingFeed =>
      simp only [NitroState.proceed, phase, Option.some.injEq] at transition
      exact transition ▸ ⟨trivial, trivial⟩
  | draining tick =>
      obtain ⟨held, -, present, -⟩ := next (by rw [NitroState.frontier, phase])
      have peek : before.streamer.peek = some held := present
      simp only [NitroState.proceed, phase, peek, Option.some.injEq] at transition
      exact transition ▸ ⟨trivial, trivial⟩
  | peeked tick pos =>
      obtain ⟨-, feedMsg, -, received, -⟩ := next (by rw [NitroState.frontier, phase])
      simp only [NitroState.Located, phase] at located
      rw [← located] at received
      simp only [NitroState.proceed, phase, received, Option.some.injEq] at transition
      exact transition ▸ ⟨trivial, trivial⟩
  | verifying tick pos feedMsg =>
      obtain ⟨held, other, present, found, verified⟩ := next (by rw [NitroState.frontier, phase])
      simp only [NitroState.Located, phase] at located
      obtain ⟨same, received⟩ := located
      rw [← same] at present found
      obtain rfl : feedMsg = other := Option.some.inj (received.symm.trans found)
      cases asked : consulted held feedMsg.message with
      | none =>
          have result := @proceed_verifying config parent held before after tick pos feedMsg
            phase present asked transition
          rw [verified] at result
          exact result ▸ ⟨trivial, trivial⟩
      | some index => exact proceed_lookup phase present asked transition
  | fetching tick pos feedMsg =>
      obtain ⟨held, other, present, found, verified⟩ := next (by rw [NitroState.frontier, phase])
      simp only [NitroState.Located, phase] at located
      obtain ⟨same, received⟩ := located
      rw [← same] at present found
      obtain rfl : feedMsg = other := Option.some.inj (received.symm.trans found)
      simp only [NitroState.Asking, phase] at asking
      obtain ⟨object, index, held', asked, calling⟩ := asking
      obtain rfl : held = object := Option.some.inj (present.symm.trans held')
      cases call : before.fetcher.call with
      | returned messageIndex result =>
          rw [call] at calling
          obtain rfl : messageIndex = index := Option.some.inj calling
          have answer : result = parent messageIndex := by
            have answer := answered.2 rfl behind
            rwa [call] at answer
          obtain ⟨-, fetched, after'⟩ := proceed_fetching phase present asked call transition
          rw [verifyMessage_congr asked answer, verified] at after'
          simp only [NitroState.Asking, after', VerifyMessageResult.phaseAfter]
          exact ⟨trivial, trivial⟩
      | idle | lookedUp | rewinding | checked =>
          simp [NitroState.proceed, phase, present, call] at transition
  | advancing tick pos feedMsg =>
      simp only [NitroState.proceed, phase] at transition
      split at transition
      · cases transition
      · exact Option.some.inj transition ▸ ⟨trivial, trivial⟩
  | advancingFetcher tick messageIndex =>
      simp only [NitroState.proceed, phase, Option.map_eq_some_iff] at transition
      obtain ⟨fetcher, -, rfl⟩ := transition
      exact ⟨trivial, trivial⟩
  | drained | advancingTo | advancingFeedTo | synced | panicked =>
      rw [phase] at drain
      exact drain.elim

/-- A step of a call of `GetDelayedMessage` brings it closer to its end. -/
theorem callStep_stepsLeft {before after : FetcherState} {label : CallLabel}
    (transition : before.callStep config.fetcher label = some after)
    (notLookup : ∀ messageIndex, label ≠ .lookup messageIndex)
    (notAdvance : ∀ messageIndex, label ≠ .advance messageIndex) :
    after.call.stepsLeft < before.call.stepsLeft := by
  cases callStep_outcome transition with
  | missing | lookedUp => exact absurd rfl (notLookup _)
  | recheckFailed phase | gone phase | checked phase | unchecked phase | rewound phase
  | final phase | finished phase => simp [phase, CallPhase.stepsLeft]
  | advanced => exact absurd rfl (notAdvance _)

/-- A step of the fetcher's goroutine leaves the distance alone, and one of a call lowers it. -/
theorem distance_fetcher {before after : NitroState} {label : NitroLabel}
    (kind : (∃ pollLabel, label = .fetcherPoll pollLabel) ∨
      ∃ callLabel, label = .fetcherCall callLabel)
    (transition : before.step config label = some after) :
    after.distance target + (if label.isOwn then 1 else 0) ≤ before.distance target := by
  rcases kind with ⟨pollLabel, rfl⟩ | ⟨callLabel, rfl⟩
  · simp only [NitroState.step, Option.map_eq_some_iff] at transition
    obtain ⟨fetcher, moved, rfl⟩ := transition
    have sameCall := (pollStep_outcome moved).call_eq
    simp [NitroState.distance, NitroLabel.isOwn, sameCall]
  · have own : NitroLabel.isOwn (.fetcherCall callLabel) = true := rfl
    simp only [NitroState.step] at transition
    split at transition
    case h_4 => cases transition
    all_goals
      rename_i phase
      obtain ⟨fetcher, moved, rfl⟩ := Option.map_eq_some_iff.mp transition
      have lower := callStep_stepsLeft moved (fun _ => CallLabel.noConfusion)
        fun _ => CallLabel.noConfusion
      simp only [NitroState.distance, phase, own, if_true]
      omega

theorem Pursuing.step {before after : NitroState} {label : NitroLabel}
    (pursuing : Pursuing config parent target before) (located : before.Located)
    (follows : before.FeedFollows) (behind : before.streamer.cursor ≤ target)
    (answered : Answered parent target before label)
    (transition : before.step config label = some after) :
    Pursuing config parent target after ∧
      after.distance target + (if label.isOwn then 1 else 0) ≤ before.distance target ∧
      (after.phase = .idle → before.phase = .idle ∧ label ≠ .proceed) := by
  have outcome := nitroStep_outcome transition
  have ready := pursuing.ready
  have drain := pursuing.drain
  cases outcome with
  | found =>
      refine ⟨⟨fun pos low high => (ready pos low high).kept
        (fun held present => Streamer.get_find_of_some present _) fun _ => id, ?_, drain⟩,
        Nat.le_refl _, fun idle => ⟨idle, NitroLabel.noConfusion⟩⟩
      have asking := pursuing.asking
      unfold NitroState.Asking at asking ⊢
      simp only
      split at asking
      · obtain ⟨held, index, present, rest⟩ := asking
        exact ⟨held, index, Streamer.get_find_of_some present _, rest⟩
      · trivial
  | broadcast =>
      exact ⟨⟨fun pos low high => (ready pos low high).kept (fun _ => id)
        fun feedMsg received => FeedClient.getMessage_readMessages_of_some received _,
        pursuing.asking, drain⟩, Nat.le_refl _, fun idle => ⟨idle, NitroLabel.noConfusion⟩⟩
  | finalityPoll =>
      exact ⟨⟨fun pos low high => (ready pos low high).kept (fun _ => id) fun _ => id,
        pursuing.asking, drain⟩, Nat.le_refl _, fun idle => ⟨idle, NitroLabel.noConfusion⟩⟩
  | fetcher kind sameIndex =>
      refine ⟨⟨fun pos low high => (ready pos low high).kept (fun _ => id) fun _ => id, ?_,
        drain⟩, distance_fetcher kind transition, fun idle => ⟨idle, ?_⟩⟩
      · have asking := pursuing.asking
        unfold NitroState.Asking at asking ⊢
        simp only [sameIndex]
        exact asking
      · rcases kind with ⟨_, rfl⟩ | ⟨_, rfl⟩ <;> exact NitroLabel.noConfusion
  | cancelled => exact answered.1.elim
  | notAhead phase | syncFailed phase | syncStored phase | nothingVerified phase
  | finishFailed phase | finishStored phase | notGreater phase | advancedTo phase
  | advancedFeedTo phase =>
      rw [phase] at drain
      exact drain.elim
  | noMessage | noFeedMessage | panicked | rejected | fetchFailed | fetchedMismatch =>
      exact (pursuing.proceed located behind answered transition).2.elim
  | begin phase | peeked phase | feedMessage phase | advancedFetcher phase =>
      obtain ⟨asking, still⟩ := pursuing.proceed located behind answered transition
      simp only [NitroState.frontier, phase] at ready
      exact ⟨⟨fun pos low high => (ready pos low high).kept (fun _ => id) fun _ => id, asking,
        still⟩, by simp [NitroState.distance, phase, NitroLabel.isOwn], NitroPhase.noConfusion⟩
  | matched phase =>
      obtain ⟨asking, still⟩ := pursuing.proceed located behind answered transition
      simp only [NitroState.frontier, phase] at ready
      exact ⟨⟨fun pos low high => (ready pos (Nat.le_of_succ_le low) high).kept (fun _ => id)
        fun _ => id, asking, still⟩, by simp [NitroState.distance, phase, NitroLabel.isOwn],
        NitroPhase.noConfusion⟩
  | @lookup _ _ _ _ _ fetcher phase =>
      obtain ⟨asking, still⟩ := pursuing.proceed located behind answered transition
      simp only [NitroState.frontier, phase] at ready
      have bounded : fetcher.call.stepsLeft ≤ 3 := by
        cases fetcher.call <;> simp [CallPhase.stepsLeft]
      refine ⟨⟨fun pos low high => (ready pos low high).kept (fun _ => id) fun _ => id, asking,
        still⟩, ?_, NitroPhase.noConfusion⟩
      simp only [NitroState.distance, phase, NitroLabel.isOwn, if_true]
      omega
  | @fetchedMatch tick pos feedMsg held messageIndex data phase present index =>
      obtain ⟨asking, still⟩ := pursuing.proceed located behind answered transition
      simp only [NitroState.frontier, phase] at ready
      simp only [NitroState.Located, phase] at located
      have calling : 1 ≤ before.fetcher.call.stepsLeft := by
        cases call : before.fetcher.call with
        | idle =>
            rw [call] at index
            cases index
        | lookedUp | rewinding | checked | returned => simp [CallPhase.stepsLeft]
      refine ⟨⟨fun other low high => (ready other (Nat.le_of_succ_le low) high).kept
        (fun object found => ?_) fun _ => id, asking, still⟩, ?_, NitroPhase.noConfusion⟩
      · have later : other ≠ pos := by
          have above : before.streamer.cursor + 1 ≤ other := low
          omega
        rw [Streamer.get_writeL2msg present, if_neg later, found]
      · simp only [NitroState.distance, phase, NitroLabel.isOwn, if_true, Streamer.writeL2msg]
        omega
  | advanced phase =>
      obtain ⟨asking, still⟩ := pursuing.proceed located behind answered transition
      simp only [NitroState.frontier, phase] at ready
      refine ⟨⟨fun pos low high => (ready pos low high).kept (fun _ => id) fun _ => id, asking,
        still⟩, ?_, NitroPhase.noConfusion⟩
      simp only [NitroState.distance, phase, NitroLabel.isOwn, if_true, Streamer.advance]
      omega
  | advancedFeed phase =>
      obtain ⟨asking, still⟩ := pursuing.proceed located behind answered transition
      simp only [NitroState.frontier, phase] at ready
      simp only [NitroState.FeedFollows, phase] at follows
      refine ⟨⟨fun pos low high => (ready pos low high).kept (fun _ => id)
        fun feedMsg received => ?_, asking, still⟩,
        by simp [NitroState.distance, phase, NitroLabel.isOwn], NitroPhase.noConfusion⟩
      have above : before.streamer.cursor ≤ pos := low
      rw [FeedClient.getMessage_advance, if_neg (by omega), received]

/-- From every state between two ticks of an uncancelled run: if streamer and feed client have
messages up to the target and they pass, then, with every interleaving of what is found,
received and polled meanwhile, the verifier can always take a step or has panicked on a later
message; after a bounded number of its steps its cursor is past the target; and when a tick
has ended without a failed write, the target is stored. -/
theorem nitro_ticks_catch_up {store : EspressoState} {file : StateFile} {finalizedBlock : Nat}
    {labels more : List NitroLabel} {before after : NitroState} (moves : MovesToTarget config)
    (room : store.l2BlockNumber + 1 < 2 ^ 64)
    (run : (nitroMachine config).Runs Uncancelled (.initial store file finalizedBlock) labels
      before) (idle : before.phase = .idle)
    (ready : ∀ pos, before.streamer.cursor ≤ pos → pos ≤ target →
      ReadyAt config parent before pos)
    (tick : (nitroMachine config).Runs (Answered parent target) before more after) :
    (after.phase = .panicked ∧ target < after.streamer.cursor ∨
      ∃ label, label.isOwn = true ∧ ((nitroMachine config).step after label).isSome) ∧
    (10 * (target + 1 - before.streamer.cursor) + 11 ≤ more.countP NitroLabel.isOwn →
      target < after.streamer.cursor) ∧
    (.proceed ∈ more → after.phase = .idle → after.writeFailed = false →
      target ≤ after.number) := by
  have whole {taken : List NitroLabel} {state : NitroState}
      (further : (nitroMachine config).Runs (Answered parent target) before taken state) :
      (nitroMachine config).Runs Uncancelled (.initial store file finalizedBlock)
        (labels ++ taken) state :=
    run.trans (further.weaken And.left)
  have forward : MovesForward config := fun cursor pos => by
    rw [moves]
    exact Nat.le_max_left _ _
  have pursued : target < after.streamer.cursor ∨
      Pursuing config parent target after ∧
      more.countP NitroLabel.isOwn + after.distance target ≤ before.distance target ∧
      (after.phase = .idle → .proceed ∉ more) := by
    refine tick.invariantAlong
      (P := fun taken state => target < state.streamer.cursor ∨
        Pursuing config parent target state ∧
        taken.countP NitroLabel.isOwn + state.distance target ≤ before.distance target ∧
        (state.phase = .idle → .proceed ∉ taken)) (.inr ⟨⟨?_, ?_, ?_⟩, ?_, ?_⟩) ?_
    · simpa only [NitroState.frontier, idle] using ready
    · simp only [NitroState.Asking, idle]
    · simp only [idle, NitroPhase.InDrain]
    · simp
    · simp
    · intro taken state label next prior pursued answered transition
      have safe := cursorRun_of_runs moves room (whole prior)
      have onward := (nitroStep_outcome transition).cursor_le forward
      rcases pursued with reached | ⟨pursuing, bounded, notStarted⟩
      · exact .inl (Nat.lt_of_lt_of_le reached onward)
      · rcases Nat.lt_or_ge target state.streamer.cursor with reached | behind
        · exact .inl (Nat.lt_of_lt_of_le reached onward)
        · obtain ⟨still, lower, started⟩ := pursuing.step safe.located safe.feed.follows behind
            answered transition
          refine .inr ⟨still, ?_, fun idle member => ?_⟩
          · rw [List.countP_append, List.countP_singleton]
            omega
          · obtain ⟨wasIdle, other⟩ := started idle
            rcases List.mem_append.mp member with earlier | last
            · exact notStarted wasIdle earlier
            · exact other (List.mem_singleton.mp last).symm
  have total := whole tick
  refine ⟨?_, fun enough => ?_, fun started ended noFailure => ?_⟩
  · by_cases panicked : after.phase = .panicked
    · refine .inl ⟨panicked, pursued.resolve_right fun ⟨pursuing, _⟩ => ?_⟩
      have drain := pursuing.drain
      rw [panicked] at drain
      exact drain
    · exact .inr ((operable_of_runs total).exists_own panicked)
  · rcases pursued with reached | ⟨-, bounded, -⟩
    · exact reached
    · have start : before.distance target =
          10 * (target + 1 - before.streamer.cursor) + 11 := by
        simp only [NitroState.distance, idle]
      have left : 4 ≤ after.distance target := by
        simp only [NitroState.distance]
        split <;> omega
      omega
  · have reached := pursued.resolve_right fun ⟨_, _, notStarted⟩ => notStarted ended started
    have position := (cursorRun_of_runs moves room total).streamer noFailure
    simp only [NitroState.StreamerAt, ended] at position
    have number : after.streamer.cursor = after.number + 1 := position
    omega

/-- The parent chain has the data of the delayed message 1. -/
def sampleParent : ParentState := fun index =>
  if index = 1 then .ok [8] else .error (.delayedMessageNotFound index 0)

/-- The messages 5 and 6 have been found and received, and the fetcher has the data that
message 6 stands for; one tick stores 6. -/
theorem nitro_ticks_catch_up_past_delayed_message :
    ∃ before after,
      (nitroMachine sampleNitroConfig).Runs Uncancelled (.startedOn ⟨4, 20, 1⟩)
        (sampleTick.take 10) before ∧
      (nitroMachine sampleNitroConfig).Runs (Answered sampleParent 6) before
        (sampleTick.drop 10 ++ [.finish 2 true]) after ∧
      before.number = 4 ∧ 6 ≤ after.number := by
  obtain ⟨before, after, computed, served, cursor, idle, number, five, six, ended, noFailure⟩ :
      ∃ before after,
        (nitroMachine sampleNitroConfig).exec Uncancelled (.startedOn ⟨4, 20, 1⟩)
          (sampleTick.take 10) = some before ∧
        (nitroMachine sampleNitroConfig).exec (Answered sampleParent 6) before
          (sampleTick.drop 10 ++ [.finish 2 true]) = some after ∧
        before.streamer.cursor = 5 ∧ before.phase = .idle ∧ before.number = 4 ∧
        ReadyAt sampleNitroConfig sampleParent before 5 ∧
        ReadyAt sampleNitroConfig sampleParent before 6 ∧
        after.phase = .idle ∧ after.writeFailed = false :=
    ⟨_, _, rfl, rfl, rfl, rfl, rfl, ⟨_, _, rfl, rfl, rfl⟩, ⟨_, _, rfl, rfl, rfl⟩, rfl, rfl⟩
  have run := Machine.Runs.ofExec computed
  have tick := Machine.Runs.ofExec served
  have ready : ∀ pos, before.streamer.cursor ≤ pos → pos ≤ 6 →
      ReadyAt sampleNitroConfig sampleParent before pos := by
    intro pos low high
    obtain rfl | rfl : pos = 5 ∨ pos = 6 := by omega
    · exact five
    · exact six
  have caughtUp := nitro_ticks_catch_up (fun _ _ => rfl) (by simp) run idle ready tick
  exact ⟨before, after, run, tick, number, caughtUp.2.2 (by decide) ended noFailure⟩

end EspressoProxy.Verifier.Nitro
