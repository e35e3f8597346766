import EspressoProxy.Verifier.Nitro.Cursors

/-!
# The Nitro tag covers nothing that was not verified

A tick stores the position of the last message it passed. All positions below are
covered as well: the cursor of the streamer moves by one for a message that was
compared, and jumps only to the position after the store's, whose number then is a
finalized block. This also holds after failed writes and for cancelled ticks, where the
cursor has moved and the store has not.
-/

namespace EspressoProxy.Verifier.Nitro

open EspressoProxy.Ethereum EspressoProxy.Semantics EspressoProxy.Store

variable {config : NitroConfig}

/-- The verifier is about to pass the message of a position: it has compared the object
under the cursor with the feed message cached for the position, in this tick. -/
def NitroState.Passes (config : NitroConfig) (state : NitroState) (pos : Nat) : Prop :=
  ∃ tick feedMsg held, state.phase = .advancing tick pos feedMsg ∧
    state.feed.getMessage pos = some feedMsg ∧ state.streamer.peek = some held ∧
    held.delivered.pos = pos ∧ (Passed.mk held feedMsg).Verified config tick.fetched

/-- The position is behind the cursor or behind the number in the store. -/
def NitroState.Behind (state : NitroState) (pos : Nat) : Prop :=
  pos < state.streamer.cursor ∨ pos ≤ state.number

theorem SafeRun.passes {labels : List NitroLabel} {state : NitroState} {tick : Tick} {pos : Nat}
    {feedMsg : BroadcastFeedMessage} (safe : SafeRun config labels state)
    (phase : state.phase = .advancing tick pos feedMsg) :
    state.streamer.cursor = pos ∧ state.Passes config pos := by
  have located := safe.located
  have comparing := safe.intact.comparing
  simp only [NitroState.Located, phase] at located
  simp only [NitroState.Comparing, phase] at comparing
  obtain ⟨rfl, cached⟩ := located
  obtain ⟨held, present, verified⟩ := comparing
  exact ⟨rfl, tick, feedMsg, held, phase, cached, present, state.streamer.keyed present, verified⟩

/-- A step leaves a position behind only by passing it, or under a finalized block. -/
theorem SafeRun.behind_step {labels : List NitroLabel} {before after : NitroState}
    {label : NitroLabel} {pos : Nat} (safe : SafeRun config labels before)
    (target : MovesToTarget config) (outcome : NitroOutcome config before label after)
    (behind : after.Behind pos) :
    before.Behind pos ∨ (label = .proceed ∧ before.Passes config pos) ∨
      ∃ block, before.snapshot = some block ∧ pos ≤ block := by
  cases outcome with
  | advanced phase =>
      obtain ⟨atCursor, passes⟩ := safe.passes phase
      rcases behind with below | stored
      · change pos < before.streamer.cursor + 1 at below
        rcases Nat.lt_succ_iff_lt_or_eq.mp below with earlier | rfl
        · exact .inl (.inl earlier)
        · exact .inr (.inl ⟨rfl, atCursor ▸ passes⟩)
      · exact .inl (.inr stored)
  | @advancedTo continues next phase =>
      have moves := safe.bounds.moves
      simp only [NitroState.MovesInOrder, phase] at moves
      rcases behind with below | stored
      · have notFurther := u64_le (before.number + 1)
        simp only [Streamer.advanceTo, target _ next] at below
        rw [← moves] at notFurther
        rcases Nat.lt_or_ge pos before.streamer.cursor with earlier | reached
        · exact .inl (.inl earlier)
        · refine .inl (.inr ?_)
          omega
      · exact .inl (.inr stored)
  | syncStored _ polled =>
      rcases behind with below | stored
      · exact .inl (.inl below)
      · exact .inr (.inr ⟨_, polled, stored⟩)
  | finishStored phase verified =>
      rcases behind with below | stored
      · exact .inl (.inl below)
      · have passed := safe.bounds.passed _ (by rw [phase]; rfl) _
          (List.mem_of_getLast? verified)
        exact .inl (.inl (Nat.lt_of_le_of_lt stored passed))
  | found | broadcast | finalityPoll | fetcher | begin | noMessage | peeked | noFeedMessage
  | feedMessage | panicked | rejected | matched | lookup | fetchFailed | fetchedMismatch
  | fetchedMatch | advancedFeed | advancedFetcher | advancedFeedTo | cancelled | notAhead
  | syncFailed | nothingVerified | finishFailed | notGreater => exact .inl behind

/-- A verifier that was just created has only what its store covers behind it. -/
theorem behind_initial {store : EspressoState} {file : StateFile} {finalizedBlock pos : Nat}
    (behind : (NitroState.initial store file finalizedBlock).Behind pos) :
    pos ≤ store.l2BlockNumber := by
  rcases behind with below | stored
  · have notFurther := u64_le (store.l2BlockNumber + 1)
    exact Nat.le_of_lt_succ (Nat.lt_of_lt_of_le below notFurther)
  · exact stored

/-- The position was passed in the run that took `labels`, or a finalized block that was
polled in it is at or above it. -/
def Covered (config : NitroConfig) (start : NitroState) (labels : List NitroLabel) (pos : Nat) :
    Prop :=
  (nitroMachine config).Since FinalityBounded start
      (fun _ before label _ => label = .proceed ∧ before.Passes config pos) (fun _ => True)
      labels ∨
    ∃ block, .finalityPoll block ∈ labels ∧ pos ≤ block

theorem Covered.later {start : NitroState} {labels : List NitroLabel} {pos : Nat}
    (covered : Covered config start labels pos) (label : NitroLabel) :
    Covered config start (labels ++ [label]) pos := by
  rcases covered with passed | ⟨block, polled, below⟩
  · exact .inl (.later passed trivial)
  · exact .inr ⟨block, List.mem_append_left _ polled, below⟩

/-- In every run of the Nitro verifier, cancelled ticks and failed writes included, each
position above the one it started from that the store or the streamer's cursor has left
behind was verified against the feed on its own, or is at most a finalized block that was
polled. -/
theorem nitro_tag_covers_verified_positions {store : EspressoState} {file : StateFile}
    {finalizedBlock : Nat} {labels : List NitroLabel} {state : NitroState}
    (target : MovesToTarget config) (room : store.l2BlockNumber + 1 < 2 ^ 64)
    (run : (nitroMachine config).Runs FinalityBounded (.initial store file finalizedBlock) labels
      state) (pos : Nat) (above : store.l2BlockNumber < pos) (behind : state.Behind pos) :
    Covered config (.initial store file finalizedBlock) labels pos := by
  have forward : MovesForward config := fun cursor next => by
    rw [target]
    exact Nat.le_max_left _ _
  refine run.invariantAlong
    (P := fun labels state => state.Behind pos →
      Covered config (.initial store file finalizedBlock) labels pos) ?_ ?_ behind
  · intro behind
    exact absurd (behind_initial behind) (Nat.not_le.mpr above)
  · intro taken before label after prior inductionHypothesis bounded transition behind
    have safe := safeRun_of_runs forward room prior
    rcases safe.behind_step target (nitroStep_outcome transition) behind with
      earlier | ⟨isProceed, passes⟩ | ⟨block, polled, below⟩
    · exact (inductionHypothesis earlier).later label
    · exact .inl (.now prior bounded transition ⟨isProceed, passes⟩)
    · exact .inr ⟨block, List.mem_append_left _ (safe.polled block polled), below⟩

/-- A store at 4 moves to 6 in one tick, and position 5 below was verified too. -/
theorem nitro_tag_covers_position_below :
    ∃ state, (nitroMachine sampleNitroConfig).Runs FinalityBounded (.startedOn ⟨4, 20, 1⟩)
        (sampleTick ++ [.finish 2 true]) state ∧ state.number = 6 ∧
      Covered sampleNitroConfig (.startedOn ⟨4, 20, 1⟩) (sampleTick ++ [.finish 2 true]) 5 := by
  obtain ⟨state, computed, number⟩ : ∃ state,
      (nitroMachine sampleNitroConfig).exec FinalityBounded (.startedOn ⟨4, 20, 1⟩)
        (sampleTick ++ [.finish 2 true]) = some state ∧ state.number = 6 := ⟨_, rfl, rfl⟩
  have run := Machine.Runs.ofExec computed
  have target : MovesToTarget sampleNitroConfig := fun _ _ => rfl
  refine ⟨state, run, number, ?_⟩
  exact nitro_tag_covers_verified_positions target (by simp) run 5 (by decide)
    (.inr (by rw [number]; decide))

end EspressoProxy.Verifier.Nitro
