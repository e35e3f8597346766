import EspressoProxy.Semantics.Tiling
import EspressoProxy.Verifier.Nitro.ScanSafety

/-!
# The ranges that the polls scan

A poll queries the logs of an inclusive range that starts at the cursor, and when it
succeeds the cursor moves to the block after the range. Without rewinds the ranges of the
polls that move the cursor tile the chain from the first cursor to the last. The limit on
the number of blocks is another matter: a poll that is at least `maxBlocksPerScan` blocks
behind scans from `startBlock` to `startBlock + maxBlocksPerScan` inclusive, one block more
than the limit.
-/

namespace EspressoProxy.Verifier.Nitro

open EspressoProxy.Semantics

variable {config : FetcherConfig}

/-- What is seen of a poll: the range that it queries, with the latest height it has read,
and that it moves the cursor past a range. -/
inductive ScanEvent where
  | queried (latest : Nat) (range : ScanRange)
  | moved (range : ScanRange)
deriving DecidableEq, Repr

/-- The event of a step of the fetcher, if there is one. -/
def scanEvent (config : FetcherConfig) (state : FetcherState) :
    FetcherLabel → Option ScanEvent
  | .poll .start =>
      match state.poll with
      | .headersKnown latest finalized =>
          (scanRange config state.parentBlockNumber latest).map fun (startBlock, endBlock) =>
            .queried latest ⟨startBlock, endBlock, finalized⟩
      | _ => none
  | .poll .update =>
      match state.poll with
      | .storing job =>
          if state.parentBlockNumber = job.range.startBlock then some (.moved job.range)
          else none
      | _ => none
  | _ => none

/-- The events of a run of the fetcher. -/
def scanEvents (config : FetcherConfig) (start : FetcherState) (labels : List FetcherLabel) :
    List ScanEvent :=
  (fetcherMachine config).observe (scanEvent config) start labels

/-- The range of an event that moves the cursor. -/
def ScanEvent.movedRange : ScanEvent → Option (Nat × Nat)
  | .queried _ _ => none
  | .moved range => some (range.startBlock, range.endBlock)

/-- The ranges of the polls that moved the cursor, in order. -/
def movedRanges (events : List ScanEvent) : List (Nat × Nat) :=
  events.filterMap ScanEvent.movedRange

theorem movedRanges_append_queried (events : List ScanEvent) (latest : Nat) (range : ScanRange) :
    movedRanges (events ++ [.queried latest range]) = movedRanges events := by
  rw [movedRanges, List.filterMap_append]
  exact List.append_nil _

theorem movedRanges_append_moved (events : List ScanEvent) (range : ScanRange) :
    movedRanges (events ++ [.moved range]) =
      movedRanges events ++ [(range.startBlock, range.endBlock)] := by
  rw [movedRanges, List.filterMap_append]
  rfl

/-- The number of blocks of an inclusive range. -/
def ScanRange.blocks (range : ScanRange) : Nat := range.endBlock + 1 - range.startBlock

/-- Nothing is rewound, and the parent chain has not reached the last block number. -/
def WithoutRewind (_state : FetcherState) : FetcherLabel → Prop
  | .call .rewind => False
  | .poll (.latest (some number)) => number < 2 ^ 64 - 1
  | _ => True

instance (state : FetcherState) (label : FetcherLabel) :
    Decidable (WithoutRewind state label) :=
  match label with
  | .call .rewind => .isFalse id
  | .poll (.latest (some number)) => inferInstanceAs (Decidable (number < 2 ^ 64 - 1))
  | .poll (.latest none) | .poll (.finalized _) | .poll .start | .poll (.bridge _)
  | .poll (.inbox _) | .poll (.extract _) | .poll .update | .call (.lookup _)
  | .call (.recheck _ _) | .call (.finality _) | .call .finish | .call (.advance _) =>
      .isTrue trivial

/-! ### One range -/

/-- What holds of a range that is queried when `latest` is the latest height: it ends at the
latest block or `maxBlocksPerScan` blocks after its start, whichever comes first, and no
number on the way leaves the words. -/
structure ScanRange.Within (limit latest : Nat) (range : ScanRange) : Prop where
  ordered : range.startBlock ≤ range.endBlock
  endBlock_eq : range.endBlock = min latest (range.startBlock + limit)
  word : range.endBlock + 1 < 2 ^ 64

theorem effectiveMaxBlocksPerScan_of_pos {maxBlocksPerScan : Nat}
    (positive : 1 ≤ maxBlocksPerScan) :
    effectiveMaxBlocksPerScan maxBlocksPerScan = maxBlocksPerScan := by
  unfold effectiveMaxBlocksPerScan
  rw [if_neg (by omega)]

theorem scanRange_within {cursor latest startBlock endBlock : Nat} (finalized : Nat)
    (positive : 1 ≤ config.maxBlocksPerScan) (bounded : latest < 2 ^ 64 - 1)
    (scanned : scanRange config cursor latest = some (startBlock, endBlock)) :
    startBlock = cursor ∧
      ScanRange.Within config.maxBlocksPerScan latest ⟨startBlock, endBlock, finalized⟩ := by
  unfold scanRange at scanned
  rw [effectiveMaxBlocksPerScan_of_pos positive] at scanned
  split at scanned
  · cases scanned
  · rename_i notAhead
    split at scanned
    · rename_i behind
      -- The end of the range is at most the latest height, so the addition does not wrap.
      rw [u64_of_lt (by omega)] at scanned
      cases scanned
      exact ⟨rfl, by dsimp only; omega, by dsimp only; omega, by dsimp only; omega⟩
    · cases scanned
      exact ⟨rfl, by dsimp only; omega, by dsimp only; omega, by dsimp only; omega⟩

/-- A range is within the limit exactly if the poll was less than the limit behind. -/
theorem ScanRange.Within.blocks_le_iff {limit latest : Nat} {range : ScanRange}
    (within : range.Within limit latest) :
    range.blocks ≤ limit ↔ latest - range.startBlock < limit := by
  have ordered := within.ordered
  have ends := within.endBlock_eq
  unfold ScanRange.blocks
  omega

/-! ### The ranges of a run -/

/-- What a poll in progress knows: heights below the last block number, and once it has
started, a range that begins at the cursor and was queried last. -/
def PollPhase.Follows (cursor : Nat) (events : List ScanEvent) : PollPhase → Prop
  | .idle => True
  | .latestKnown latest | .headersKnown latest _ => latest < 2 ^ 64 - 1
  | .scanning range | .delivered range _ | .storing ⟨range, _, _, _, _⟩ =>
      range.startBlock = cursor ∧ ∃ latest, events.getLast? = some (.queried latest range)

/-- Every move of the cursor comes right after the query of its range. -/
def MovesAfterQuery (events : List ScanEvent) : Prop :=
  ∀ earlier range later, events = earlier ++ .moved range :: later →
    ∃ latest, earlier.getLast? = some (.queried latest range)

/-- What the events of a run say about the state it has reached. -/
structure Scanned (limit first : Nat) (events : List ScanEvent) (state : FetcherState) : Prop where
  tiles : Tiles first (movedRanges events) state.parentBlockNumber
  within : ∀ latest range, .queried latest range ∈ events → range.Within limit latest
  ordered : MovesAfterQuery events
  follows : state.poll.Follows state.parentBlockNumber events

theorem MovesAfterQuery.snoc {events : List ScanEvent} {event : ScanEvent}
    (prior : MovesAfterQuery events)
    (last : ∀ range, event = .moved range →
      ∃ latest, events.getLast? = some (.queried latest range)) :
    MovesAfterQuery (events ++ [event]) := by
  intro earlier range later split
  rcases later.eq_nil_or_concat' with rfl | ⟨middle, other, rfl⟩
  · obtain ⟨rfl, same⟩ := List.append_inj' split rfl
    exact last range (List.singleton_inj.mp same)
  · rw [← List.cons_append, ← List.append_assoc] at split
    exact prior earlier range middle (List.append_inj' split rfl).1

variable {first : Nat} {events : List ScanEvent} {before after : FetcherState}

/-- A step that nothing is seen of leaves the cursor where it is. -/
theorem Scanned.quiet {limit : Nat} (prior : Scanned limit first events before)
    (cursor : after.parentBlockNumber = before.parentBlockNumber)
    (follows : after.poll.Follows before.parentBlockNumber events) :
    Scanned limit first events after :=
  ⟨cursor ▸ prior.tiles, prior.within, prior.ordered, cursor ▸ follows⟩

theorem Scanned.start (positive : 1 ≤ config.maxBlocksPerScan)
    (prior : Scanned config.maxBlocksPerScan first events before)
    (transition : before.pollStep config .start = some after) :
    Scanned config.maxBlocksPerScan first
      (events ++ (scanEvent config before (.poll .start)).toList) after := by
  cases phase : before.poll with
  | headersKnown latest finalized =>
      have bounded : latest < 2 ^ 64 - 1 := by
        have follows := prior.follows
        rwa [phase] at follows
      simp only [FetcherState.pollStep, phase] at transition
      cases scanned : scanRange config before.fetcher.parentBlockNumber latest with
      | none =>
          have unseen : scanEvent config before (.poll .start) = none := by
            simp [scanEvent, phase, FetcherState.parentBlockNumber, scanned]
          rw [scanned] at transition
          cases transition
          rw [unseen, Option.toList_none, List.append_nil]
          exact prior.quiet rfl trivial
      | some bounds =>
          obtain ⟨startBlock, endBlock⟩ := bounds
          have seen : scanEvent config before (.poll .start) =
              some (.queried latest ⟨startBlock, endBlock, finalized⟩) := by
            simp [scanEvent, phase, FetcherState.parentBlockNumber, scanned]
          obtain ⟨atCursor, within⟩ := scanRange_within finalized positive bounded scanned
          simp only [scanned, Option.some.injEq] at transition
          subst transition
          rw [seen, Option.toList_some]
          refine ⟨?_, ?_, prior.ordered.snoc (fun _ moved => by cases moved), atCursor, latest,
            by simp⟩
          · rw [movedRanges_append_queried]
            exact prior.tiles
          · intro other range member
            rcases List.mem_append.mp member with old | new
            · exact prior.within other range old
            · cases List.mem_singleton.mp new
              exact within
  | idle | latestKnown | scanning | delivered | storing =>
      simp [FetcherState.pollStep, phase] at transition

theorem Scanned.update {limit : Nat} (prior : Scanned limit first events before)
    (transition : before.pollStep config .update = some after) :
    Scanned limit first (events ++ (scanEvent config before (.poll .update)).toList) after := by
  cases pollStep_outcome transition with
  | abandoned notUpdate => exact absurd rfl notUpdate
  | @updated job phase finished =>
      obtain ⟨atCursor, latest, last⟩ : job.range.startBlock = before.parentBlockNumber ∧
          ∃ latest, events.getLast? = some (.queried latest job.range) := by
        have follows := prior.follows
        rwa [phase] at follows
      have within := prior.within latest job.range (List.mem_of_getLast? last)
      have seen : scanEvent config before (.poll .update) = some (.moved job.range) := by
        simp [scanEvent, phase, atCursor]
      obtain ⟨-, moved, -, -⟩ := parentBlockNumber_of_update phase atCursor.symm transition
      rw [seen, Option.toList_some]
      refine ⟨?_, ?_, ?_, trivial⟩
      · have tiles := atCursor ▸ prior.tiles
        rw [movedRanges_append_moved, moved, u64_of_lt within.word]
        exact tiles.snoc within.ordered
      · intro other range member
        rcases List.mem_append.mp member with old | new
        · exact prior.within other range old
        · cases List.mem_singleton.mp new
      · refine prior.ordered.snoc ?_
        rintro range ⟨⟩
        exact ⟨latest, last⟩

/-- Only the start and the end of a poll are seen. -/
theorem scanEvent_eq_none {label : FetcherLabel} (notStart : label ≠ .poll .start)
    (notUpdate : label ≠ .poll .update) : scanEvent config before label = none := by
  unfold scanEvent
  split
  · exact absurd rfl notStart
  · exact absurd rfl notUpdate
  · rfl

theorem Scanned.pollStep {label : PollLabel} (positive : 1 ≤ config.maxBlocksPerScan)
    (prior : Scanned config.maxBlocksPerScan first events before)
    (admitted : WithoutRewind before (.poll label))
    (transition : before.pollStep config label = some after) :
    Scanned config.maxBlocksPerScan first
      (events ++ (scanEvent config before (.poll label)).toList) after := by
  by_cases starts : label = .start
  · subst starts
    exact prior.start positive transition
  by_cases updates : label = .update
  · subst updates
    exact prior.update transition
  have follows := prior.follows
  rw [scanEvent_eq_none (by simpa using starts) (by simpa using updates), Option.toList_none,
    List.append_nil]
  cases pollStep_outcome transition with
  | abandoned => exact prior.quiet rfl trivial
  | latest => exact prior.quiet rfl (Nat.lt_of_le_of_lt (u64_le _) admitted)
  | finalized phase | noEvents phase | delivered phase | logged phase | stored phase =>
      rw [phase] at follows
      exact prior.quiet rfl follows
  | started => exact absurd rfl starts
  | updated => exact absurd rfl updates

theorem CallOutcome.parentBlockNumber_eq {label : CallLabel}
    (outcome : CallOutcome config before label after) (notRewind : label ≠ .rewind) :
    after.parentBlockNumber = before.parentBlockNumber := by
  cases outcome with
  | rewound => exact absurd rfl notRewind
  | missing | lookedUp | recheckFailed | gone | checked | unchecked | final | finished
  | advanced => rfl

theorem Scanned.step {label : FetcherLabel} (positive : 1 ≤ config.maxBlocksPerScan)
    (prior : Scanned config.maxBlocksPerScan first events before)
    (admitted : WithoutRewind before label)
    (transition : (fetcherMachine config).step before label = some after) :
    Scanned config.maxBlocksPerScan first
      (events ++ (scanEvent config before label).toList) after := by
  cases label with
  | poll label => exact prior.pollStep positive admitted transition
  | call label =>
      have outcome := callStep_outcome transition
      have notRewind : label ≠ .rewind := by
        rintro rfl
        exact admitted
      have unseen : scanEvent config before (.call label) = none :=
        scanEvent_eq_none FetcherLabel.noConfusion FetcherLabel.noConfusion
      rw [unseen, Option.toList_none, List.append_nil]
      exact prior.quiet (outcome.parentBlockNumber_eq notRewind)
        (outcome.poll_eq ▸ prior.follows)

theorem scanned_of_runs {start state : FetcherState} {labels : List FetcherLabel}
    (positive : 1 ≤ config.maxBlocksPerScan) (idle : start.poll = .idle)
    (run : (fetcherMachine config).Runs WithoutRewind start labels state) :
    Scanned config.maxBlocksPerScan start.parentBlockNumber (scanEvents config start labels)
      state := by
  refine run.invariantAlong (P := fun labels state =>
    Scanned config.maxBlocksPerScan start.parentBlockNumber (scanEvents config start labels)
      state) ?_ ?_
  · refine ⟨.nil, nofun, ?_, ?_⟩
    · intro earlier range later split
      simp [scanEvents, Machine.observe] at split
    · rw [idle]
      trivial
  · intro taken before label after prior scanned admitted transition
    rw [scanEvents, prior.observe_next (scanEvent config) transition]
    exact scanned.step positive admitted transition

/-- In every run of polls without rewinds, from any cursor, the ranges of the polls that
moved the cursor follow one another, have no block in common and are together the blocks
from the first cursor to the one before the last. Every range that is queried ends at the
latest height of its poll or before, at most `maxBlocksPerScan` blocks after its start, and
no addition wraps. It has at most `maxBlocksPerScan` blocks exactly if the poll was less than
that behind the chain. -/
theorem scan_ranges_tile {start state : FetcherState} {labels : List FetcherLabel}
    (positive : 1 ≤ config.maxBlocksPerScan) (idle : start.poll = .idle)
    (run : (fetcherMachine config).Runs WithoutRewind start labels state) :
    Tiles start.parentBlockNumber (movedRanges (scanEvents config start labels))
        state.parentBlockNumber ∧
      ((movedRanges (scanEvents config start labels)).Pairwise fun left right =>
        Disjoint (Set.Icc left.1 left.2) (Set.Icc right.1 right.2)) ∧
      (∀ block, (∃ range ∈ movedRanges (scanEvents config start labels),
          block ∈ Set.Icc range.1 range.2) ↔
        block ∈ Set.Ico start.parentBlockNumber state.parentBlockNumber) ∧
      MovesAfterQuery (scanEvents config start labels) ∧
      ∀ latest range, .queried latest range ∈ scanEvents config start labels →
        range.endBlock ≤ latest ∧ range.Within config.maxBlocksPerScan latest ∧
          (range.blocks ≤ config.maxBlocksPerScan ↔
            latest - range.startBlock < config.maxBlocksPerScan) := by
  have scanned := scanned_of_runs positive idle run
  refine ⟨scanned.tiles, scanned.tiles.pairwise_disjoint, scanned.tiles.covers,
    scanned.ordered, ?_⟩
  intro latest range queried
  have within := scanned.within latest range queried
  refine ⟨?_, within, within.blocks_le_iff⟩
  rw [within.endBlock_eq]
  exact Nat.min_le_left _ _

/-- A poll that finds no event. -/
def sampleQuietPoll (latest : Nat) : List FetcherLabel :=
  [.poll (.latest (some latest)), .poll (.finalized (some 0)), .poll .start,
    .poll (.bridge (some [])), .poll .update]

/-- With a limit of three blocks, a poll at height 2, a poll whose query fails and a poll at
height 4. -/
theorem scan_ranges_tile_around_failed_poll :
    ∃ labels state, (fetcherMachine { sampleConfig with maxBlocksPerScan := 3 }).Runs
        WithoutRewind (.initial 0) labels state ∧ state.parentBlockNumber = 5 ∧
      movedRanges (scanEvents { sampleConfig with maxBlocksPerScan := 3 } (.initial 0) labels) =
        [(0, 2), (3, 4)] ∧
      Tiles 0 [(0, 2), (3, 4)] 5 := by
  obtain ⟨state, computed, cursor⟩ : ∃ state,
      (fetcherMachine { sampleConfig with maxBlocksPerScan := 3 }).exec WithoutRewind
        (.initial 0) (sampleQuietPoll 2 ++ (sampleQuietPoll 4).take 3 ++
          [.poll (.bridge none)] ++ sampleQuietPoll 4) = some state ∧
      state.parentBlockNumber = 5 := ⟨_, rfl, rfl⟩
  have run := Machine.Runs.ofExec computed
  have moved := (scan_ranges_tile (by decide) rfl run).1
  rw [cursor] at moved
  exact ⟨_, state, run, cursor, rfl, moved⟩

/-- With a limit of three blocks, the first poll at height 3 queries four. -/
theorem scan_range_exceeds_limit :
    ∃ state, (fetcherMachine { sampleConfig with maxBlocksPerScan := 3 }).Runs
        WithoutRewind (.initial 0) (sampleQuietPoll 3) state ∧
      .queried 3 ⟨0, 3, 0⟩ ∈ scanEvents { sampleConfig with maxBlocksPerScan := 3 }
        (.initial 0) (sampleQuietPoll 3) ∧
      ScanRange.blocks ⟨0, 3, 0⟩ = 4 := by
  obtain ⟨state, computed⟩ : ∃ state,
      (fetcherMachine { sampleConfig with maxBlocksPerScan := 3 }).exec WithoutRewind
        (.initial 0) (sampleQuietPoll 3) = some state := ⟨_, rfl⟩
  exact ⟨state, Machine.Runs.ofExec computed, by decide, rfl⟩

end EspressoProxy.Verifier.Nitro
