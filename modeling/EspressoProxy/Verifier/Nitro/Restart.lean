import EspressoProxy.Verifier.Nitro.Safety

/-!
# What a restarted proxy sees

The store records a HotShot height with its number, from which a restarted proxy reads
HotShot again. At the end of a tick this is the height of the last message verified.
Messages of later positions may have been found in earlier HotShot blocks; a restart
then skips them. It does not if heights follow positions.
-/

namespace EspressoProxy.Verifier.Nitro

open EspressoProxy.Ethereum EspressoProxy.Semantics EspressoProxy.Store

variable {config : NitroConfig}

/-- The messages among those found that a streamer started at a height sees again. -/
def seenFrom (hotshotHeight : Nat) (found : List MessageWithMetadataAndPos) :
    List MessageWithMetadataAndPos :=
  found.filter fun message => hotshotHeight ≤ message.hotshotHeight

/-- Every message is found at a height that is in the order of the positions. -/
def FoundInOrder (state : NitroState) : NitroLabel → Prop
  | .found message => ∀ other ∈ state.found,
      (other.pos < message.pos → other.hotshotHeight ≤ message.hotshotHeight) ∧
      (message.pos < other.pos → message.hotshotHeight ≤ other.hotshotHeight)
  | _ => True

instance (state : NitroState) : ∀ label, Decidable (FoundInOrder state label)
  | .found message => inferInstanceAs (Decidable (∀ other ∈ state.found,
      (other.pos < message.pos → other.hotshotHeight ≤ message.hotshotHeight) ∧
      (message.pos < other.pos → message.hotshotHeight ≤ other.hotshotHeight)))
  | .broadcast _ | .finalityPoll _ | .fetcherPoll _ | .proceed | .fetcherCall _ | .cancel
  | .sync _ _ _ | .finish _ _ => isTrue trivial

/-- The objects and the messages passed were found, and heights follow positions. -/
structure HeightsFollow (state : NitroState) : Prop where
  buffered : ∀ {pos held}, state.streamer.buffer.get pos = some held →
    held.delivered ∈ state.found
  passed : ∀ tick, state.phase.tick? = some tick → ∀ passed ∈ tick.passed,
    passed.message.delivered ∈ state.found
  ordered : ∀ first ∈ state.found, ∀ second ∈ state.found, first.pos < second.pos →
    first.hotshotHeight ≤ second.hotshotHeight

theorem heightsFollow_initial (store : EspressoState) (file : StateFile) (finalizedBlock : Nat) :
    HeightsFollow (.initial store file finalizedBlock) where
  buffered := by
    intro pos held found
    simp [NitroState.initial, Streamer.new] at found
  passed := nofun
  ordered := nofun

theorem NitroOutcome.found_subset {before after : NitroState} {label : NitroLabel}
    (outcome : NitroOutcome config before label after) {message : MessageWithMetadataAndPos}
    (member : message ∈ before.found) : message ∈ after.found := by
  cases outcome with
  | found => exact List.mem_append_left _ member
  | _ => exact member

/-- The streamer holds messages that were found. -/
theorem HeightsFollow.buffered_step {before after : NitroState} {label : NitroLabel}
    (follow : HeightsFollow before) (outcome : NitroOutcome config before label after)
    {pos : Nat} {held : Buffered} (present : after.streamer.buffer.get pos = some held) :
    held.delivered ∈ after.found := by
  cases outcome with
  | found =>
      rcases Streamer.get_find present with old | ⟨-, new⟩
      · exact List.mem_append_left _ (follow.buffered old)
      · subst new
        exact List.mem_append_right _ (List.mem_singleton_self _)
  | fetchedMismatch phase target | fetchedMatch phase target =>
      have written := (Streamer.get_writeL2msg target _ pos).symm.trans present
      split at written
      · cases written
        exact (follow.buffered target :)
      · exact follow.buffered written
  | _ => exact follow.buffered present

theorem HeightsFollow.step {before after : NitroState} {label : NitroLabel}
    (follow : HeightsFollow before) (inOrder : FoundInOrder before label)
    (outcome : NitroOutcome config before label after) : HeightsFollow after := by
  refine ⟨follow.buffered_step outcome, ?_, ?_⟩
  · intro tick current passed member
    obtain ⟨earlier, same, -, old | ⟨pos, -, present, -⟩⟩ := outcome.passed_origin current member
    · exact outcome.found_subset (follow.passed earlier same passed old)
    · exact outcome.found_subset (follow.buffered present)
  · cases outcome with
    | @found message =>
        intro first inFirst second inSecond before
        rcases List.mem_append.mp inFirst with firstOld | firstNew
        · rcases List.mem_append.mp inSecond with secondOld | secondNew
          · exact follow.ordered first firstOld second secondOld before
          · cases List.mem_singleton.mp secondNew
            exact (inOrder first firstOld).1 before
        · cases List.mem_singleton.mp firstNew
          rcases List.mem_append.mp inSecond with secondOld | secondNew
          · exact (inOrder second secondOld).2 before
          · cases List.mem_singleton.mp secondNew
            exact absurd before (Nat.lt_irrefl _)
    | _ => exact follow.ordered

/-- A store update from a verified message records its position and height. -/
theorem stored_of_finish {before after : NitroState} {now : Nat} {written : Bool}
    (outcome : NitroOutcome config before (.finish now written) after)
    (changed : after.number ≠ before.number) :
    ∃ tick last, before.phase.tick? = some tick ∧ last ∈ tick.passed ∧
      after.number = last.message.delivered.pos ∧
      after.store.fallbackHotshotHeight = last.message.delivered.hotshotHeight ∧
      after.found = before.found := by
  cases outcome with
  | finishStored phase verified =>
      exact ⟨_, _, by rw [phase]; rfl, List.mem_of_getLast? verified, rfl, rfl, rfl⟩
  | nothingVerified | finishFailed | notGreater => exact absurd rfl changed
  | fetcher kind => rcases kind with ⟨_, impossible⟩ | ⟨_, impossible⟩ <;> cases impossible

/-- If messages are found at heights in the order of their positions, then after every
store update from a verified message a streamer started at the recorded height sees
every message of a later position that had been found. -/
theorem restart_sees_later_messages {store : EspressoState} {file : StateFile}
    {finalizedBlock : Nat} {labels : List NitroLabel} {before after : NitroState} {now : Nat}
    {written : Bool}
    (run : (nitroMachine config).Runs FoundInOrder (.initial store file finalizedBlock) labels
      before)
    (transition : (nitroMachine config).step before (.finish now written) = some after)
    (changed : after.number ≠ before.number) :
    ∀ message ∈ after.found, after.number < message.pos →
      message ∈ seenFrom after.store.fallbackHotshotHeight after.found := by
  have follow : HeightsFollow before :=
    run.invariant (heightsFollow_initial store file finalizedBlock)
      fun follow inOrder transition => follow.step inOrder (nitroStep_outcome transition)
  have outcome : NitroOutcome config before (.finish now written) after :=
    nitroStep_outcome transition
  obtain ⟨tick, last, current, member, position, height, sameFound⟩ :=
    stored_of_finish outcome changed
  intro message found later
  refine List.mem_filter.mpr ⟨found, decide_eq_true ?_⟩
  rw [sameFound] at found
  rw [position] at later
  rw [height]
  exact follow.ordered _ (follow.passed tick current last member) message found later

/-- A tick that verifies the messages 5 and 6 while 7 has been found in the block of 6. -/
theorem restart_sees_message_seven :
    ∃ labels before after,
      (nitroMachine sampleNitroConfig).Runs FoundInOrder (.startedOn ⟨4, 20, 1⟩) labels
        before ∧
      (nitroMachine sampleNitroConfig).step before (.finish 2 true) = some after ∧
      after.number = 6 ∧ ⟨sampleMessage 2 [7], 7, 21⟩ ∈
        seenFrom after.store.fallbackHotshotHeight after.found := by
  obtain ⟨before, after, computed, transition, old, new, found⟩ :
      ∃ before after,
        (nitroMachine sampleNitroConfig).exec FoundInOrder (.startedOn ⟨4, 20, 1⟩)
          (sampleTick ++ [.found ⟨sampleMessage 2 [7], 7, 21⟩]) = some before ∧
        (nitroMachine sampleNitroConfig).step before (.finish 2 true) = some after ∧
        before.number = 4 ∧ after.number = 6 ∧
        after.found.getLast? = some ⟨sampleMessage 2 [7], 7, 21⟩ :=
    ⟨_, _, rfl, rfl, rfl, rfl, rfl⟩
  have run := Machine.Runs.ofExec computed
  have seen := restart_sees_later_messages run transition (by rw [old, new]; decide)
  exact ⟨_, before, after, run, transition, new,
    seen _ (List.mem_of_getLast? found) (by rw [new]; decide)⟩

/-- Message 2 is found at height 5 and message 1 at height 6, and the feed has message 1
only. The tick stores number 1 with height 6, and a restarted proxy does not see
message 2. -/
theorem restart_skips_found_message :
    ∃ labels before after,
      (nitroMachine sampleNitroConfig).Reaches (.startedOn ⟨0, 1, 1⟩) labels before ∧
      (nitroMachine sampleNitroConfig).step before (.finish 2 true) = some after ∧
      after.store = ⟨1, 6, 2⟩ ∧
      ⟨sampleMessage 1 [8], 2, 5⟩ ∈ after.found ∧
      ⟨sampleMessage 1 [8], 2, 5⟩ ∉ seenFrom after.store.fallbackHotshotHeight after.found := by
  obtain ⟨before, after, computed, transition, stored, found⟩ :
      ∃ before after,
        (nitroMachine sampleNitroConfig).exec (fun _ _ => True) (.startedOn ⟨0, 1, 1⟩)
          [.found ⟨sampleMessage 1 [8], 2, 5⟩, .found ⟨sampleMessage 1 [9], 1, 6⟩,
            .broadcast ⟨1, [some ⟨1, sampleMessage 1 [9]⟩]⟩,
            .proceed, .proceed, .proceed, .proceed, .proceed, .proceed, .proceed,
            .proceed, .proceed, .sync 0 1 true] = some before ∧
        (nitroMachine sampleNitroConfig).step before (.finish 2 true) = some after ∧
        after.store = ⟨1, 6, 2⟩ ∧
        after.found.head? = some ⟨sampleMessage 1 [8], 2, 5⟩ :=
    ⟨_, _, rfl, rfl, rfl, rfl⟩
  refine ⟨_, before, after, .ofExec computed, transition, stored, List.mem_of_head? found, ?_⟩
  intro seen
  have height := of_decide_eq_true (List.mem_filter.mp seen).2
  rw [stored] at height
  exact absurd height (by decide)

end EspressoProxy.Verifier.Nitro
