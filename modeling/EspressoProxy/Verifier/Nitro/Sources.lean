import EspressoProxy.Verifier.Nitro.Authenticity
import EspressoProxy.Verifier.Nitro.Safety

/-!
# What the verifier compares with

The objects of the streamer were found on HotShot, and the data that was fetched for delayed
messages was announced and confirmed by the Bridge. The second is a fact about the fetcher
alone. A run of the verifier is one of its fetcher, once the steps that call it are taken for
the calls they make.
-/

namespace EspressoProxy.Verifier.Nitro

open EspressoProxy.Ethereum EspressoProxy.Semantics EspressoProxy.Store

variable {config : NitroConfig}

/-! ### The fetcher of the verifier -/

/-- Only a poll of the verifier's run is a poll to its fetcher, and only a re-check is a
re-check. -/
theorem fetcherAction_origin {state : NitroState} {label : NitroLabel} {action : FetcherLabel}
    (found : fetcherAction state label = some action) :
    (∀ pollLabel, action = .poll pollLabel → label = .fetcherPoll pollLabel) ∧
      ∀ events iterationFails, action = .call (.recheck events iterationFails) →
        label = .fetcherCall (.recheck events iterationFails) := by
  cases label with
  | fetcherPoll | fetcherCall =>
      cases found
      exact ⟨by rintro _ ⟨⟩ <;> rfl, by rintro _ _ ⟨⟩ <;> rfl⟩
  | proceed =>
      simp only [fetcherAction] at found
      split at found
      · obtain ⟨held, -, called⟩ := Option.bind_eq_some_iff.mp found
        unfold lookupOf at called
        split at called
        · cases called
        · split_ifs at called
          cases called
          exact ⟨fun _ => FetcherLabel.noConfusion, fun _ _ same =>
            CallLabel.noConfusion (FetcherLabel.call.inj same)⟩
      · cases found
        exact ⟨fun _ => FetcherLabel.noConfusion, fun _ _ same =>
          CallLabel.noConfusion (FetcherLabel.call.inj same)⟩
      · cases found
        exact ⟨fun _ => FetcherLabel.noConfusion, fun _ _ same =>
          CallLabel.noConfusion (FetcherLabel.call.inj same)⟩
      · cases found
  | found | broadcast | finalityPoll | cancel | sync | finish => cases found

/-- The Bridge announces indexes that are 64-bit numbers. -/
def BridgeBounded : NitroLabel → Prop
  | .fetcherPoll (.bridge (some events)) => ∀ event ∈ events, event.messageIndex < 2 ^ 64
  | _ => True

instance : ∀ label, Decidable (BridgeBounded label)
  | .fetcherPoll (.bridge (some events)) =>
      inferInstanceAs (Decidable (∀ event ∈ events, event.messageIndex < 2 ^ 64))
  | .fetcherPoll (.bridge none) | .fetcherPoll (.latest _) | .fetcherPoll (.finalized _)
  | .fetcherPoll .start | .fetcherPoll (.inbox _) | .fetcherPoll (.extract _)
  | .fetcherPoll .update | .found _ | .broadcast _ | .finalityPoll _ | .proceed
  | .fetcherCall _ | .cancel | .sync _ _ _ | .finish _ _ => isTrue trivial

/-- Polled block numbers can be increased, and announced indexes are bounded. -/
def AnswersBounded (state : NitroState) (label : NitroLabel) : Prop :=
  FinalityBounded state label ∧ BridgeBounded label

theorem AnswersBounded.indexesBounded {state : NitroState} {label : NitroLabel}
    {action : FetcherLabel} (bounded : AnswersBounded state label)
    (found : fetcherAction state label = some action) : IndexesBounded state.fetcher action := by
  have origin := (fetcherAction_origin found).1
  unfold IndexesBounded
  split
  · obtain ⟨-, announced⟩ := bounded
    rw [origin _ rfl] at announced
    exact announced
  · trivial

/-- The run of the fetcher in a run of the verifier. -/
theorem fetcher_runs {store : EspressoState} {file : StateFile} {finalizedBlock : Nat}
    {labels : List NitroLabel} {state : NitroState}
    (run : (nitroMachine config).Runs AnswersBounded (.initial store file finalizedBlock) labels
      state) :
    (fetcherMachine config.fetcher).Runs IndexesBounded (.initial finalizedBlock)
      ((nitroMachine config).observe fetcherAction (.initial store file finalizedBlock) labels)
      state.fetcher := by
  refine run.observed NitroState.fetcher fetcherAction ?_ ?_
  · intro before label after transition unseen
    have moves : FetcherMoves config before after _ := nitroStep_moves transition
    rw [unseen] at moves
    exact moves
  · intro before label after action bounded transition found
    have moves : FetcherMoves config before after _ := nitroStep_moves transition
    rw [found] at moves
    exact ⟨bounded.indexesBounded found, moves⟩

/-! ### The data of delayed messages -/

/-- The Bridge announced the data for the index to a poll, and confirmed it to the query of a
call. -/
def AnnouncedOnBridge (config : NitroConfig) (labels : List NitroLabel) (messageIndex : Nat)
    (data : Bytes) : Prop :=
  (∃ events, .fetcherPoll (.bridge (some events)) ∈ labels ∧ ∃ event ∈ events,
    event.messageIndex = messageIndex ∧
      event.messageDataHash = config.fetcher.keccak256 data) ∧
  ∃ events iterationFails, .fetcherCall (.recheck (some events) iterationFails) ∈ labels ∧
    ∃ event ∈ events, event.messageDataHash = config.fetcher.keccak256 data

theorem AnnouncedOnBridge.later {labels : List NitroLabel} {messageIndex : Nat} {data : Bytes}
    (announced : AnnouncedOnBridge config labels messageIndex data) (label : NitroLabel) :
    AnnouncedOnBridge config (labels ++ [label]) messageIndex data := by
  obtain ⟨⟨events, polled, event⟩, ⟨answers, fails, asked, answer⟩⟩ := announced
  exact ⟨⟨events, List.mem_append_left _ polled, event⟩, answers, fails,
    List.mem_append_left _ asked, answer⟩

/-- A poll that stored a message asked the Bridge earlier in the run. -/
theorem StoredByPoll.mem {config : FetcherConfig} {finalizedBlock : Nat}
    {labels : List FetcherLabel} {message : DelayedMessage}
    {events : List BridgeMessageDelivered}
    (stored : StoredByPoll config finalizedBlock labels message events) :
    .poll (.bridge (some events)) ∈ labels := by
  obtain ⟨taken, _, _, _, rest, rfl, -, answered, -⟩ := stored.occurred
  obtain ⟨earlier, _, _, _, more, rfl, -, rfl⟩ := answered.occurred
  simp

/-- Data that `GetDelayedMessage` is about to return. -/
theorem announced_of_returned {store : EspressoState} {file : StateFile} {finalizedBlock : Nat}
    {labels : List NitroLabel} {state : NitroState} {messageIndex : Nat} {data : Bytes}
    (run : (nitroMachine config).Runs AnswersBounded (.initial store file finalizedBlock) labels
      state)
    (returned : state.fetcher.call = .returned messageIndex (.ok data)) :
    AnnouncedOnBridge config labels messageIndex data := by
  have confirmed := (authentic_of_runs (fetcher_runs run)).call
  rw [returned] at confirmed
  obtain ⟨message, rfl, found, events, asked, event⟩ := confirmed
  constructor
  · obtain ⟨taken, before, _, _, rest, split, prior, -, present⟩ := found.occurred
    obtain ⟨answers, stored, announced, member, index, hash⟩ :=
      (authentic_of_runs prior).entries present
    have key := DelayedMessageCache.messageIndex_of_get present
    have polled : .poll (.bridge (some answers)) ∈ (nitroMachine config).observe fetcherAction
        (.initial store file finalizedBlock) labels := by
      rw [split]
      exact List.mem_append_left _ stored.mem
    obtain ⟨_, label, inRun, seen⟩ := Machine.mem_of_mem_observe polled
    exact ⟨answers, (fetcherAction_origin seen).1 _ rfl ▸ inRun, announced, member,
      index.trans key, hash⟩
  · obtain ⟨taken, before, _, _, rest, split, -, -, fails, rfl⟩ := asked.occurred
    have rechecked : .call (.recheck (some events) fails) ∈
        (nitroMachine config).observe fetcherAction (.initial store file finalizedBlock)
          labels := by
      rw [split]
      simp
    obtain ⟨_, label, inRun, seen⟩ := Machine.mem_of_mem_observe rechecked
    exact ⟨events, fails, (fetcherAction_origin seen).2 _ _ rfl ▸ inRun, event⟩

/-- Every message the streamer holds was found, and all that was fetched was announced. -/
structure Sourced (config : NitroConfig) (labels : List NitroLabel) (state : NitroState) :
    Prop where
  found : ∀ {pos held}, state.streamer.buffer.get pos = some held →
    .found held.delivered ∈ labels
  fetched : ∀ tick, state.phase.tick? = some tick → ∀ entry ∈ tick.fetched,
    AnnouncedOnBridge config labels entry.1 entry.2

theorem Sourced.found_step {labels : List NitroLabel} {before after : NitroState}
    {label : NitroLabel} (sourced : Sourced config labels before)
    (outcome : NitroOutcome config before label after) {pos : Nat} {held : Buffered}
    (present : after.streamer.buffer.get pos = some held) :
    .found held.delivered ∈ labels ++ [label] := by
  cases outcome with
  | found =>
      rcases Streamer.get_find present with old | ⟨-, rfl⟩
      · exact List.mem_append_left _ (sourced.found old)
      · exact List.mem_append_right _ (List.mem_singleton_self _)
  | fetchedMismatch phase target | fetchedMatch phase target =>
      have written := (Streamer.get_writeL2msg target _ pos).symm.trans present
      split at written
      · cases written
        exact List.mem_append_left _ (sourced.found target :)
      · exact List.mem_append_left _ (sourced.found written)
  | _ => exact List.mem_append_left _ (sourced.found present)

theorem sourced_of_runs {store : EspressoState} {file : StateFile} {finalizedBlock : Nat}
    {labels : List NitroLabel} {state : NitroState}
    (run : (nitroMachine config).Runs AnswersBounded (.initial store file finalizedBlock) labels
      state) : Sourced config labels state := by
  refine run.invariantAlong ⟨?_, nofun⟩ ?_
  · intro pos held found
    simp [NitroState.initial, Streamer.new] at found
  · intro taken before label after prior sourced bounded transition
    refine ⟨sourced.found_step (nitroStep_outcome transition), ?_⟩
    intro tick current entry member
    apply AnnouncedOnBridge.later
    rcases fetched_origin transition current member with ⟨earlier, same, old⟩ | returned
    · exact sourced.fetched earlier same entry old
    · exact announced_of_returned prior returned

end EspressoProxy.Verifier.Nitro
