import EspressoProxy.Verifier.Nitro.Safety

/-!
# What a verified message evicts from the fetcher

A message that says `r` delayed messages were read has consumed the indexes below `r`. After
it is passed, `advance` hands `r - 1` to the fetcher, which drops the entries up to that
index. Nothing excludes `r = 0` for a message that carries its own data, and then the
64-bit predecessor is the largest index there is: the fetcher drops every entry.
-/

namespace EspressoProxy.Verifier.Nitro

open EspressoProxy.Ethereum EspressoProxy.Semantics EspressoProxy.Store

variable {config : NitroConfig}

/-! ### The fetcher of the verifier is a fetcher -/

/-- Every step of the verifier is a step of its fetcher or leaves the fetcher alone. -/
theorem nitroStep_fetcher {before after : NitroState} {label : NitroLabel}
    (transition : before.step config label = some after) :
    after.fetcher = before.fetcher ∨
      ∃ action, before.fetcher.step config.fetcher action = some after.fetcher := by
  have moves := nitroStep_moves transition
  cases taken : fetcherAction before label with
  | none =>
      rw [taken] at moves
      exact .inl moves
  | some action =>
      rw [taken] at moves
      exact .inr ⟨action, moves⟩

/-- The fetcher of a run of the verifier has run by itself, with some answers. -/
theorem fetcher_reaches {admits : NitroState → NitroLabel → Prop} {store : EspressoState}
    {file : StateFile} {finalizedBlock : Nat} {labels : List NitroLabel} {state : NitroState}
    (run : (nitroMachine config).Runs admits (.initial store file finalizedBlock) labels state) :
    ∃ actions, (fetcherMachine config.fetcher).Reaches (.initial finalizedBlock) actions
      state.fetcher :=
  run.project NitroState.fetcher nitroStep_fetcher

/-- Every cached index is a 64-bit number. -/
def CacheBounded (state : FetcherState) : Prop :=
  ∀ index message, state.cached index = some message → index < 2 ^ 64

theorem Log.messageIndex_lt {log : Log} {index : Nat} (found : log.messageIndex = some index) :
    index < 2 ^ 64 := by
  obtain ⟨topic, -, rfl⟩ := Option.map_eq_some_iff.mp found
  exact u64_lt _

theorem CacheBounded.step {fetcherConfig : FetcherConfig} {before after : FetcherState}
    {label : FetcherLabel} (bounded : CacheBounded before)
    (transition : before.step fetcherConfig label = some after) : CacheBounded after := by
  intro index message found
  cases label with
  | poll label =>
      cases pollStep_outcome transition with
      | stored phase next extracted =>
          have inserted := (DelayedMessageCache.get_insert _ _ _).symm.trans found
          split at inserted
          · rename_i same
            rw [same]
            exact Log.messageIndex_lt (extractInboxLog_ok extracted).1
          · exact bounded index message inserted
      | updated =>
          simp only [FetcherState.cached,
            DelayedMessageFetcher.delayedMessages_updateParentBlockNumber] at found
          exact bounded index message found
      | _ => exact bounded index message found
  | call label =>
      cases callStep_outcome transition with
      | rewound => cases (DelayedMessageCache.get_empty index).symm.trans found
      | advanced =>
          have kept := (DelayedMessageCache.get_advance _ _ _).symm.trans found
          split at kept
          · cases kept
          · exact bounded index message kept
      | _ => exact bounded index message found

theorem cacheBounded_of_runs {admits : NitroState → NitroLabel → Prop} {store : EspressoState}
    {file : StateFile} {finalizedBlock : Nat} {labels : List NitroLabel} {state : NitroState}
    (run : (nitroMachine config).Runs admits (.initial store file finalizedBlock) labels state) :
    CacheBounded state.fetcher := by
  obtain ⟨actions, reached⟩ := fetcher_reaches run
  refine reached.invariant (P := CacheBounded) ?_ fun bounded _ => bounded.step
  intro index message found
  cases (DelayedMessageCache.get_empty index).symm.trans found

/-! ### From the message to the fetcher -/

/-- What `advance` hands to the fetcher comes from the message passed last, and
`GetDelayedMessage` is called in one phase only. -/
def NitroState.HandsOver (state : NitroState) : Prop :=
  match state.phase with
  | .fetching _ _ _ => True
  | .advancingFeed tick messageIndex | .advancingFetcher tick messageIndex =>
      state.fetcher.call.index? = none ∧ ∃ last, tick.passed.getLast? = some last ∧
        messageIndex = u64Pred last.message.content.delayedMessagesRead
  | _ => state.fetcher.call.index? = none

/-- The step of `advance` that calls the fetcher. -/
theorem step_advancingFetcher {before : NitroState} {tick : Tick} {messageIndex : Nat}
    (phase : before.phase = .advancingFetcher tick messageIndex) :
    before.step config .proceed =
      (before.fetcher.callStep config.fetcher (.advance messageIndex)).map fun fetcher =>
        { before with fetcher, phase := .draining tick } := by
  simp only [NitroState.step, NitroState.proceed, phase]

theorem NitroState.HandsOver.step {before after : NitroState} {label : NitroLabel}
    (prior : before.HandsOver) (transition : before.step config label = some after) :
    after.HandsOver := by
  cases nitroStep_outcome transition with
  | found | broadcast | finalityPoll => exact prior
  | fetcher kind sameIndex =>
      unfold NitroState.HandsOver at prior ⊢
      simp only [sameIndex]
      exact prior
  | lookup => trivial
  | fetchFailed | fetchedMismatch | fetchedMatch => rfl
  | begin phase | noMessage phase | peeked phase | noFeedMessage phase | feedMessage phase
  | panicked phase | rejected phase | matched phase | notAhead phase | syncFailed phase
  | syncStored phase | nothingVerified phase | finishFailed phase | finishStored phase
  | notGreater phase | advancedTo phase =>
      simp only [NitroState.HandsOver, phase] at prior
      exact prior
  | cancelled phase =>
      rcases phase with phase | phase
      · simp only [NitroState.HandsOver, phase] at prior
        exact prior
      · simp only [NitroState.HandsOver, phase] at prior
        exact prior
  | @advanced tick pos feedMsg held phase present =>
      simp only [NitroState.HandsOver, phase] at prior
      exact ⟨prior, ⟨held, feedMsg⟩, List.getLast?_concat, rfl⟩
  | advancedFeed phase =>
      simp only [NitroState.HandsOver, phase] at prior
      exact prior
  | advancedFetcher phase =>
      simp only [NitroState.HandsOver, phase] at prior
      rw [step_advancingFetcher phase, Option.map_eq_some_iff] at transition
      obtain ⟨fetcher, moved, same⟩ := transition
      cases same
      have sameIndex := index_of_callStep (fun _ => CallLabel.noConfusion)
        CallLabel.noConfusion moved
      exact sameIndex.trans prior.1
  | @advancedFeedTo continues pos phase =>
      simp only [NitroState.HandsOver, phase] at prior
      cases continues with
      | none => exact prior
      | some tick => exact prior

theorem handsOver_of_runs {admits : NitroState → NitroLabel → Prop} {store : EspressoState}
    {file : StateFile} {finalizedBlock : Nat} {labels : List NitroLabel} {state : NitroState}
    (run : (nitroMachine config).Runs admits (.initial store file finalizedBlock) labels state) :
    state.HandsOver :=
  run.invariant (P := NitroState.HandsOver) rfl fun prior _ transition => prior.step transition

/-- The predecessor of zero is the largest word. -/
theorem u64Pred_zero : u64Pred 0 = 2 ^ 64 - 1 := by decide

theorem u64Pred_of_pos {word : Nat} (positive : 0 < word) (bounded : word < 2 ^ 64) :
    u64Pred word = word - 1 := by
  unfold u64Pred u64
  omega

/-- After a message that says `r` delayed messages were read, `advance` always reaches the
fetcher. It leaves exactly the entries from `r` on, unless `r` is 0 and there is any
entry. -/
theorem verified_message_evicts_consumed {store : EspressoState} {file : StateFile}
    {finalizedBlock : Nat} {labels : List NitroLabel} {state : NitroState} {tick : Tick}
    {messageIndex : Nat}
    (run : (nitroMachine config).Reaches (.initial store file finalizedBlock) labels state)
    (phase : state.phase = .advancingFetcher tick messageIndex) :
    ∃ last next, tick.passed.getLast? = some last ∧
      (nitroMachine config).step state .proceed = some next ∧ next.phase = .draining tick ∧
      ∀ r, last.message.content.delayedMessagesRead = r → r < 2 ^ 64 →
        ((∀ index, next.fetcher.cached index =
            if index < r then none else state.fetcher.cached index) ↔
          r ≠ 0 ∨ ∀ index, state.fetcher.cached index = none) := by
  have bounded := cacheBounded_of_runs run
  have handed := handsOver_of_runs run
  simp only [NitroState.HandsOver, phase] at handed
  obtain ⟨noCall, last, passed, index⟩ := handed
  obtain ⟨fetcher, moved, evicts⟩ : ∃ fetcher,
      state.fetcher.callStep config.fetcher (.advance messageIndex) = some fetcher ∧
      ∀ index, fetcher.cached index =
        if index ≤ messageIndex then none else state.fetcher.cached index := by
    simp only [FetcherState.callStep, CallPhase.index?_eq_none.mp noCall]
    exact ⟨_, rfl, fun index => DelayedMessageCache.get_advance _ _ _⟩
  have transition : (nitroMachine config).step state .proceed =
      some { state with fetcher, phase := .draining tick } := by
    refine (step_advancingFetcher phase).trans ?_
    rw [moved]
    rfl
  refine ⟨last, _, passed, transition, rfl, ?_⟩
  rintro r rfl word
  rcases Nat.eq_zero_or_pos last.message.content.delayedMessagesRead with zero | positive
  · -- Every index is at most the predecessor of zero.
    have largest : messageIndex = 2 ^ 64 - 1 := by rw [index, zero, u64Pred_zero]
    have cleared : ∀ index, fetcher.cached index = none := by
      intro index
      rw [evicts, largest]
      split
      · rfl
      · rename_i beyond
        cases found : state.fetcher.cached index with
        | none => rfl
        | some message =>
            have word := bounded index message found
            omega
    simp only [cleared, zero, Nat.not_lt_zero, if_false, ne_eq, not_true_eq_false, false_or]
    exact forall_congr' fun index => eq_comm
  · have before : messageIndex = last.message.content.delayedMessagesRead - 1 := by
      rw [index, u64Pred_of_pos positive word]
    refine iff_of_true (fun index => ?_) (.inl (Nat.pos_iff_ne_zero.mp positive))
    have same : index ≤ messageIndex ↔ index < last.message.content.delayedMessagesRead := by
      omega
    rw [evicts]
    exact if_congr same rfl rfl

/-- The fetcher has message 1 when message 5 is passed, which says that one delayed message
was read: message 1 stays. -/
theorem verified_message_evicts_consumed_keeps_next :
    ∃ state next, (nitroMachine sampleNitroConfig).Reaches (.startedOn ⟨4, 20, 1⟩)
        (sampleTick.take 16) state ∧
      (nitroMachine sampleNitroConfig).step state .proceed = some next ∧
      state.fetcher.cached 1 = some ⟨[8], 7, 1, 10⟩ ∧
      next.fetcher.cached 1 = some ⟨[8], 7, 1, 10⟩ := by
  obtain ⟨state, tick, last, computed, phase, passed, read, cached⟩ : ∃ state tick last,
      (nitroMachine sampleNitroConfig).exec (fun _ _ => True) (.startedOn ⟨4, 20, 1⟩)
        (sampleTick.take 16) = some state ∧
      state.phase = .advancingFetcher tick 0 ∧ tick.passed.getLast? = some last ∧
      last.message.content.delayedMessagesRead = 1 ∧
      state.fetcher.cached 1 = some ⟨[8], 7, 1, 10⟩ := ⟨_, _, _, rfl, rfl, rfl, rfl, rfl⟩
  have run := Machine.Runs.ofExec computed
  obtain ⟨other, next, same, transition, -, exactly⟩ := verified_message_evicts_consumed run phase
  cases passed.symm.trans same
  have kept := (exactly 1 read (by decide)).mpr (.inl (by decide)) 1
  exact ⟨state, next, run, transition, cached, kept.trans cached⟩

/-- Message 5 says that no delayed message was read and carries its own data. Passing it
drops message 1, which was not read. -/
theorem zero_read_evicts_unread_message :
    ∃ state next tick last, (nitroMachine sampleNitroConfig).Reaches (.startedOn ⟨4, 20, 1⟩)
        ([.found ⟨sampleMessage 0 [9], 5, 20⟩,
          .broadcast ⟨1, [some ⟨5, sampleMessage 0 [9]⟩]⟩] ++ (sampleTick.drop 3).take 13)
        state ∧
      state.phase = .advancingFetcher tick (u64Pred 0) ∧
      tick.passed.getLast? = some last ∧ last.message.content.delayedMessagesRead = 0 ∧
      (nitroMachine sampleNitroConfig).step state .proceed = some next ∧
      state.fetcher.cached 1 = some ⟨[8], 7, 1, 10⟩ ∧ next.fetcher.cached 1 = none := by
  obtain ⟨state, next, tick, last, computed, rest⟩ : ∃ state next tick last,
      (nitroMachine sampleNitroConfig).exec (fun _ _ => True) (.startedOn ⟨4, 20, 1⟩)
        ([.found ⟨sampleMessage 0 [9], 5, 20⟩,
          .broadcast ⟨1, [some ⟨5, sampleMessage 0 [9]⟩]⟩] ++ (sampleTick.drop 3).take 13) =
          some state ∧
      state.phase = .advancingFetcher tick (u64Pred 0) ∧
      tick.passed.getLast? = some last ∧ last.message.content.delayedMessagesRead = 0 ∧
      (nitroMachine sampleNitroConfig).step state .proceed = some next ∧
      state.fetcher.cached 1 = some ⟨[8], 7, 1, 10⟩ ∧ next.fetcher.cached 1 = none :=
    ⟨_, _, _, _, rfl, rfl, rfl, rfl, rfl, rfl, rfl⟩
  exact ⟨state, next, tick, last, Machine.Runs.ofExec computed, rest⟩

end EspressoProxy.Verifier.Nitro
