import EspressoProxy.Verifier.Nitro.Safety

/-!
# Repeated attempts to verify a message

A message whose verification fails stays at the cursor, and the next tick tries it again.
`verifyMessage` is one attempt as a whole: a function of the message object, the feed
message and what `GetDelayedMessage` answers. `verifyDelayedMessage` writes the fetched data
into the object before it compares, so an attempt that fails after that is remembered by
the object: the next one takes it for a message that carries its own data.
-/

namespace EspressoProxy.Verifier.Nitro

open EspressoProxy.Ethereum EspressoProxy.Semantics

/-- What `GetDelayedMessage` answers in one state of the parent chain. -/
abbrev ParentState := Nat → Except GetError Bytes

/-- The errors of `verifyMessage`. -/
inductive VerifyMessageError where
  | delayedMessagesReadMismatch (espresso feed : Nat)
  | delayedMessagesReadZero
  | fetchFailed (cause : GetError)
  | delayedMismatch (cause : MatchError)
  | mismatch (cause : MatchError)
deriving DecidableEq, Repr

/-- How an attempt ends. A missing message is a nil pointer. -/
inductive VerifyMessageResult where
  | verified
  | failed (error : VerifyMessageError)
  | panicked
deriving DecidableEq, Repr

variable (config : NitroConfig) (parent : ParentState)

/-- `verifyDelayedMessage`: what the parent chain has is written into the object and
compared with the feed. -/
def verifyDelayedMessage (held : Buffered) (feedMsg : MessageWithMetadata) :
    Buffered × VerifyMessageResult :=
  if held.content.delayedMessagesRead ≠ feedMsg.delayedMessagesRead then
    (held, .failed (.delayedMessagesReadMismatch held.content.delayedMessagesRead
      feedMsg.delayedMessagesRead))
  else if held.content.delayedMessagesRead = 0 then (held, .failed .delayedMessagesReadZero)
  else
    match parent (u64Pred held.content.delayedMessagesRead) with
    | .error cause => (held, .failed (.fetchFailed cause))
    | .ok data =>
        let updated := { held with written := some data }
        match ensureMessagesMatch config updated.content feedMsg with
        | .error cause => (updated, .failed (.delayedMismatch cause))
        | .ok () => (updated, .verified)

/-- `verifyMessage` on the object that the verifier has a pointer to. -/
def verifyMessage (held : Buffered) (feedMsg : MessageWithMetadata) :
    Buffered × VerifyMessageResult :=
  match held.content.message with
  | none => (held, .panicked)
  | some incoming =>
      if incoming.l2msg = [] then verifyDelayedMessage config parent held feedMsg
      else
        match ensureMessagesMatch config held.content feedMsg with
        | .error cause => (held, .failed (.mismatch cause))
        | .ok () => (held, .verified)

/-- The index that an attempt passes to `GetDelayedMessage`, if it gets that far. -/
def consulted (held : Buffered) (feedMsg : MessageWithMetadata) : Option Nat :=
  match held.content.message with
  | none => none
  | some incoming =>
      if incoming.l2msg = [] ∧ held.content.delayedMessagesRead = feedMsg.delayedMessagesRead ∧
          held.content.delayedMessagesRead ≠ 0 then
        some (u64Pred held.content.delayedMessagesRead)
      else none

/-- Failed attempts on one message and one feed message, each in its own state of the
parent chain. -/
def attemptMachine (feedMsg : MessageWithMetadata) : Machine Buffered ParentState where
  step held parent :=
    match verifyMessage config parent held feedMsg with
    | (after, .failed _) => some after
    | _ => none

variable {config parent} {held : Buffered} {feedMsg : MessageWithMetadata}

/-- Why an attempt does not consult the parent chain: there is no message, it carries its
own data, the numbers of delayed messages read differ, or none was read. -/
theorem not_consulted_cases (skipped : consulted held feedMsg = none) :
    held.content.message = none ∨
    ∃ incoming, held.content.message = some incoming ∧
      (incoming.l2msg ≠ [] ∨ incoming.l2msg = [] ∧
        (held.content.delayedMessagesRead ≠ feedMsg.delayedMessagesRead ∨
          held.content.delayedMessagesRead = feedMsg.delayedMessagesRead ∧
            held.content.delayedMessagesRead = 0)) := by
  unfold consulted at skipped
  cases message : held.content.message with
  | none => exact .inl rfl
  | some incoming =>
      refine .inr ⟨incoming, rfl, ?_⟩
      simp only [message] at skipped
      by_contra! asked
      obtain ⟨empty, asked⟩ := asked
      obtain ⟨same, nonzero⟩ := asked empty
      rw [if_pos ⟨empty, same, nonzero same⟩] at skipped
      cases skipped

/-- An attempt that does not consult the parent chain does not depend on it and writes
nothing. -/
theorem verifyMessage_of_not_consulted (skipped : consulted held feedMsg = none) :
    ∃ result, ∀ parent, verifyMessage config parent held feedMsg = (held, result) := by
  unfold verifyMessage verifyDelayedMessage
  rcases not_consulted_cases skipped with
    missing | ⟨incoming, message, carries | ⟨empty, different | ⟨same, zero⟩⟩⟩
  · simp only [missing]
    exact ⟨_, fun _ => rfl⟩
  · simp only [message, if_neg carries]
    cases ensureMessagesMatch config held.content feedMsg with
    | error cause => exact ⟨_, fun _ => rfl⟩
    | ok => exact ⟨_, fun _ => rfl⟩
  · simp only [message, if_pos empty, if_pos different]
    exact ⟨_, fun _ => rfl⟩
  · simp only [message, if_pos empty, if_neg (not_not.mpr same), if_pos zero]
    exact ⟨_, fun _ => rfl⟩

/-- An attempt consults the parent chain for a message without data only. -/
theorem isDelayed_of_consulted {index : Nat} (asked : consulted held feedMsg = some index) :
    held.content.IsDelayed := by
  unfold consulted at asked
  split at asked
  · cases asked
  · rename_i incoming message
    split at asked
    · rename_i conditions
      exact ⟨incoming, message, conditions.1⟩
    · cases asked

/-- An attempt that consults the parent chain ends with its answer. -/
theorem verifyMessage_of_consulted {index : Nat} (asked : consulted held feedMsg = some index) :
    verifyMessage config parent held feedMsg =
      match parent index with
      | .error cause => (held, .failed (.fetchFailed cause))
      | .ok data =>
          match ensureMessagesMatch config { held with written := some data }.content feedMsg with
          | .error cause => ({ held with written := some data }, .failed (.delayedMismatch cause))
          | .ok () => ({ held with written := some data }, .verified) := by
  unfold consulted at asked
  split at asked
  · cases asked
  · rename_i incoming message
    split at asked
    · rename_i conditions
      obtain ⟨empty, same, nonzero⟩ := conditions
      obtain rfl := Option.some.inj asked
      simp only [verifyMessage, message]
      rw [if_pos empty, verifyDelayedMessage, if_neg (not_not.mpr same), if_neg nonzero]
    · cases asked

/-! ### The attempts of the machine -/

/-- Where the drain goes after an attempt. -/
def VerifyMessageResult.phaseAfter (tick : Tick) (pos : Nat) (feedMsg : BroadcastFeedMessage) :
    VerifyMessageResult → NitroPhase
  | .verified => .advancing tick pos feedMsg
  | .failed _ => .drained tick
  | .panicked => .panicked

/-- A step of the drain that does not consult the parent chain is an attempt. -/
theorem proceed_verifying {before after : NitroState} {tick : Tick} {pos : Nat}
    {received : BroadcastFeedMessage} (phase : before.phase = .verifying tick pos received)
    (present : before.streamer.buffer.get pos = some held)
    (skipped : consulted held received.message = none)
    (transition : before.proceed config = some after) :
    after = { before with
      phase := (verifyMessage config parent held received.message).2.phaseAfter tick pos
        received } := by
  simp only [NitroState.proceed, phase, present, NitroState.verifyMessage] at transition
  unfold verifyMessage verifyDelayedMessage
  rcases not_consulted_cases skipped with
    missing | ⟨incoming, message, carries | ⟨empty, different | ⟨same, zero⟩⟩⟩
  · simp only [missing, Option.some.injEq] at transition ⊢
    exact transition.symm
  · simp only [message, if_neg carries] at transition ⊢
    cases matched : ensureMessagesMatch config held.content received.message with
    | error cause =>
        simp only [matched, Option.some.injEq] at transition
        exact transition.symm
    | ok =>
        simp only [matched, Option.some.injEq] at transition
        exact transition.symm
  · simp only [message, if_pos empty, if_pos different, Option.some.injEq] at transition ⊢
    exact transition.symm
  · simp only [message, if_pos empty, if_neg (not_not.mpr same), if_pos zero,
      Option.some.injEq] at transition ⊢
    exact transition.symm

/-- The step of the drain after `GetDelayedMessage` has returned ends the attempt that
consulted it: the object and the phase are those of the attempt. -/
theorem proceed_fetching {before after : NitroState} {tick : Tick} {pos index : Nat}
    {received : BroadcastFeedMessage} {result : Except GetError Bytes}
    (phase : before.phase = .fetching tick pos received)
    (present : before.streamer.buffer.get pos = some held)
    (asked : consulted held received.message = some index)
    (returned : before.fetcher.call = .returned index result)
    (transition : before.proceed config = some after) :
    after.streamer.buffer.get pos =
        some (verifyMessage config (fun _ => result) held received.message).1 ∧
      ∃ fetched, after.phase =
        (verifyMessage config (fun _ => result) held received.message).2.phaseAfter
          { tick with fetched := tick.fetched ++ fetched } pos received := by
  simp only [NitroState.proceed, phase, present, returned] at transition
  rw [verifyMessage_of_consulted asked]
  cases result with
  | error cause =>
      simp only [Option.some.injEq] at transition
      subst transition
      exact ⟨present, [], by simp [VerifyMessageResult.phaseAfter]⟩
  | ok data =>
      simp only [Option.some.injEq] at transition
      subst transition
      have written : (before.streamer.writeL2msg pos data).buffer.get pos =
          some { held with written := some data } := by
        rw [Streamer.get_writeL2msg present, if_pos rfl]
      simp only [NitroState.verifyDelayedMessage]
      cases ensureMessagesMatch config { held with written := some data }.content
          received.message with
      | error cause => exact ⟨written, [(index, data)], rfl⟩
      | ok => exact ⟨written, [(index, data)], rfl⟩

/-! ### What a failed attempt leaves behind -/

/-- `GetDelayedMessage` gave the attempt no data: it was not called, it failed, or the data
was empty. -/
def FetchesNothing (feedMsg : MessageWithMetadata) (held : Buffered) (parent : ParentState) :
    Prop :=
  ∀ index data, consulted held feedMsg = some index → parent index = .ok data → data = []

/-- The object has the content that was delivered. -/
def Buffered.AsDelivered (held : Buffered) (delivered : MessageWithMetadataAndPos) : Prop :=
  held.delivered = delivered ∧ held.content = delivered.messageWithMeta

theorem consulted_of_asDelivered {delivered : MessageWithMetadataAndPos}
    (same : held.AsDelivered delivered) :
    consulted held feedMsg = consulted ⟨delivered, none⟩ feedMsg := by
  have fresh : (Buffered.mk delivered none).content = held.content := same.2.symm
  simp only [consulted, fresh]

/-- The outcome of an attempt depends on the content of the object, not on how it came
about. -/
theorem verifyMessage_of_asDelivered {delivered : MessageWithMetadataAndPos}
    (same : held.AsDelivered delivered) (parent : ParentState) :
    (verifyMessage config parent held feedMsg).2 =
      (verifyMessage config parent ⟨delivered, none⟩ feedMsg).2 := by
  obtain ⟨rfl, content⟩ := same
  have fresh : (Buffered.mk held.delivered none).content = held.content := content.symm
  simp only [verifyMessage, verifyDelayedMessage, fresh]
  cases held.content.message with
  | none => rfl
  | some incoming =>
      simp only
      split_ifs
      · rfl
      · rfl
      · cases parent (u64Pred held.content.delayedMessagesRead) with
        | error => rfl
        | ok => rfl
      · cases ensureMessagesMatch config held.content feedMsg with
        | error => rfl
        | ok => rfl

/-- A failed attempt leaves the content as it was delivered exactly if it was given no
data. -/
theorem asDelivered_iff_fetchesNothing {delivered : MessageWithMetadataAndPos}
    {error : VerifyMessageError} {after : Buffered} (same : held.AsDelivered delivered)
    (fails : verifyMessage config parent held feedMsg = (after, .failed error)) :
    after.AsDelivered delivered ↔ FetchesNothing feedMsg held parent := by
  obtain ⟨rfl, content⟩ := same
  cases asked : consulted held feedMsg with
  | none =>
      obtain ⟨result, unchanged⟩ := verifyMessage_of_not_consulted asked
      rw [unchanged] at fails
      cases fails
      exact iff_of_true ⟨rfl, content⟩ fun index data found => by rw [asked] at found; cases found
  | some index =>
      have delayed := isDelayed_of_consulted asked
      rw [verifyMessage_of_consulted asked] at fails
      cases answer : parent index with
      | error cause =>
          simp only [answer, Prod.mk.injEq] at fails
          obtain ⟨rfl, -⟩ := fails
          refine iff_of_true ⟨rfl, content⟩ ?_
          intro other data found fetched
          cases asked.symm.trans found
          cases answer.symm.trans fetched
      | ok data =>
          have written : after = { held with written := some data } := by
            simp only [answer] at fails
            split at fails
            · exact (Prod.mk.inj fails).1.symm
            · cases fails
          subst written
          have overwritten : { held with written := some data }.content =
              held.content.withL2msg data := by rw [content]; rfl
          constructor
          · rintro ⟨-, same⟩ other fetched found isData
            cases asked.symm.trans found
            cases answer.symm.trans isData
            by_contra nonempty
            rw [overwritten, ← content] at same
            exact (same ▸ delayed).not_hasData (delayed.hasData_withL2msg nonempty)
          · intro nothing
            cases nothing index data asked answer
            exact ⟨rfl, by rw [overwritten, delayed.withL2msg_nil, content]⟩

/-- The failed attempts of a run that were given no data leave the object as delivered. -/
theorem asDelivered_of_runs {delivered : MessageWithMetadataAndPos} {attempts : List ParentState}
    (run : (attemptMachine config feedMsg).Runs (FetchesNothing feedMsg) ⟨delivered, none⟩
      attempts held) : held.AsDelivered delivered := by
  refine run.invariant (P := fun held => held.AsDelivered delivered) ⟨rfl, rfl⟩ ?_
  intro before parent after prior nothing transition
  simp only [attemptMachine] at transition
  split at transition
  · rename_i updated error fails
    cases transition
    exact (asDelivered_iff_fetchesNothing prior fails).mpr nothing
  · cases transition

/-- Failed attempts that were given no data have no memory. After any number of them the
object has the content that was delivered, the next attempt consults the parent chain if
the first one did, and its outcome is that of an attempt on the message as delivered. If it
fails too, it leaves the content unchanged exactly if it was given no data. -/
theorem failed_attempts_have_no_memory {delivered : MessageWithMetadataAndPos}
    {attempts : List ParentState}
    (run : (attemptMachine config feedMsg).Runs (FetchesNothing feedMsg) ⟨delivered, none⟩
      attempts held) :
    held.content = delivered.messageWithMeta ∧
      consulted held feedMsg = consulted ⟨delivered, none⟩ feedMsg ∧
      ∀ parent,
        (verifyMessage config parent held feedMsg).2 =
          (verifyMessage config parent ⟨delivered, none⟩ feedMsg).2 ∧
        ∀ after error, verifyMessage config parent held feedMsg = (after, .failed error) →
          (after.AsDelivered delivered ↔ FetchesNothing feedMsg held parent) := by
  have same := asDelivered_of_runs run
  refine ⟨same.2, consulted_of_asDelivered same, ?_⟩
  intro parent
  exact ⟨verifyMessage_of_asDelivered same parent, fun after error fails =>
    asDelivered_iff_fetchesNothing same fails⟩

/-- Two attempts on delayed message 0 fail because the parent chain does not have it yet;
the third one finds it. -/
theorem failed_attempts_have_no_memory_before_message_is_found :
    let delivered : MessageWithMetadataAndPos := ⟨sampleMessage 1 [], 5, 20⟩
    let notFound : ParentState := fun index => .error (.delayedMessageNotFound index 7)
    let found : ParentState := fun _ => .ok [9]
    ∃ held, (attemptMachine sampleNitroConfig (sampleMessage 1 [9])).Runs
        (FetchesNothing (sampleMessage 1 [9])) ⟨delivered, none⟩ [notFound, notFound] held ∧
      held.content = sampleMessage 1 [] ∧
      (verifyMessage sampleNitroConfig found held (sampleMessage 1 [9])).2 =
        (verifyMessage sampleNitroConfig found ⟨delivered, none⟩ (sampleMessage 1 [9])).2 ∧
      (verifyMessage sampleNitroConfig found held (sampleMessage 1 [9])).2 = .verified := by
  intro delivered notFound found
  have nothing (held : Buffered) : FetchesNothing (sampleMessage 1 [9]) held notFound := by
    intro index data _ fetched
    cases fetched
  have started : (attemptMachine sampleNitroConfig (sampleMessage 1 [9])).Runs
      (FetchesNothing (sampleMessage 1 [9])) ⟨delivered, none⟩ _ _ := .refl
  have once := started.next notFound (nothing _) rfl
  have twice := once.next notFound (nothing _) rfl
  obtain ⟨content, -, next⟩ := failed_attempts_have_no_memory twice
  exact ⟨_, twice, content, (next found).1, by decide⟩

/-- The parent chain has other data for delayed message 0 at the first attempt, which
fails and leaves that data in the object. When the parent chain has the data of the feed,
an attempt on the message as delivered succeeds, but the second attempt does not consult
the parent chain and fails. -/
theorem failed_attempt_is_remembered :
    let delivered : MessageWithMetadataAndPos := ⟨sampleMessage 1 [], 5, 20⟩
    let feedMsg := sampleMessage 1 [9]
    ∃ held, (attemptMachine sampleNitroConfig feedMsg).Reaches ⟨delivered, none⟩
        [fun _ => .ok [8]] held ∧
      held.content = sampleMessage 1 [8] ∧
      consulted ⟨delivered, none⟩ feedMsg = some 0 ∧ consulted held feedMsg = none ∧
      (verifyMessage sampleNitroConfig (fun _ => .ok [9]) ⟨delivered, none⟩ feedMsg).2 =
        .verified ∧
      (verifyMessage sampleNitroConfig (fun _ => .ok [9]) held feedMsg).2 =
        .failed (.mismatch .mismatch) := by
  intro delivered feedMsg
  have started : (attemptMachine sampleNitroConfig feedMsg).Reaches ⟨delivered, none⟩ _ _ := .refl
  have once := started.next (fun _ => .ok [8]) trivial rfl
  exact ⟨_, once, rfl, by decide, by decide, by decide, by decide⟩

end EspressoProxy.Verifier.Nitro
