import EspressoProxy.Semantics.Machine
import EspressoProxy.Verifier.Nitro.FeedClient

/-!
# The reference model of the feed cache

What the cache should answer depends on the history only: for a sequence number, the
first message received with it since the cursor was last above that number. Insertion
checks the cursor and the cache, and the two ways to advance delete in different ways, but
in every interleaving the cache answers just that.
-/

namespace EspressoProxy.Verifier.Nitro

open EspressoProxy.Semantics

/-- A broadcast that `readMessages` handles under the lock, or a call of the verifier. -/
inductive FeedLabel where
  | broadcast (broadcast : BroadcastMessage)
  | advance
  | advanceTo (seqNum : Nat)
deriving DecidableEq, Repr

def feedMachine : Machine FeedClient FeedLabel where
  step client
    | .broadcast broadcast => some (client.readMessages broadcast)
    | .advance => some client.advance
    | .advanceTo seqNum => some (client.advanceTo seqNum)

/-- The cursor does not wrap around. -/
def CursorBounded (client : FeedClient) (label : FeedLabel) : Prop :=
  label = .advance → client.nextSeqNum + 1 < 2 ^ 64

instance (client : FeedClient) (label : FeedLabel) : Decidable (CursorBounded client label) :=
  inferInstanceAs (Decidable (label = .advance → client.nextSeqNum + 1 < 2 ^ 64))

section Reference

/-- Where a label moves the cursor. -/
def FeedLabel.move (cursor : Nat) : FeedLabel → Nat
  | .broadcast _ => cursor
  | .advance => cursor + 1
  | .advanceTo seqNum => seqNum

def FeedLabel.received : FeedLabel → List BroadcastFeedMessage
  | .broadcast message => message.received
  | _ => []

/-- The cursor after all labels. -/
def cursorAfter (cursor : Nat) (labels : List FeedLabel) : Nat :=
  labels.foldl FeedLabel.move cursor

/-- The cursor is at `seqNum` or below it now and after each of the labels. -/
def staysAtMost (seqNum : Nat) : Nat → List FeedLabel → Bool
  | cursor, [] => cursor ≤ seqNum
  | cursor, label :: rest => cursor ≤ seqNum && staysAtMost seqNum (label.move cursor) rest

/-- The labels since the cursor was last above `seqNum`, or all if it never was. -/
def sinceAbove (seqNum : Nat) : Nat → List FeedLabel → List FeedLabel
  | _, [] => []
  | cursor, label :: rest =>
      if staysAtMost seqNum cursor (label :: rest) then label :: rest
      else sinceAbove seqNum (label.move cursor) rest

/-- The first message with the number that was received in that time. -/
def reference (start : Nat) (labels : List FeedLabel) (seqNum : Nat) :
    Option BroadcastFeedMessage :=
  ((sinceAbove seqNum start labels).flatMap FeedLabel.received).find? fun message =>
    message.sequenceNumber = seqNum

variable {seqNum cursor : Nat} {labels : List FeedLabel}

theorem cursorAfter_append (label : FeedLabel) :
    cursorAfter cursor (labels ++ [label]) = label.move (cursorAfter cursor labels) := by
  simp [cursorAfter]

theorem staysAtMost_append (label : FeedLabel) :
    staysAtMost seqNum cursor (labels ++ [label]) =
      (staysAtMost seqNum cursor labels &&
        decide (label.move (cursorAfter cursor labels) ≤ seqNum)) := by
  induction labels generalizing cursor with
  | nil => rfl
  | cons first rest inductionHypothesis =>
      rw [List.cons_append, staysAtMost, inductionHypothesis, staysAtMost, Bool.and_assoc]
      rfl

theorem cursorAfter_le_of_stays (stays : staysAtMost seqNum cursor labels) :
    cursorAfter cursor labels ≤ seqNum := by
  induction labels generalizing cursor with
  | nil => exact of_decide_eq_true stays
  | cons first rest inductionHypothesis =>
      rw [staysAtMost, Bool.and_eq_true] at stays
      exact inductionHypothesis stays.2

/-- One more label: it counts if the cursor was not above the number before it, and the
count starts again if it is above the number after it. -/
theorem sinceAbove_append (label : FeedLabel) :
    sinceAbove seqNum cursor (labels ++ [label]) =
      if cursorAfter cursor labels ≤ seqNum ∧ label.move (cursorAfter cursor labels) ≤ seqNum then
        sinceAbove seqNum cursor labels ++ [label]
      else [] := by
  induction labels generalizing cursor with
  | nil =>
      have kept_iff : staysAtMost seqNum cursor [label] ↔
          cursor ≤ seqNum ∧ label.move cursor ≤ seqNum := by simp [staysAtMost]
      rw [List.nil_append, sinceAbove]
      exact if_congr kept_iff rfl rfl
  | cons first rest inductionHypothesis =>
      have later := @inductionHypothesis (first.move cursor)
      rw [List.cons_append, sinceAbove, ← List.cons_append, staysAtMost_append, later, sinceAbove]
      by_cases stays : staysAtMost seqNum cursor (first :: rest)
      · have reached := cursorAfter_le_of_stays stays
        by_cases moved : label.move (cursorAfter cursor (first :: rest)) ≤ seqNum
        · rw [if_pos (by simp [stays, moved]), if_pos ⟨reached, moved⟩, if_pos stays]
        · rw [if_neg (by simp [moved]), if_neg fun kept => moved kept.2,
            if_neg fun kept => moved kept.2]
      · rw [if_neg (by simp [stays]), if_neg stays]
        rfl

end Reference

section Cache

variable {start seqNum : Nat} {labels : List FeedLabel}

theorem reference_append (label : FeedLabel) :
    reference start (labels ++ [label]) seqNum =
      if cursorAfter start labels ≤ seqNum ∧ label.move (cursorAfter start labels) ≤ seqNum then
        (reference start labels seqNum).or
          (label.received.find? fun message => message.sequenceNumber = seqNum)
      else none := by
  rw [reference, sinceAbove_append]
  split
  · rw [List.flatMap_append, List.find?_append, List.flatMap_singleton]
    rfl
  · rfl

/-- Nothing is cached for a number below the cursor. -/
theorem getMessage_of_lt {client : FeedClient} (behind : seqNum < client.nextSeqNum) :
    client.getMessage seqNum = none := by
  cases found : client.getMessage seqNum with
  | none => rfl
  | some message => exact absurd (FeedClient.nextSeqNum_le found) (Nat.not_le.mpr behind)

/-- What one label does to the cursor and to the answer for a number. -/
theorem feedMachine_step {client next : FeedClient} {label : FeedLabel}
    (bounded : CursorBounded client label) (moved : feedMachine.step client label = some next) :
    next.nextSeqNum = label.move client.nextSeqNum ∧
    ∀ seqNum, next.getMessage seqNum =
      if client.nextSeqNum ≤ seqNum ∧ label.move client.nextSeqNum ≤ seqNum then
        (client.getMessage seqNum).or
          (label.received.find? fun message => message.sequenceNumber = seqNum)
      else none := by
  cases label with
  | broadcast message =>
      cases moved
      refine ⟨client.nextSeqNum_readMessages message, fun seqNum => ?_⟩
      by_cases reached : client.nextSeqNum ≤ seqNum
      · rw [if_pos ⟨reached, reached⟩]
        exact client.getMessage_readMessages message reached
      · rw [if_neg fun kept => reached kept.1]
        apply getMessage_of_lt
        rw [client.nextSeqNum_readMessages]
        exact Nat.not_le.mp reached
  | advance =>
      cases moved
      have cursor : client.advance.nextSeqNum = client.nextSeqNum + 1 := u64_of_lt (bounded rfl)
      refine ⟨cursor, fun seqNum => ?_⟩
      by_cases reached : client.nextSeqNum + 1 ≤ seqNum
      · rw [if_pos ⟨Nat.le_of_succ_le reached, reached⟩, client.getMessage_advance,
          if_neg (by omega)]
        simp [FeedLabel.received]
      · rw [if_neg fun kept => reached kept.2]
        apply getMessage_of_lt
        rw [cursor]
        exact Nat.not_le.mp reached
  | advanceTo target =>
      cases moved
      refine ⟨rfl, fun seqNum => ?_⟩
      rw [client.getMessage_advanceTo, FeedLabel.move]
      by_cases reached : client.nextSeqNum ≤ seqNum ∧ target ≤ seqNum
      · rw [if_pos reached, if_neg (Nat.not_lt.mpr reached.2)]
        simp [FeedLabel.received]
      · rw [if_neg reached]
        split <;> rename_i before
        · rfl
        · -- The target is behind a cursor that is above the number.
          apply getMessage_of_lt
          omega

theorem reference_of_runs {client : FeedClient}
    (run : feedMachine.Runs CursorBounded (newFeedClient start) labels client) :
    client.nextSeqNum = cursorAfter start labels ∧
      ∀ seqNum, client.getMessage seqNum = reference start labels seqNum := by
  refine run.invariantWithLabels (P := fun labels client =>
    client.nextSeqNum = cursorAfter start labels ∧
      ∀ seqNum, client.getMessage seqNum = reference start labels seqNum) ⟨rfl, fun _ => rfl⟩ ?_
  rintro taken client label next ⟨cursor, answers⟩ bounded moved
  obtain ⟨cursorNext, answersNext⟩ := feedMachine_step bounded moved
  refine ⟨by rw [cursorNext, cursor, cursorAfter_append], fun seqNum => ?_⟩
  rw [answersNext, reference_append, cursor, answers]

/-- The cache equals its reference model. Every cached number is at the cursor or above it.
The answer for a number is the first message with it that was received since the cursor was
last above it. A cached message stays until the cursor passes it. -/
theorem feed_cache_equals_reference {client : FeedClient}
    (run : feedMachine.Runs CursorBounded (newFeedClient start) labels client) :
    (∀ seqNum message, client.messages.get seqNum = some message →
      client.nextSeqNum ≤ seqNum) ∧
    (∀ seqNum, client.getMessage seqNum = reference start labels seqNum) ∧
    ∀ seqNum message label next, client.getMessage seqNum = some message →
      CursorBounded client label → feedMachine.step client label = some next →
        next.getMessage seqNum = some message ∨
          next.getMessage seqNum = none ∧ seqNum < next.nextSeqNum := by
  refine ⟨fun _ _ => client.retained, (reference_of_runs run).2, ?_⟩
  intro seqNum message label next found bounded moved
  obtain ⟨cursor, answers⟩ := feedMachine_step bounded moved
  rw [answers, found, cursor]
  by_cases kept : label.move client.nextSeqNum ≤ seqNum
  · left
    rw [if_pos ⟨FeedClient.nextSeqNum_le found, kept⟩, Option.some_or]
  · right
    exact ⟨if_neg fun both => kept both.2, Nat.not_le.mp kept⟩

/-- Message 7 is received twice, the cursor passes it and is set back, and it is received
once more. -/
theorem feed_cache_equals_reference_after_set_back :
    let message (read : Nat) : BroadcastFeedMessage := ⟨7, ⟨none, read⟩⟩
    let labels : List FeedLabel := [.broadcast ⟨1, [some (message 1), none, some (message 2)]⟩,
      .advanceTo 8, .advanceTo 6, .broadcast ⟨1, [some (message 3)]⟩,
      .broadcast ⟨2, [some (message 4)]⟩, .advance]
    ∃ client, feedMachine.Runs CursorBounded (newFeedClient 5) labels client ∧
      client.getMessage 7 = some (message 3) ∧ reference 5 labels 7 = some (message 3) := by
  intro message labels
  obtain ⟨client, computed, answer⟩ : ∃ client,
      feedMachine.exec CursorBounded (newFeedClient 5) labels = some client ∧
        client.getMessage 7 = some (message 3) := ⟨_, rfl, rfl⟩
  have run := Machine.Runs.ofExec computed
  exact ⟨client, run, answer, (feed_cache_equals_reference run).2.1 7 ▸ answer⟩

end Cache
end EspressoProxy.Verifier.Nitro
