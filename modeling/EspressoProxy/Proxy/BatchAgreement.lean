import EspressoProxy.Proxy.TagMonotonicity
import EspressoProxy.Proxy.TagSubstitution
import EspressoProxy.Semantics.Traversal

/-!
# A batch is intercepted as its requests would be

`InterceptBatchRequests` checks the length, reads the store once and rewrites the
requests one after the other, while the rest of the proxy goes on and may update the
store at any point. The call is a machine of its own steps and the actions of that
environment. Whatever the interleaving, it returns what the uninterrupted function
returns on a state that it read, and that is what `InterceptRequest` returns for each
request on this state.

The flag and the README document a limit of 0 as no limit. The length check has no
such case, so a limit of 0 rejects every batch that is not empty.
-/

namespace EspressoProxy.Proxy

open EspressoProxy.JsonRpc EspressoProxy.Store EspressoProxy.Semantics

namespace Interceptor

/-- How far a call of `InterceptBatchRequests` is. -/
inductive BatchPhase where
  | checking
  | reading
  | rewriting (number : Nat) (next remaining : List Request)
  | returned (result : Except InterceptError (List Request))

/-- A call in the world it runs in. -/
structure BatchCall where
  world : World
  phase : BatchPhase

inductive BatchLabel where
  | call
  | environment (action : Action)

variable (interceptor : Interceptor) (requests : List Request)

/-- The next step of the call itself. -/
def BatchPhase.advance (state : EspressoState) : BatchPhase → Option BatchPhase
  | .checking =>
      if requests.length > interceptor.maxBatchSize then
        some (.returned (.error (interceptor.batchSizeError requests.length)))
      else some .reading
  | .reading =>
      match getCurrentEspressoFinalizedBlockNumber state with
      | none => some (.returned (.ok requests))
      | some number => some (.rewriting number [] requests)
  | .rewriting _ next [] => some (.returned (.ok next))
  | .rewriting number next (request :: rest) =>
      match interceptor.interceptRequestWithNumber request number with
      | .error cause => some (.returned (.error cause))
      | .ok rewritten => some (.rewriting number (next ++ [rewritten]) rest)
  | .returned _ => none

/-- One step of the call or of its environment. A call does not outlive its process, so
there is no crash. -/
def BatchCall.step (call : BatchCall) : BatchLabel → Option BatchCall
  | .call =>
      match call.world.process with
      | none => none
      | some process =>
          (call.phase.advance interceptor requests process.state).map fun phase =>
            { call with phase }
  | .environment action =>
      match call.world.step interceptor action with
      | some world => if world.process.isSome then some { call with world } else none
      | none => none

def batchMachine : Machine BatchCall BatchLabel where
  step := BatchCall.step interceptor requests

/-- The call that ran by `labels` read `seen` from the store. -/
def ReadDuring (start : BatchCall) (seen : EspressoState) (labels : List BatchLabel) : Prop :=
  (interceptor.batchMachine requests).Since (fun _ _ => True) start
    (fun _ call label _ => label = .call ∧ call.phase = .reading ∧
      ∃ process, call.world.process = some process ∧ process.state = seen)
    (fun _ => True) labels

variable {interceptor requests} {start : BatchCall} {seen : EspressoState}
  {labels : List BatchLabel}

theorem ReadDuring.later (read : interceptor.ReadDuring requests start seen labels)
    (label : BatchLabel) : interceptor.ReadDuring requests start seen (labels ++ [label]) :=
  Machine.Since.later read trivial

/-- What the call owes to the uninterrupted function in each phase. -/
def BatchPhase.Refines (interceptor : Interceptor) (requests : List Request) (start : BatchCall)
    (labels : List BatchLabel) : BatchPhase → Prop
  | .checking => True
  | .reading => requests.length ≤ interceptor.maxBatchSize
  | .rewriting number next remaining =>
      requests.length ≤ interceptor.maxBatchSize ∧
      ∃ seen, interceptor.ReadDuring requests start seen labels ∧
        interceptor.interceptBatchRequests seen requests =
          (remaining.mapM fun request =>
            interceptor.interceptRequestWithNumber request number).map (next ++ ·)
  | .returned result =>
      interceptor.maxBatchSize < requests.length ∧
        result = .error (interceptor.batchSizeError requests.length) ∨
      requests.length ≤ interceptor.maxBatchSize ∧
        ∃ seen, interceptor.ReadDuring requests start seen labels ∧
          result = interceptor.interceptBatchRequests seen requests

theorem BatchPhase.Refines.later {phase : BatchPhase}
    (refines : phase.Refines interceptor requests start labels) (label : BatchLabel) :
    phase.Refines interceptor requests start (labels ++ [label]) := by
  cases phase with
  | checking => trivial
  | reading => exact refines
  | rewriting number next remaining =>
      obtain ⟨within, seen, read, agrees⟩ := refines
      exact ⟨within, seen, read.later label, agrees⟩
  | returned result =>
      rcases refines with rejected | ⟨within, seen, read, agrees⟩
      · exact .inl rejected
      · exact .inr ⟨within, seen, read.later label, agrees⟩

theorem BatchPhase.Refines.checked {phase : BatchPhase} {state : EspressoState}
    (moved : BatchPhase.checking.advance interceptor requests state = some phase) :
    phase.Refines interceptor requests start labels := by
  rw [BatchPhase.advance] at moved
  split at moved <;> rename_i compared
  · cases moved
    exact .inl ⟨compared, rfl⟩
  · cases moved
    exact Nat.not_lt.mp compared

theorem BatchPhase.Refines.read {phase : BatchPhase}
    (within : requests.length ≤ interceptor.maxBatchSize)
    (read : interceptor.ReadDuring requests start seen labels)
    (moved : BatchPhase.reading.advance interceptor requests seen = some phase) :
    phase.Refines interceptor requests start labels := by
  rw [BatchPhase.advance] at moved
  split at moved <;> rename_i known
  · cases moved
    refine .inr ⟨within, seen, read, ?_⟩
    rw [interceptBatchRequests, if_neg (Nat.not_lt.mpr within), known]
  · cases moved
    refine ⟨within, seen, read, ?_⟩
    rw [interceptBatchRequests, if_neg (Nat.not_lt.mpr within), known]
    dsimp only
    cases requests.mapM fun request => interceptor.interceptRequestWithNumber request _ <;> rfl

theorem BatchPhase.Refines.rewritten {phase : BatchPhase} {state : EspressoState} {number : Nat}
    {next remaining : List Request}
    (refines : (BatchPhase.rewriting number next remaining).Refines interceptor requests start
      labels)
    (moved : (BatchPhase.rewriting number next remaining).advance interceptor requests state =
      some phase) :
    phase.Refines interceptor requests start labels := by
  obtain ⟨within, seen, read, agrees⟩ := refines
  cases remaining with
  | nil =>
      cases moved
      refine .inr ⟨within, seen, read, ?_⟩
      rw [agrees, List.mapM_nil]
      exact congrArg Except.ok (List.append_nil next).symm
  | cons request rest =>
      rw [List.mapM_cons] at agrees
      rw [BatchPhase.advance] at moved
      split at moved <;> rename_i outcome
      · cases moved
        rw [outcome] at agrees
        exact .inr ⟨within, seen, read, agrees.symm⟩
      · cases moved
        rw [outcome] at agrees
        refine ⟨within, seen, read, agrees.trans ?_⟩
        cases rest.mapM fun request => interceptor.interceptRequestWithNumber request number with
        | error cause => rfl
        | ok later => exact congrArg Except.ok (List.append_cons next _ later)

/-- The two kinds of steps. -/
theorem batchStep_cases {call after : BatchCall} {label : BatchLabel}
    (moved : (interceptor.batchMachine requests).step call label = some after) :
    (label = .call ∧ ∃ process phase, call.world.process = some process ∧
      call.phase.advance interceptor requests process.state = some phase ∧
      after = { call with phase }) ∨
    ∃ world, world.process.isSome ∧ after = { call with world } := by
  simp only [batchMachine, BatchCall.step] at moved
  split at moved
  · split at moved
    · cases moved
    · rename_i process running
      obtain ⟨phase, advanced, rfl⟩ := Option.map_eq_some_iff.mp moved
      exact .inl ⟨rfl, process, phase, running, advanced, rfl⟩
  · split at moved
    · split at moved <;> rename_i world _ running
      · cases moved
        exact .inr ⟨world, running, rfl⟩
      · cases moved
    · cases moved

theorem BatchPhase.Refines.step {call after : BatchCall} {label : BatchLabel}
    (prior : (interceptor.batchMachine requests).Reaches start labels call)
    (refines : call.phase.Refines interceptor requests start labels)
    (moved : (interceptor.batchMachine requests).step call label = some after) :
    after.phase.Refines interceptor requests start (labels ++ [label]) := by
  obtain ⟨rfl, process, phase, running, advanced, rfl⟩ | ⟨world, -, rfl⟩ := batchStep_cases moved
  · cases current : call.phase with
    | checking => exact .checked (current ▸ advanced)
    | reading =>
        rw [current] at advanced refines
        exact .read refines (.now prior trivial moved ⟨rfl, current, process, running, rfl⟩)
          advanced
    | rewriting number next remaining =>
        rw [current] at advanced refines
        exact .rewritten (refines.later .call) advanced
    | returned result =>
        rw [current] at advanced
        cases advanced
  · exact refines.later label

/-- The call, whatever is interleaved with it, refines the uninterrupted function. -/
theorem batch_refines {after : BatchCall}
    (run : (interceptor.batchMachine requests).Reaches start labels after)
    (begins : start.phase = .checking) :
    after.phase.Refines interceptor requests start labels :=
  run.invariantAlong (P := fun labels call => call.phase.Refines interceptor requests start labels)
    (by rw [begins]; trivial) fun prior refines _ moved => refines.step prior moved

theorem running_of_runs {after : BatchCall}
    (run : (interceptor.batchMachine requests).Reaches start labels after)
    (running : start.world.process.isSome) : after.world.process.isSome := by
  refine run.invariant (P := fun call => call.world.process.isSome) running
    fun running _ moved => ?_
  obtain ⟨-, process, phase, -, -, rfl⟩ | ⟨world, stillRunning, rfl⟩ := batchStep_cases moved
  · exact running
  · exact stillRunning

/-- The number of steps the call has left at most. -/
def BatchPhase.stepsLeft (requests : List Request) : BatchPhase → Nat
  | .checking => requests.length + 3
  | .reading => requests.length + 2
  | .rewriting _ _ remaining => remaining.length + 1
  | .returned _ => 0

/-- A call that has not returned takes a step, and has fewer left. -/
theorem BatchPhase.advance_of_not_returned (interceptor : Interceptor) {phase : BatchPhase}
    (state : EspressoState) (pending : 0 < phase.stepsLeft requests) :
    ∃ next, phase.advance interceptor requests state = some next ∧
      next.stepsLeft requests < phase.stepsLeft requests := by
  unfold BatchPhase.advance
  split
  · split
    · exact ⟨_, rfl, by simp [stepsLeft]⟩
    · exact ⟨_, rfl, by simp [stepsLeft]⟩
  · split
    · exact ⟨_, rfl, by simp [stepsLeft]⟩
    · exact ⟨_, rfl, by simp [stepsLeft]⟩
  · exact ⟨_, rfl, by simp [stepsLeft]⟩
  · split
    · exact ⟨_, rfl, by simp [stepsLeft]⟩
    · exact ⟨_, rfl, by simp [stepsLeft]⟩
  · simp [stepsLeft] at pending

/-- A call can always be run to its return. -/
theorem exists_returned {call : BatchCall} (running : call.world.process.isSome) :
    ∃ more after result, (∀ label ∈ more, label = BatchLabel.call) ∧
      (interceptor.batchMachine requests).Reaches call more after ∧
      after.phase = .returned result := by
  have progress : ∀ call : BatchCall, call.world.process.isSome →
      0 < call.phase.stepsLeft requests → ∃ label next, label = BatchLabel.call ∧ True ∧
        (interceptor.batchMachine requests).step call label = some next ∧
        next.world.process.isSome ∧
        next.phase.stepsLeft requests < call.phase.stepsLeft requests := by
    intro call running pending
    obtain ⟨process, present⟩ := Option.isSome_iff_exists.mp running
    obtain ⟨phase, advanced, fewer⟩ :=
      BatchPhase.advance_of_not_returned interceptor process.state pending
    refine ⟨.call, { call with phase }, rfl, trivial, ?_, running, fewer⟩
    simp [batchMachine, BatchCall.step, present, advanced]
  obtain ⟨more, after, own, run, -, done⟩ :=
    Machine.exists_run_of_rank _ (· = BatchLabel.call) progress running
  obtain ⟨world, phase⟩ := after
  cases phase with
  | returned result => exact ⟨more, _, result, own, run, rfl⟩
  | _ => simp [BatchPhase.stepsLeft] at done

/-- The result is the one for a batch that is too long. -/
def RejectedForSize (result : Except InterceptError (List Request)) : Prop :=
  ∃ cause error, result = .error cause ∧ cause.root = .maxBatchSizeExceeded error

/-- The result is, request by request, what `InterceptRequest` returns on `seen`. -/
structure AgreesWithSingle (interceptor : Interceptor) (requests : List Request)
    (seen : EspressoState) (result : Except InterceptError (List Request)) : Prop where
  each : ∀ next, result = .ok next → List.Forall₂
    (fun request rewritten => interceptor.interceptRequest seen request = .ok rewritten)
    requests next
  fails_iff : (∃ cause, result = .error cause) ↔
    ∃ request ∈ requests, ∃ cause, interceptor.interceptRequest seen request = .error cause

theorem root_of_interceptRequest {request : Request} {cause : InterceptError}
    (failed : interceptor.interceptRequest seen request = .error cause) :
    cause.root = depthError := by
  unfold interceptRequest at failed
  split at failed
  · cases failed
  · unfold interceptRequestWithNumber at failed
    split at failed
    · rename_i walked
      cases failed
      exact root_of_replaceTagInParams _ walked
    · cases failed
    · cases failed

theorem interceptBatchRequests_agrees (seen : EspressoState)
    (within : requests.length ≤ interceptor.maxBatchSize) :
    AgreesWithSingle interceptor requests seen
        (interceptor.interceptBatchRequests seen requests) ∧
      ¬ RejectedForSize (interceptor.interceptBatchRequests seen requests) := by
  rw [interceptBatchRequests_eq_mapM seen within]
  rcases mapM_cases (f := interceptor.interceptRequest seen) requests with
    ⟨next, returned, each⟩ | ⟨cause, failed, request, present, cause_eq⟩
  · rw [returned]
    refine ⟨⟨fun result same => Except.ok.inj same ▸ each, ?_⟩, ?_⟩
    · constructor
      · rintro ⟨cause, failed⟩
        cases failed
      · rintro ⟨request, present, cause, failed⟩
        obtain ⟨rewritten, -, succeeded⟩ := exists_mem_of_forall₂ each present
        rw [failed] at succeeded
        cases succeeded
    · rintro ⟨cause, error, failed, -⟩
      cases failed
  · rw [failed]
    refine ⟨⟨fun result same => (by cases same), ?_⟩, ?_⟩
    · exact ⟨fun _ => ⟨request, present, cause, cause_eq⟩, fun _ => ⟨cause, rfl⟩⟩
    · rintro ⟨inner, error, same, size⟩
      cases same
      rw [root_of_interceptRequest cause_eq] at size
      cases size

/-- What the documented limit asks of a result, where 0 is no limit: a rejection exactly if the
batch is longer than the limit, and otherwise one state read during the call on which the
result agrees with the single requests. -/
structure AsDocumented (interceptor : Interceptor) (requests : List Request) (start : BatchCall)
    (labels : List BatchLabel) (result : Except InterceptError (List Request)) : Prop where
  rejected_iff : RejectedForSize result ↔
    0 < interceptor.maxBatchSize ∧ interceptor.maxBatchSize < requests.length
  agrees : ¬ RejectedForSize result → ∃ seen, interceptor.ReadDuring requests start seen labels ∧
    AgreesWithSingle interceptor requests seen result

/-- A batch that is longer than the limit was rejected, which is as documented unless the limit
is 0. -/
theorem asDocumented_of_beyond (beyond : interceptor.maxBatchSize < requests.length) :
    AsDocumented interceptor requests start labels
        (.error (interceptor.batchSizeError requests.length)) ↔
      0 < interceptor.maxBatchSize := by
  have rejected : RejectedForSize (.error (interceptor.batchSizeError requests.length)) :=
    ⟨_, _, rfl, rfl⟩
  constructor
  · intro documented
    exact (documented.rejected_iff.mp rejected).1
  · intro positive
    exact ⟨iff_of_true rejected ⟨positive, beyond⟩, fun accepted => absurd rejected accepted⟩

theorem asDocumented_of_within (within : requests.length ≤ interceptor.maxBatchSize)
    (read : interceptor.ReadDuring requests start seen labels) :
    AsDocumented interceptor requests start labels
      (interceptor.interceptBatchRequests seen requests) := by
  obtain ⟨agrees, accepted⟩ := interceptBatchRequests_agrees seen within
  refine ⟨iff_of_false accepted fun rejected => ?_, fun _ => ⟨seen, read, agrees⟩⟩
  exact absurd rejected.2 (Nat.not_lt.mpr within)

/-- Every call returns, and what it returns is as documented exactly if the limit is positive or
the batch is empty. -/
theorem batch_agrees_with_single_iff {after : BatchCall} (begins : start.phase = .checking)
    (running : start.world.process.isSome)
    (run : (interceptor.batchMachine requests).Reaches start labels after) :
    (∃ more final result, (∀ label ∈ more, label = BatchLabel.call) ∧
      (interceptor.batchMachine requests).Reaches after more final ∧
      final.phase = .returned result) ∧
    ∀ result, after.phase = .returned result →
      (AsDocumented interceptor requests start labels result ↔
        0 < interceptor.maxBatchSize ∨ requests = []) := by
  refine ⟨exists_returned (running_of_runs run running), fun result returned => ?_⟩
  have refines := batch_refines run begins
  rw [returned] at refines
  rcases refines with ⟨beyond, rfl⟩ | ⟨within, seen, read, rfl⟩
  · have nonempty : requests ≠ [] := by
      rintro rfl
      cases beyond
    rw [asDocumented_of_beyond beyond, or_iff_left nonempty]
  · refine iff_of_true (asDocumented_of_within within read) ?_
    rcases Nat.eq_zero_or_pos interceptor.maxBatchSize with zero | positive
    · rw [zero] at within
      exact .inr (List.length_eq_zero_iff.mp (Nat.le_zero.mp within))
    · exact .inl positive

/-- A call with one request that carries the tag, and the world it runs in. -/
def sampleBatch : List Request := [⟨.null, "eth_call", .array [.string "espresso"], []⟩]

def sampleCall : BatchCall :=
  ⟨⟨.holding ⟨7, 3, 1⟩, some ⟨⟨7, 3, 1⟩, .idle⟩, []⟩, .checking⟩

/-- The store moves from 7 to 9 between the check and the read. -/
theorem batch_agrees_with_single_during_update :
    ∃ after result, (Interceptor.batchMachine ⟨"espresso", 1⟩ sampleBatch).Reaches sampleCall
        [.call, .environment (.beginUpdate 9 4 2), .environment (.write true),
          .environment .commit, .call, .call, .call] after ∧
      after.phase = .returned result ∧
      ∃ seen, AgreesWithSingle ⟨"espresso", 1⟩ sampleBatch seen result := by
  obtain ⟨after, computed, returned⟩ : ∃ after,
      (Interceptor.batchMachine ⟨"espresso", 1⟩ sampleBatch).exec (fun _ _ => True) sampleCall
        [.call, .environment (.beginUpdate 9 4 2), .environment (.write true),
          .environment .commit, .call, .call, .call] = some after ∧
      after.phase = .returned (.ok [⟨.null, "eth_call", .array [.string "0x9"], []⟩]) :=
    ⟨_, rfl, rfl⟩
  have run := Machine.Runs.ofExec computed
  have documented := ((batch_agrees_with_single_iff rfl rfl run).2 _ returned).mpr
    (.inl (by decide))
  have accepted : ¬ RejectedForSize (.ok [⟨.null, "eth_call", .array [.string "0x9"], []⟩]) := by
    rintro ⟨cause, error, failed, -⟩
    cases failed
  obtain ⟨seen, -, agrees⟩ := documented.agrees accepted
  exact ⟨after, _, run, returned, seen, agrees⟩

/-- With the limit 0, documented as no limit, a batch of one request is rejected for its
size. -/
theorem batch_rejected_without_limit :
    ∃ after result, (Interceptor.batchMachine ⟨"espresso", 0⟩ sampleBatch).Reaches sampleCall
        [.call] after ∧
      after.phase = .returned result ∧
      ¬ (RejectedForSize result ↔
        0 < Interceptor.maxBatchSize ⟨"espresso", 0⟩ ∧
          Interceptor.maxBatchSize ⟨"espresso", 0⟩ < sampleBatch.length) := by
  obtain ⟨after, computed, returned⟩ : ∃ after,
      (Interceptor.batchMachine ⟨"espresso", 0⟩ sampleBatch).exec (fun _ _ => True) sampleCall
        [.call] = some after ∧
      after.phase = .returned (.error (Interceptor.batchSizeError ⟨"espresso", 0⟩ 1)) :=
    ⟨_, rfl, rfl⟩
  refine ⟨after, _, Machine.Runs.ofExec computed, returned, fun expected => ?_⟩
  exact absurd (expected.mp ⟨_, _, rfl, rfl⟩).1 (by decide)

end Interceptor
end EspressoProxy.Proxy
