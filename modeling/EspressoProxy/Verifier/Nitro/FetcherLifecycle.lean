import EspressoProxy.Verifier.Nitro.FetcherMachine

/-!
# Stopping the delayed message fetcher

`Stop` takes the lock `mu`, cancels the context and waits for the polling goroutine, all
under the lock. The goroutine takes the same lock in `poll`, in `extractInboxData` and in
`updateParentBlockNumber`. The machine of this module has every acquisition and release of
the lock as a step of its own; what happens under the lock, and the answers of the parent
chain, are the steps of `FetcherState.pollStep`.

`Stop` deadlocks with a goroutine that has all its answers and is about to take the lock.
It cannot do so if it gets the lock while the goroutine waits for the ticker or for an
answer, and the answers that come later are failures.
-/

namespace EspressoProxy.Verifier.Nitro

open EspressoProxy.Ethereum EspressoProxy.Semantics

/-- Who holds `mu`. -/
inductive LockHolder where
  | poller
  | stop
deriving DecidableEq, Repr

/-- Where the goroutine of `run` is. `exited` is also the phase before `Start`: the wait
group counts no goroutine. An `extracted` goroutine has the message of a log and is about
to store it, and a `holding` one is in a section under the lock. -/
inductive GoroutinePhase where
  | exited
  | waiting
  | polling
  | extracted (transaction : Option Bytes)
  | holding (label : PollLabel)
deriving DecidableEq, Repr

/-- Where the call of `Stop` is. It holds `mu` from `locked` to `waiting`. -/
inductive StopPhase where
  | notCalled
  | locked
  | cancelling
  | waiting
  | returned
deriving DecidableEq, Repr

def StopPhase.Holds : StopPhase → Prop
  | .locked | .cancelling | .waiting => True
  | .notCalled | .returned => False

instance (phase : StopPhase) : Decidable phase.Holds :=
  match phase with
  | .locked | .cancelling | .waiting => .isTrue trivial
  | .notCalled | .returned => .isFalse id

/-- The goroutine is not in a poll. -/
def GoroutinePhase.OutsidePoll : GoroutinePhase → Prop
  | .exited | .waiting => True
  | .polling | .extracted _ | .holding _ => False

structure Lifecycle where
  fetcher : FetcherState
  goroutine : GoroutinePhase
  stop : StopPhase
  mu : Option LockHolder
  running : Bool
  cancelled : Bool

inductive LifecycleLabel where
  | tick
  | exit
  | call (label : PollLabel)
  | acquire
  | release
  | stopLock
  | stopCheck
  | stopCancel
  | stopWait
deriving DecidableEq, Repr

namespace Lifecycle

/-- A fetcher that has not been started. -/
def new (fetcher : DelayedMessageFetcher) : Lifecycle where
  fetcher := ⟨fetcher, .idle, .idle, []⟩
  goroutine := .exited
  stop := .notCalled
  mu := none
  running := false
  cancelled := false

/-- `Start`. -/
def start (state : Lifecycle) : Lifecycle :=
  if state.running then state
  else { state with running := true, cancelled := false, goroutine := .waiting }

/-- The section under `mu` that the goroutine has come to. -/
def pendingLock (state : Lifecycle) : Option PollLabel :=
  match state.goroutine, state.fetcher.poll with
  | .polling, .headersKnown _ _ => some .start
  | .polling, .storing ⟨_, _, _, [], _⟩ => some .update
  | .extracted transaction, _ => some (.extract transaction)
  | _, _ => none

/-- The goroutine after a step of a poll: a poll that is over leads back to the ticker. -/
def afterPoll (fetcher : FetcherState) : GoroutinePhase :=
  match fetcher.poll with
  | .idle => .waiting
  | _ => .polling

end Lifecycle

variable (config : FetcherConfig)

namespace Lifecycle

/-- A step of a poll outside the lock: an answer of the parent chain, or the extraction of
a message up to the point where it is stored. -/
def answer (state : Lifecycle) : PollLabel → Option Lifecycle
  | .start | .update => none
  | .extract transaction =>
      match state.fetcher.poll with
      | .storing job =>
          match job.remaining with
          | [] => none
          | log :: _ =>
              match extractInboxLog config (collectEvents job.events) job.range.finalized log
                  transaction with
              | .error _ =>
                  some { state with
                    fetcher := { state.fetcher with poll := .idle }
                    goroutine := .waiting }
              | .ok _ => some { state with goroutine := .extracted transaction }
      | _ => none
  | label =>
      (state.fetcher.pollStep config label).map fun fetcher =>
        { state with fetcher, goroutine := afterPoll fetcher }

/-- One step of `run`, with `poll`, or of `Stop`. -/
def step (state : Lifecycle) : LifecycleLabel → Option Lifecycle
  | .tick =>
      match state.goroutine with
      | .waiting => some { state with goroutine := .polling }
      | _ => none
  | .exit =>
      match state.goroutine, state.cancelled with
      | .waiting, true => some { state with goroutine := .exited }
      | _, _ => none
  | .call label =>
      match state.goroutine with
      | .polling => state.answer config label
      | _ => none
  | .acquire =>
      match state.mu, state.pendingLock with
      | none, some label => some { state with mu := some .poller, goroutine := .holding label }
      | _, _ => none
  | .release =>
      match state.goroutine with
      | .holding label =>
          (state.fetcher.pollStep config label).map fun fetcher =>
            { state with fetcher, goroutine := afterPoll fetcher, mu := none }
      | _ => none
  | .stopLock =>
      match state.stop, state.mu with
      | .notCalled, none => some { state with stop := .locked, mu := some .stop }
      | _, _ => none
  | .stopCheck =>
      match state.stop with
      | .locked =>
          if state.running then some { state with running := false, stop := .cancelling }
          else some { state with mu := none, stop := .returned }
      | _ => none
  | .stopCancel =>
      match state.stop with
      | .cancelling => some { state with cancelled := true, stop := .waiting }
      | _ => none
  | .stopWait =>
      match state.stop, state.goroutine with
      | .waiting, .exited => some { state with mu := none, stop := .returned }
      | _, _ => none

/-- `Stop` waits for the goroutine under the lock that the goroutine needs to go on. -/
def Deadlocked (state : Lifecycle) : Prop :=
  state.stop = .waiting ∧ state.mu = some .stop ∧ state.pendingLock.isSome

end Lifecycle

/-- `Stop` and the polling goroutine. -/
def lifecycleMachine : Machine Lifecycle LifecycleLabel where
  step := Lifecycle.step config

/-! ### What each step can do -/

inductive LifecycleOutcome (before : Lifecycle) : LifecycleLabel → Lifecycle → Prop where
  | ticked (phase : before.goroutine = .waiting) :
      LifecycleOutcome before .tick { before with goroutine := .polling }
  | exited (phase : before.goroutine = .waiting) (cancelled : before.cancelled = true) :
      LifecycleOutcome before .exit { before with goroutine := .exited }
  | answered {label : PollLabel} {fetcher : FetcherState} (phase : before.goroutine = .polling)
      (outside : label ≠ .start ∧ label ≠ .update)
      (moved : before.fetcher.pollStep config label = some fetcher) :
      LifecycleOutcome before (.call label)
        { before with fetcher, goroutine := Lifecycle.afterPoll fetcher }
  | extracted {job : StoreJob} {log : Log} {rest : List Log} {transaction : Option Bytes}
      {message : DelayedMessage} (phase : before.goroutine = .polling)
      (storing : before.fetcher.poll = .storing job) (next : job.remaining = log :: rest)
      (result : extractInboxLog config (collectEvents job.events) job.range.finalized log
        transaction = .ok message) :
      LifecycleOutcome before (.call (.extract transaction))
        { before with goroutine := .extracted transaction }
  | acquired {label : PollLabel} (free : before.mu = none)
      (pending : before.pendingLock = some label) :
      LifecycleOutcome before .acquire
        { before with mu := some .poller, goroutine := .holding label }
  | released {label : PollLabel} {fetcher : FetcherState}
      (phase : before.goroutine = .holding label)
      (moved : before.fetcher.pollStep config label = some fetcher) :
      LifecycleOutcome before .release
        { before with fetcher, goroutine := Lifecycle.afterPoll fetcher, mu := none }
  | stopLocked (phase : before.stop = .notCalled) (free : before.mu = none) :
      LifecycleOutcome before .stopLock { before with stop := .locked, mu := some .stop }
  | stopChecked (phase : before.stop = .locked) :
      LifecycleOutcome before .stopCheck
        { before with running := false, stop := .cancelling }
  | stopRefused (phase : before.stop = .locked) :
      LifecycleOutcome before .stopCheck { before with mu := none, stop := .returned }
  | stopCancelled (phase : before.stop = .cancelling) :
      LifecycleOutcome before .stopCancel { before with cancelled := true, stop := .waiting }
  | stopped (phase : before.stop = .waiting) (finished : before.goroutine = .exited) :
      LifecycleOutcome before .stopWait { before with mu := none, stop := .returned }

variable {config}

theorem answer_outcome {before after : Lifecycle} {label : PollLabel}
    (phase : before.goroutine = .polling)
    (transition : before.answer config label = some after) :
    LifecycleOutcome config before (.call label) after := by
  unfold Lifecycle.answer at transition
  split at transition
  · cases transition
  · cases transition
  · rename_i transaction
    split at transition
    · rename_i job storing
      split at transition
      · cases transition
      · rename_i log rest next
        split at transition
        · rename_i failure
          cases transition
          have moved : before.fetcher.pollStep config (.extract transaction) =
              some { before.fetcher with poll := .idle } := by
            simp only [FetcherState.pollStep, storing, next, failure]
          exact .answered phase ⟨PollLabel.noConfusion, PollLabel.noConfusion⟩ moved
        · rename_i result
          cases transition
          exact .extracted phase storing next result
    · cases transition
  · obtain ⟨fetcher, moved, rfl⟩ := Option.map_eq_some_iff.mp transition
    rename_i notStart notUpdate _
    exact .answered phase ⟨notStart, notUpdate⟩ moved

theorem lifecycleStep_outcome {before after : Lifecycle} {label : LifecycleLabel}
    (transition : (lifecycleMachine config).step before label = some after) :
    LifecycleOutcome config before label after := by
  obtain ⟨fetcher, goroutine, stop, mu, running, cancelled⟩ := before
  simp only [lifecycleMachine] at transition
  cases label with
  | tick =>
      simp only [Lifecycle.step] at transition
      split at transition <;> cases transition
      exact .ticked rfl
  | exit =>
      simp only [Lifecycle.step] at transition
      split at transition <;> cases transition
      exact .exited rfl rfl
  | call label =>
      simp only [Lifecycle.step] at transition
      split at transition
      · exact answer_outcome rfl transition
      · cases transition
  | acquire =>
      simp only [Lifecycle.step] at transition
      split at transition <;> cases transition
      rename_i pending
      exact .acquired rfl pending
  | release =>
      simp only [Lifecycle.step] at transition
      split at transition
      · obtain ⟨moved, result, rfl⟩ := Option.map_eq_some_iff.mp transition
        exact .released rfl result
      · cases transition
  | stopLock =>
      simp only [Lifecycle.step] at transition
      split at transition <;> cases transition
      exact .stopLocked rfl rfl
  | stopCheck =>
      simp only [Lifecycle.step] at transition
      split at transition
      · split at transition <;> cases transition
        · exact .stopChecked rfl
        · exact .stopRefused rfl
      · cases transition
  | stopCancel =>
      simp only [Lifecycle.step] at transition
      split at transition <;> cases transition
      exact .stopCancelled rfl
  | stopWait =>
      simp only [Lifecycle.step] at transition
      split at transition <;> cases transition
      exact .stopped rfl rfl

/-- Every run here is a run of the fetcher's own machine. -/
theorem lifecycle_fetcher_reaches {admits : Lifecycle → LifecycleLabel → Prop}
    {start state : Lifecycle} {labels : List LifecycleLabel}
    (run : (lifecycleMachine config).Runs admits start labels state) :
    ∃ actions, (fetcherMachine config).Reaches start.fetcher actions state.fetcher := by
  refine run.project Lifecycle.fetcher fun transition => ?_
  cases lifecycleStep_outcome transition with
  | answered _ _ moved | released _ moved => exact .inr ⟨.poll _, moved⟩
  | ticked | exited | extracted | acquired | stopLocked | stopChecked | stopRefused
  | stopCancelled | stopped => exact .inl rfl

/-- A goroutine that is in a poll and about to take the lock has the two headers or is done
with the logs. -/
theorem Lifecycle.poll_of_pendingLock {state : Lifecycle} (phase : state.goroutine = .polling)
    (pending : state.pendingLock.isSome) :
    (∃ endBlock finalized, state.fetcher.poll = .headersKnown endBlock finalized) ∨
      ∃ job, state.fetcher.poll = .storing job ∧ job.remaining = [] := by
  unfold Lifecycle.pendingLock at pending
  split at pending
  · rename_i known
    exact .inl ⟨_, _, known⟩
  · rename_i storing
    exact .inr ⟨_, storing, rfl⟩
  · rename_i extracted
    rw [phase] at extracted
    cases extracted
  · cases pending

/-- A deadlock is for good: neither `Stop` nor the goroutine has a step. -/
theorem Lifecycle.Deadlocked.stuck {state : Lifecycle} (deadlocked : state.Deadlocked)
    (label : LifecycleLabel) : (lifecycleMachine config).step state label = none := by
  obtain ⟨waits, held, pending⟩ := deadlocked
  refine Option.eq_none_iff_forall_ne_some.mpr fun next transition => ?_
  cases lifecycleStep_outcome transition with
  | ticked phase | exited phase | released phase =>
      simp [Lifecycle.pendingLock, phase] at pending
  | @answered label fetcher phase outside moved =>
      rcases Lifecycle.poll_of_pendingLock phase pending with
        ⟨endBlock, finalized, known⟩ | ⟨job, storing, finished⟩
      · cases label with
        | start => exact outside.1 rfl
        | update => exact outside.2 rfl
        | latest | finalized | bridge | inbox | extract =>
            simp [FetcherState.pollStep, known] at moved
      · cases label with
        | start => exact outside.1 rfl
        | update => exact outside.2 rfl
        | latest | finalized | bridge | inbox | extract =>
            simp [FetcherState.pollStep, storing, finished] at moved
  | extracted phase storing next =>
      rcases Lifecycle.poll_of_pendingLock phase pending with
        ⟨endBlock, finalized, known⟩ | ⟨job, other, finished⟩
      · rw [known] at storing
        cases storing
      · cases storing.symm.trans other
        rw [finished] at next
        cases next
  | acquired free =>
      rw [free] at held
      cases held
  | stopLocked phase | stopChecked phase | stopRefused phase | stopCancelled phase =>
      rw [phase] at waits
      cases waits
  | stopped _ finished => simp [Lifecycle.pendingLock, finished] at pending

/-! ### Interrupted polls -/

/-- The answer of the parent chain is a failure. -/
def PollLabel.Fails : PollLabel → Prop
  | .latest none | .finalized none | .bridge none | .inbox none | .extract none => True
  | _ => False

instance (label : PollLabel) : Decidable label.Fails :=
  match label with
  | .latest none | .finalized none | .bridge none | .inbox none | .extract none =>
      .isTrue trivial
  | .latest (some _) | .finalized (some _) | .bridge (some _) | .inbox (some _)
  | .extract (some _) | .start | .update => .isFalse id

/-- The goroutine waits for an answer of the parent chain that ends the poll if it is a
failure. -/
def PollPhase.AwaitsAnswer (config : FetcherConfig) : PollPhase → Prop
  | .idle | .latestKnown _ | .scanning _ | .delivered _ _ => True
  | .headersKnown _ _ | .storing ⟨_, _, _, [], _⟩ => False
  | .storing ⟨range, events, _, log :: _, _⟩ =>
      (extractInboxLog config (collectEvents events) range.finalized log none).isOk = false

instance (phase : PollPhase) : Decidable (phase.AwaitsAnswer config) :=
  match phase with
  | .idle | .latestKnown _ | .scanning _ | .delivered _ _ => .isTrue trivial
  | .headersKnown _ _ | .storing ⟨_, _, _, [], _⟩ => .isFalse id
  | .storing ⟨range, events, _, log :: _, _⟩ =>
      inferInstanceAs (Decidable ((extractInboxLog config (collectEvents events)
        range.finalized log none).isOk = false))

/-- There is no goroutine, it is at the ticker, or it waits for an answer. -/
def Lifecycle.Interruptible (config : FetcherConfig) (state : Lifecycle) : Prop :=
  state.goroutine = .exited ∨ state.goroutine = .waiting ∨
    state.goroutine = .polling ∧ state.fetcher.poll.AwaitsAnswer config

instance (state : Lifecycle) : Decidable (state.Interruptible config) :=
  inferInstanceAs (Decidable (_ ∨ _))

/-- `Stop` gets the lock while the goroutine can be interrupted, and calls that end while
it holds the lock fail. -/
def CallsFailUnderStop (config : FetcherConfig) (state : Lifecycle) : LifecycleLabel → Prop
  | .stopLock => state.Interruptible config
  | .call label => state.stop.Holds → label.Fails
  | _ => True

instance (state : Lifecycle) (label : LifecycleLabel) :
    Decidable (CallsFailUnderStop config state label) :=
  match label with
  | .stopLock => inferInstanceAs (Decidable (state.Interruptible config))
  | .call label => inferInstanceAs (Decidable (state.stop.Holds → label.Fails))
  | .tick | .exit | .acquire | .release | .stopCheck | .stopCancel | .stopWait => .isTrue trivial

theorem PollPhase.AwaitsAnswer.extraction_fails {job : StoreJob} {log : Log} {rest : List Log}
    (awaits : (PollPhase.storing job).AwaitsAnswer config) (next : job.remaining = log :: rest) :
    (extractInboxLog config (collectEvents job.events) job.range.finalized log none).isOk =
      false := by
  obtain ⟨range, events, logs, remaining, stored⟩ := job
  subst next
  exact awaits

/-- A log whose extraction waits for a transaction is not extracted by a failure. -/
theorem PollPhase.AwaitsAnswer.not_extracted {poll : PollPhase} {job : StoreJob} {log : Log}
    {rest : List Log} {transaction : Option Bytes} {message : DelayedMessage}
    (awaits : poll.AwaitsAnswer config) (fails : (PollLabel.extract transaction).Fails)
    (storing : poll = .storing job) (next : job.remaining = log :: rest) :
    extractInboxLog config (collectEvents job.events) job.range.finalized log transaction ≠
      .ok message := by
  intro extracted
  rw [storing] at awaits
  cases transaction with
  | some => cases fails
  | none =>
      have failed := awaits.extraction_fails next
      rw [extracted] at failed
      cases failed

/-- A failure ends a poll that waits for an answer. -/
theorem PollPhase.AwaitsAnswer.ends {before after : FetcherState} {label : PollLabel}
    (awaits : before.poll.AwaitsAnswer config) (fails : label.Fails)
    (moved : before.pollStep config label = some after) : after.poll = .idle := by
  cases pollStep_outcome moved with
  | abandoned => rfl
  | latest | finalized | started | noEvents | delivered | logged | updated => cases fails
  | stored phase next extracted => exact absurd extracted (awaits.not_extracted fails phase next)

/-- A poll that waits for an answer can be given a failure. -/
theorem PollPhase.AwaitsAnswer.exists_failure {state : Lifecycle}
    (awaits : state.fetcher.poll.AwaitsAnswer config) :
    ∃ label, PollLabel.Fails label ∧ (state.answer config label).isSome := by
  cases phase : state.fetcher.poll with
  | idle => exact ⟨.latest none, trivial, by simp [Lifecycle.answer, FetcherState.pollStep, phase]⟩
  | latestKnown =>
      exact ⟨.finalized none, trivial, by simp [Lifecycle.answer, FetcherState.pollStep, phase]⟩
  | scanning =>
      exact ⟨.bridge none, trivial, by simp [Lifecycle.answer, FetcherState.pollStep, phase]⟩
  | delivered =>
      exact ⟨.inbox none, trivial, by simp [Lifecycle.answer, FetcherState.pollStep, phase]⟩
  | headersKnown =>
      rw [phase] at awaits
      cases awaits
  | storing job =>
      rw [phase] at awaits
      cases next : job.remaining with
      | nil =>
          obtain ⟨range, events, logs, remaining, stored⟩ := job
          subst next
          cases awaits
      | cons log rest =>
          refine ⟨.extract none, trivial, ?_⟩
          simp only [Lifecycle.answer, phase, next]
          split
          · rfl
          · rfl

/-- What holds as long as `Stop` meets the goroutine only where it can be interrupted. -/
structure Lifecycle.Orderly (config : FetcherConfig) (state : Lifecycle) : Prop where
  idle : state.goroutine.OutsidePoll → state.fetcher.poll = .idle
  held : state.stop.Holds → state.mu = some .stop ∧ state.Interruptible config
  cancelled : state.stop = .waiting → state.cancelled = true

theorem Lifecycle.Interruptible.awaitsAnswer {state : Lifecycle}
    (interruptible : state.Interruptible config) (phase : state.goroutine = .polling) :
    state.fetcher.poll.AwaitsAnswer config := by
  rcases interruptible with exited | waiting | ⟨-, awaits⟩
  · rw [phase] at exited
    cases exited
  · rw [phase] at waiting
    cases waiting
  · exact awaits

theorem afterPoll_of_idle {fetcher : FetcherState} (idle : fetcher.poll = .idle) :
    Lifecycle.afterPoll fetcher = .waiting := by
  simp [Lifecycle.afterPoll, idle]

theorem idle_of_afterPoll {fetcher : FetcherState}
    (phase : (Lifecycle.afterPoll fetcher).OutsidePoll) : fetcher.poll = .idle := by
  unfold Lifecycle.afterPoll at phase
  split at phase
  · assumption
  · cases phase

theorem Lifecycle.Orderly.step {before after : Lifecycle} {label : LifecycleLabel}
    (prior : before.Orderly config) (admitted : CallsFailUnderStop config before label)
    (transition : (lifecycleMachine config).step before label = some after) :
    after.Orderly config := by
  cases lifecycleStep_outcome transition with
  | ticked phase =>
      refine ⟨False.elim, fun holds => ⟨(prior.held holds).1, ?_⟩, prior.cancelled⟩
      have idle := prior.idle (phase ▸ trivial)
      refine .inr (.inr ⟨rfl, ?_⟩)
      change before.fetcher.poll.AwaitsAnswer config
      rw [idle]
      trivial
  | exited phase =>
      exact ⟨fun _ => prior.idle (phase ▸ trivial), fun holds => ⟨(prior.held holds).1, .inl rfl⟩,
        prior.cancelled⟩
  | answered phase outside moved =>
      refine ⟨idle_of_afterPoll, fun holds => ⟨(prior.held holds).1, ?_⟩, prior.cancelled⟩
      have awaits := (prior.held holds).2.awaitsAnswer phase
      exact .inr (.inl (afterPoll_of_idle (awaits.ends (admitted holds) moved)))
  | extracted phase storing next result =>
      refine ⟨False.elim, fun holds => ?_, prior.cancelled⟩
      -- The extraction succeeded, so it was not one that waits for a transaction.
      have awaits := (prior.held holds).2.awaitsAnswer phase
      exact absurd result (awaits.not_extracted (admitted holds) storing next)
  | acquired free =>
      refine ⟨False.elim, fun holds => ?_, prior.cancelled⟩
      have held := (prior.held holds).1
      rw [free] at held
      cases held
  | released phase =>
      refine ⟨idle_of_afterPoll, fun holds => ?_, prior.cancelled⟩
      have interruptible := (prior.held holds).2
      simp [Lifecycle.Interruptible, phase] at interruptible
  | stopLocked => exact ⟨prior.idle, fun _ => ⟨rfl, admitted⟩, StopPhase.noConfusion⟩
  | stopChecked phase =>
      exact ⟨prior.idle, fun _ => prior.held (phase ▸ trivial), StopPhase.noConfusion⟩
  | stopCancelled phase =>
      exact ⟨prior.idle, fun _ => prior.held (phase ▸ trivial), fun _ => rfl⟩
  | stopRefused | stopped =>
      exact ⟨prior.idle, False.elim, StopPhase.noConfusion⟩

theorem Lifecycle.orderly_start (fetcher : DelayedMessageFetcher) :
    (Lifecycle.new fetcher).start.Orderly config :=
  ⟨fun _ => rfl, False.elim, StopPhase.noConfusion⟩

theorem Lifecycle.Orderly.not_deadlocked {state : Lifecycle} (orderly : state.Orderly config) :
    ¬ state.Deadlocked := by
  rintro ⟨waits, -, pending⟩
  rcases (orderly.held (waits ▸ trivial)).2 with exited | waiting | ⟨polling, awaits⟩
  · simp [Lifecycle.pendingLock, exited] at pending
  · simp [Lifecycle.pendingLock, waiting] at pending
  · rcases Lifecycle.poll_of_pendingLock polling pending with
      ⟨endBlock, finalized, known⟩ | ⟨⟨range, events, logs, remaining, stored⟩, storing, finished⟩
    · rw [known] at awaits
      exact awaits
    · subst finished
      rw [storing] at awaits
      exact awaits

/-- How far a waiting `Stop` is from its return. -/
def Lifecycle.distance (state : Lifecycle) : Nat :=
  match state.stop, state.goroutine with
  | .waiting, .exited => 1
  | .waiting, .waiting => 2
  | .waiting, _ => 3
  | _, _ => 0

/-- A waiting `Stop` comes closer to its return by a step that is admitted. -/
theorem Lifecycle.Orderly.progress {state : Lifecycle} (orderly : state.Orderly config)
    (waits : state.stop = .waiting) :
    ∃ label next, CallsFailUnderStop config state label ∧
      (lifecycleMachine config).step state label = some next ∧
      (next.stop = .waiting ∨ next.stop = .returned) ∧ next.distance < state.distance := by
  have interruptible := (orderly.held (waits ▸ trivial)).2
  rcases interruptible with exited | waiting | ⟨polling, awaits⟩
  · refine ⟨.stopWait, { state with mu := none, stop := .returned }, trivial, ?_, .inr rfl, ?_⟩
    · simp [lifecycleMachine, Lifecycle.step, waits, exited]
    · simp [Lifecycle.distance, waits, exited]
  · refine ⟨.exit, { state with goroutine := .exited }, trivial, ?_, .inl waits, ?_⟩
    · simp [lifecycleMachine, Lifecycle.step, waiting, orderly.cancelled waits]
    · simp [Lifecycle.distance, waits, waiting]
  · obtain ⟨label, fails, enabled⟩ := awaits.exists_failure
    obtain ⟨next, answered⟩ := Option.isSome_iff_exists.mp enabled
    have transition : (lifecycleMachine config).step state (.call label) = some next := by
      simp [lifecycleMachine, Lifecycle.step, polling, answered]
    refine ⟨.call label, next, fun _ => fails, transition, ?_⟩
    cases lifecycleStep_outcome transition with
    | answered _ _ moved =>
        have waiting := afterPoll_of_idle (awaits.ends fails moved)
        refine ⟨.inl waits, ?_⟩
        simp [Lifecycle.distance, waits, waiting, polling]
    | extracted _ storing next result =>
        exact absurd result (awaits.not_extracted fails storing next)

theorem Lifecycle.Orderly.exists_return {state : Lifecycle} (orderly : state.Orderly config)
    (waits : state.stop = .waiting) :
    ∃ more final, (lifecycleMachine config).Runs (CallsFailUnderStop config) state more final ∧
      final.stop = .returned := by
  have progress : ∀ current : Lifecycle,
      current.Orderly config ∧ (current.stop = .waiting ∨ current.stop = .returned) →
      0 < current.distance → ∃ label next, True ∧ CallsFailUnderStop config current label ∧
        (lifecycleMachine config).step current label = some next ∧
        (next.Orderly config ∧ (next.stop = .waiting ∨ next.stop = .returned)) ∧
        next.distance < current.distance := by
    rintro current ⟨prior, waiting | returned⟩ positive
    · obtain ⟨label, next, admitted, transition, phase, closer⟩ := prior.progress waiting
      exact ⟨label, next, trivial, admitted, transition,
        ⟨prior.step admitted transition, phase⟩, closer⟩
    · simp [Lifecycle.distance, returned] at positive
  obtain ⟨more, final, -, run, ⟨-, waiting | returned⟩, done⟩ :=
    Machine.exists_run_of_rank Lifecycle.distance (fun _ => True) progress
      ⟨orderly, .inl waits⟩
  · cases phase : final.goroutine <;> simp [Lifecycle.distance, waiting, phase] at done
  · exact ⟨more, final, run, returned⟩

/-- If `Stop` gets the lock only while the goroutine is at the ticker, gone or waiting for an
answer, and the calls that end while it holds the lock fail, it never waits for a goroutine
that needs the lock, and once it waits it can return. -/
theorem stop_never_deadlocks {fetcher : DelayedMessageFetcher} {labels : List LifecycleLabel}
    {state : Lifecycle}
    (run : (lifecycleMachine config).Runs (CallsFailUnderStop config)
      (Lifecycle.new fetcher).start labels state) :
    ¬ state.Deadlocked ∧
      (state.stop = .waiting → ∃ more final,
        (lifecycleMachine config).Runs (CallsFailUnderStop config) state more final ∧
        final.stop = .returned) := by
  have orderly := run.invariant (Lifecycle.orderly_start fetcher) Lifecycle.Orderly.step
  exact ⟨orderly.not_deadlocked, orderly.exists_return⟩

/-- `Stop` is called while the goroutine waits for the finalized header. -/
theorem stop_never_deadlocks_during_call :
    ∃ state, (lifecycleMachine sampleConfig).Runs (CallsFailUnderStop sampleConfig)
        (Lifecycle.new (newDelayedMessageFetcher 0)).start
        [.tick, .call (.latest (some 10)), .stopLock, .stopCheck, .stopCancel] state ∧
      state.stop = .waiting ∧ state.goroutine = .polling ∧ ¬ state.Deadlocked ∧
      ∃ more final, (lifecycleMachine sampleConfig).Runs (CallsFailUnderStop sampleConfig)
        state more final ∧ final.stop = .returned := by
  obtain ⟨state, computed, waits, polling⟩ : ∃ state,
      (lifecycleMachine sampleConfig).exec (CallsFailUnderStop sampleConfig)
        (Lifecycle.new (newDelayedMessageFetcher 0)).start
        [.tick, .call (.latest (some 10)), .stopLock, .stopCheck, .stopCancel] = some state ∧
      state.stop = .waiting ∧ state.goroutine = .polling := ⟨_, rfl, rfl, rfl⟩
  have run := Machine.Runs.ofExec computed
  obtain ⟨notDeadlocked, returns⟩ := stop_never_deadlocks run
  exact ⟨state, run, waits, polling, notDeadlocked, returns waits⟩

/-- `Stop` is called when the goroutine has both headers. -/
theorem stop_deadlocks_with_poll :
    ∃ state, (lifecycleMachine sampleConfig).Reaches
        (Lifecycle.new (newDelayedMessageFetcher 0)).start
        [.tick, .call (.latest (some 10)), .call (.finalized (some 5)), .stopLock, .stopCheck,
          .stopCancel] state ∧
      state.Deadlocked ∧ ∀ label, (lifecycleMachine sampleConfig).step state label = none := by
  obtain ⟨state, computed, deadlocked⟩ : ∃ state,
      (lifecycleMachine sampleConfig).exec (fun _ _ => True)
        (Lifecycle.new (newDelayedMessageFetcher 0)).start
        [.tick, .call (.latest (some 10)), .call (.finalized (some 5)), .stopLock, .stopCheck,
          .stopCancel] = some state ∧
      state.Deadlocked := ⟨_, rfl, rfl, rfl, rfl⟩
  exact ⟨state, Machine.Runs.ofExec computed, deadlocked, deadlocked.stuck⟩

end EspressoProxy.Verifier.Nitro
