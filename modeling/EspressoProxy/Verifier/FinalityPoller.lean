import EspressoProxy.Semantics.Exclusive
import EspressoProxy.Semantics.Machine

/-!
# The finality poller

`Start` and `Stop` work on three atomics, one operation after the other: `running`,
`cancel` and the wait group. Any number of calls may be under way, and each operation is
one step of the machine of this module, as is each step of the goroutines of `run`. A
context is named by the order in which `Start` made it.

Calls that overlap can leave a goroutine behind that nobody cancels. They do not if no
`Stop` changes `running` before a `Start` has stored its cancel function, and no `Start`
before a `Stop` has returned. Then the poller is in one of six modes, as it would be with
one caller, and every context but that of the mode is cancelled.
-/

namespace EspressoProxy.Verifier

open EspressoProxy.Semantics

variable {T : Type}

/-- Where the goroutine of a context is. -/
inductive PollerGoroutine where
  | notSpawned
  | polling
  | waiting
  | exited
deriving DecidableEq, Repr

/-- A context that `Start` made, and the goroutine that runs under it. -/
structure PollerContext where
  cancelled : Bool
  goroutine : PollerGoroutine
deriving DecidableEq, Repr

/-- Where a call is: the operation that comes next. `Start` goes from `startSwap` to
`spawning`, `Stop` from `stopSwap` to `waiting`. -/
inductive PollerCall where
  | startSwap
  | storing (context : Nat)
  | adding (context : Nat)
  | spawning (context : Nat)
  | stopSwap
  | loading
  | cancelling (context : Option Nat)
  | waiting
  | returned
deriving DecidableEq, Repr

structure FinalityPoller (T : Type) where
  finalitySnapshot : Option T
  running : Bool
  cancel : Option Nat
  wg : Nat
  contexts : List PollerContext
  calls : List PollerCall

/-- The steps of a goroutine: the end of a poll, with a snapshot if it succeeded, and the two
cases of the loop of `run`. -/
inductive RunLabel (T : Type) where
  | polled (snapshot : Option T)
  | tick
  | exit

/-- A new call of `Start` or `Stop`, the next operation of a call, or a step of the goroutine
of a context. -/
inductive PollerLabel (T : Type) where
  | start
  | stop
  | advance (call : Nat)
  | goroutine (context : Nat) (label : RunLabel T)

/-- `NewFinalityPoller`. -/
def newFinalityPoller : FinalityPoller T := ⟨none, false, none, 0, [], []⟩

namespace FinalityPoller

def lastSnapshot (poller : FinalityPoller T) : Option T := poller.finalitySnapshot

def setGoroutine (poller : FinalityPoller T) (context : Nat) (goroutine : PollerGoroutine) :
    FinalityPoller T :=
  { poller with contexts := poller.contexts.modify context ({ · with goroutine }) }

/-- Call the cancel function of a context. -/
def cancelContext (poller : FinalityPoller T) (context : Nat) : FinalityPoller T :=
  { poller with contexts := poller.contexts.modify context ({ · with cancelled := true }) }

/-- The next operation of a call, and where it is then. The two swaps are followed by the
return if they fail; `waiting` is the operation `wg.Wait`. -/
def callStep (poller : FinalityPoller T) : PollerCall → Option (FinalityPoller T × PollerCall)
  | .startSwap =>
      if poller.running then some (poller, .returned)
      else
        some ({ poller with
          running := true
          contexts := poller.contexts ++ [⟨false, .notSpawned⟩] },
          .storing poller.contexts.length)
  | .storing context => some ({ poller with cancel := some context }, .adding context)
  | .adding context => some ({ poller with wg := poller.wg + 1 }, .spawning context)
  | .spawning context => some (poller.setGoroutine context .polling, .returned)
  | .stopSwap =>
      if poller.running then some ({ poller with running := false }, .loading)
      else some (poller, .returned)
  | .loading => some (poller, .cancelling poller.cancel)
  | .cancelling none => some (poller, .waiting)
  | .cancelling (some context) => some (poller.cancelContext context, .waiting)
  | .waiting => if poller.wg = 0 then some (poller, .returned) else none
  | .returned => none

/-- A step of `run`. The parent context is never cancelled, so a goroutine returns when its
own context is. -/
def runStep (poller : FinalityPoller T) (context : Nat) : RunLabel T → Option (FinalityPoller T)
  | .polled snapshot =>
      match poller.contexts[context]? with
      | some ⟨_, .polling⟩ =>
          some { poller.setGoroutine context .waiting with
            finalitySnapshot := snapshot <|> poller.finalitySnapshot }
      | _ => none
  | .tick =>
      match poller.contexts[context]? with
      | some ⟨_, .waiting⟩ => some (poller.setGoroutine context .polling)
      | _ => none
  | .exit =>
      match poller.contexts[context]? with
      | some ⟨true, .waiting⟩ =>
          some { poller.setGoroutine context .exited with wg := poller.wg - 1 }
      | _ => none

def step (poller : FinalityPoller T) : PollerLabel T → Option (FinalityPoller T)
  | .start => some { poller with calls := poller.calls ++ [.startSwap] }
  | .stop => some { poller with calls := poller.calls ++ [.stopSwap] }
  | .advance call =>
      match poller.calls[call]? with
      | some phase =>
          (poller.callStep phase).map fun (moved, next) =>
            { moved with calls := poller.calls.set call next }
      | none => none
  | .goroutine context label => poller.runStep context label

/-- The context has not been cancelled. -/
def Uncancelled (poller : FinalityPoller T) (context : Nat) : Prop :=
  ∃ record, poller.contexts[context]? = some record ∧ record.cancelled = false

/-- A polling goroutine runs that has not been cancelled. -/
def PollsUncancelled (poller : FinalityPoller T) (context : Nat) : Prop :=
  ∃ record, poller.contexts[context]? = some record ∧ record.cancelled = false ∧
    (record.goroutine = .polling ∨ record.goroutine = .waiting)

theorem PollsUncancelled.uncancelled {poller : FinalityPoller T} {context : Nat}
    (polls : poller.PollsUncancelled context) : poller.Uncancelled context := by
  obtain ⟨record, found, notCancelled, -⟩ := polls
  exact ⟨record, found, notCancelled⟩

theorem uncancelled_setGoroutine {poller : FinalityPoller T} {changed context : Nat}
    {goroutine : PollerGoroutine}
    (uncancelled : (poller.setGoroutine changed goroutine).Uncancelled context) :
    poller.Uncancelled context := by
  obtain ⟨record, found, notCancelled⟩ := uncancelled
  simp only [setGoroutine, List.getElem?_modify, Option.map_eq_map,
    Option.map_eq_some_iff] at found
  obtain ⟨old, found, rfl⟩ := found
  refine ⟨old, found, ?_⟩
  split at notCancelled <;> exact notCancelled

theorem uncancelled_cancelContext {poller : FinalityPoller T} {changed context : Nat}
    (uncancelled : (poller.cancelContext changed).Uncancelled context) :
    context ≠ changed ∧ poller.Uncancelled context := by
  obtain ⟨record, found, notCancelled⟩ := uncancelled
  simp only [cancelContext, List.getElem?_modify, Option.map_eq_map,
    Option.map_eq_some_iff] at found
  obtain ⟨old, found, rfl⟩ := found
  split at notCancelled
  · cases notCancelled
  · rename_i different
    exact ⟨fun same => different same.symm, old, found, notCancelled⟩

end FinalityPoller

/-- The poller with any number of callers. -/
def pollerMachine (T : Type) : Machine (FinalityPoller T) (PollerLabel T) where
  step := FinalityPoller.step

/-! ### Successful state changes -/

/-- A compare-and-swap on `running` that succeeded. -/
inductive Swap where
  | started
  | stopped
deriving DecidableEq, Repr

def swap (poller : FinalityPoller T) : PollerLabel T → Option Swap
  | .advance call =>
      match poller.calls[call]?, poller.running with
      | some .startSwap, false => some .started
      | some .stopSwap, true => some .stopped
      | _, _ => none
  | _ => none

/-- The last successful state change of a run. -/
def lastSwap (labels : List (PollerLabel T)) : Option Swap :=
  ((pollerMachine T).observe swap newFinalityPoller labels).getLast?

/-- What a step of a call is: the operation of its phase, with the phase replaced. -/
theorem advance_cases {before after : FinalityPoller T} {call : Nat}
    (transition : (pollerMachine T).step before (.advance call) = some after) :
    ∃ phase moved next, before.calls[call]? = some phase ∧
      before.callStep phase = some (moved, next) ∧
      after = { moved with calls := before.calls.set call next } := by
  simp only [pollerMachine, FinalityPoller.step] at transition
  split at transition
  · rename_i phase found
    obtain ⟨⟨moved, next⟩, computed, rfl⟩ := Option.map_eq_some_iff.mp transition
    exact ⟨phase, moved, next, found, computed, rfl⟩
  · cases transition

/-- A goroutine changes its own phase, the snapshot and the count of the wait group. -/
theorem runStep_cases {before after : FinalityPoller T} {context : Nat} {label : RunLabel T}
    (transition : before.runStep context label = some after) :
    after.running = before.running ∧ after.cancel = before.cancel ∧
      after.calls = before.calls ∧
      ∀ other, after.Uncancelled other → before.Uncancelled other := by
  unfold FinalityPoller.runStep at transition
  split at transition
  · split at transition <;> cases transition
    exact ⟨rfl, rfl, rfl, fun _ => FinalityPoller.uncancelled_setGoroutine⟩
  · split at transition <;> cases transition
    exact ⟨rfl, rfl, rfl, fun _ => FinalityPoller.uncancelled_setGoroutine⟩
  · split at transition <;> cases transition
    exact ⟨rfl, rfl, rfl, fun _ => FinalityPoller.uncancelled_setGoroutine⟩

/-- Only a successful swap writes `running`. -/
theorem running_step {before after : FinalityPoller T} {label : PollerLabel T}
    (transition : (pollerMachine T).step before label = some after) :
    after.running = ((swap before label).map (· == .started)).getD before.running := by
  cases label with
  | start | stop =>
      cases transition
      rfl
  | advance call =>
      obtain ⟨phase, moved, next, found, computed, rfl⟩ := advance_cases transition
      cases phase with
      | startSwap | stopSwap =>
          cases running : before.running with
          | true =>
              simp only [FinalityPoller.callStep, running] at computed
              cases computed
              simp [swap, found, running]
          | false =>
              simp only [FinalityPoller.callStep, running] at computed
              cases computed
              simp [swap, found, running]
      | storing | adding | spawning | loading =>
          cases computed
          simp [swap, found, FinalityPoller.setGoroutine]
      | cancelling context =>
          cases context <;> cases computed <;>
            simp [swap, found, FinalityPoller.cancelContext]
      | waiting =>
          simp only [FinalityPoller.callStep] at computed
          split at computed <;> cases computed
          simp [swap, found]
      | returned => cases computed
  | goroutine => exact (runStep_cases transition).1

theorem running_iff_lastSwap {admits : FinalityPoller T → PollerLabel T → Prop}
    {labels : List (PollerLabel T)} {poller : FinalityPoller T}
    (run : (pollerMachine T).Runs admits newFinalityPoller labels poller) :
    poller.running = true ↔ lastSwap labels = some .started := by
  refine run.invariantAlong (P := fun labels poller =>
    poller.running = true ↔ lastSwap labels = some .started) ?_ ?_
  · simp [newFinalityPoller, lastSwap, Machine.observe]
  · intro taken before label after prior holds _ transition
    rw [running_step transition, lastSwap, prior.observe_next swap transition]
    cases swapped : swap before label with
    | none => simpa [lastSwap] using holds
    | some change => cases change <;> simp

/-! ### One caller at a time -/

/-- The call is not between a successful swap and the end of what the swap is for: the
store of a `Start`, the return of a `Stop`. -/
def PollerCall.Quiet : PollerCall → Prop
  | .startSwap | .adding _ | .spawning _ | .stopSwap | .returned => True
  | .storing _ | .loading | .cancelling _ | .waiting => False

/-- The call is a `Stop` between its swap and its return. -/
def PollerCall.Stopping : PollerCall → Prop
  | .loading | .cancelling _ | .waiting => True
  | .startSwap | .storing _ | .adding _ | .spawning _ | .stopSwap | .returned => False

instance (call : PollerCall) : Decidable call.Stopping :=
  match call with
  | .loading | .cancelling _ | .waiting => .isTrue trivial
  | .startSwap | .storing _ | .adding _ | .spawning _ | .stopSwap | .returned => .isFalse id

/-- The call is a `Start` that has not stored its cancel function. -/
def PollerCall.Storing : PollerCall → Prop
  | .storing _ => True
  | .startSwap | .adding _ | .spawning _ | .stopSwap | .loading | .cancelling _ | .waiting
  | .returned => False

instance (call : PollerCall) : Decidable call.Storing :=
  match call with
  | .storing _ => .isTrue trivial
  | .startSwap | .adding _ | .spawning _ | .stopSwap | .loading | .cancelling _ | .waiting
  | .returned => .isFalse id

/-- No `Start` changes `running` while a `Stop` is under way, and no `Stop` does while a
`Start` has yet to store its cancel function. -/
def FinalityPoller.Apart (poller : FinalityPoller T) (call : PollerCall) : Prop :=
  (call = .startSwap → poller.running = false → ∀ other ∈ poller.calls, ¬ other.Stopping) ∧
    (call = .stopSwap → poller.running = true → ∀ other ∈ poller.calls, ¬ other.Storing)

instance (poller : FinalityPoller T) (call : PollerCall) : Decidable (poller.Apart call) :=
  inferInstanceAs (Decidable (_ ∧ _))

def SwapsApart (poller : FinalityPoller T) : PollerLabel T → Prop
  | .advance call => ∀ phase ∈ poller.calls[call]?, poller.Apart phase
  | .start | .stop | .goroutine _ _ => True

instance (poller : FinalityPoller T) (label : PollerLabel T) :
    Decidable (SwapsApart poller label) :=
  match label with
  | .advance call => inferInstanceAs (Decidable (∀ phase ∈ poller.calls[call]?, _))
  | .start | .stop | .goroutine _ _ => .isTrue trivial

/-- The poller as one caller sees it, with the call that is under way and its context. -/
inductive PollerMode where
  | stopped
  | storing (call context : Nat)
  | started (context : Nat)
  | loading (call context : Nat)
  | cancelling (call context : Nat)
  | waiting (call : Nat)

namespace PollerMode

def running : PollerMode → Bool
  | .storing _ _ | .started _ => true
  | .stopped | .loading _ _ | .cancelling _ _ | .waiting _ => false

def active : PollerMode → Option (Nat × PollerCall)
  | .stopped | .started _ => none
  | .storing call context => some (call, .storing context)
  | .loading call _ => some (call, .loading)
  | .cancelling call context => some (call, .cancelling (some context))
  | .waiting call => some (call, .waiting)

/-- The only context that may not be cancelled. -/
def context : PollerMode → Option Nat
  | .stopped | .waiting _ => none
  | .storing _ context | .started context | .loading _ context | .cancelling _ context =>
      some context

/-- The context that `cancel` must hold. -/
def registered : PollerMode → Option Nat
  | .started context | .loading _ context => some context
  | .stopped | .storing _ _ | .cancelling _ _ | .waiting _ => none

end PollerMode

/-- The poller is in a mode. -/
structure FinalityPoller.InMode (poller : FinalityPoller T) (mode : PollerMode) : Prop where
  running : poller.running = mode.running
  calls : Exclusive PollerCall.Quiet poller.calls mode.active
  cancel : ∀ context, mode.registered = some context → poller.cancel = some context
  uncancelled : ∀ context, poller.Uncancelled context → mode.context = some context

theorem inMode_new : (newFinalityPoller : FinalityPoller T).InMode .stopped := by
  refine ⟨rfl, .nil, (fun _ none => by cases none), ?_⟩
  rintro context ⟨record, found, -⟩
  simp [newFinalityPoller] at found

namespace FinalityPoller.InMode

variable {before moved : FinalityPoller T} {mode : PollerMode} {call : Nat}
  {phase next : PollerCall}

/-- The call that is under way in a mode is among the calls. -/
theorem mem_calls (prior : before.InMode mode) (active : mode.active = some (call, phase)) :
    phase ∈ before.calls :=
  List.mem_of_getElem? (prior.calls.present call phase active).1

theorem eq_stopped (prior : before.InMode mode) (notRunning : before.running = false)
    (apart : ∀ other ∈ before.calls, ¬ other.Stopping) : mode = .stopped := by
  have running := prior.running.symm.trans notRunning
  cases mode with
  | stopped => rfl
  | storing | started => cases running
  | loading | cancelling | waiting => exact absurd trivial (apart _ (prior.mem_calls rfl))

theorem eq_started (prior : before.InMode mode) (running : before.running = true)
    (apart : ∀ other ∈ before.calls, ¬ other.Storing) : ∃ context, mode = .started context := by
  have running := prior.running.symm.trans running
  cases mode with
  | started context => exact ⟨context, rfl⟩
  | storing => exact absurd trivial (apart _ (prior.mem_calls rfl))
  | stopped | loading | cancelling | waiting => cases running

/-- An operation outside the exclusive part of the calls leaves the mode. -/
theorem outside (prior : before.InMode mode) (found : before.calls[call]? = some phase)
    (wasQuiet : phase.Quiet) (isQuiet : next.Quiet) (running : moved.running = before.running)
    (cancel : moved.cancel = before.cancel)
    (uncancelled : ∀ context, moved.Uncancelled context → before.Uncancelled context) :
    ({ moved with calls := before.calls.set call next } : FinalityPoller T).InMode mode where
  running := running.trans prior.running
  calls := prior.calls.outside found wasQuiet isQuiet
  cancel context registered := cancel.trans (prior.cancel context registered)
  uncancelled context still := prior.uncancelled context (uncancelled context still)

theorem startSwap (prior : before.InMode mode) (found : before.calls[call]? = some .startSwap)
    (apart : before.Apart .startSwap)
    (computed : before.callStep .startSwap = some (moved, next)) :
    ∃ later, ({ moved with calls := before.calls.set call next } :
      FinalityPoller T).InMode later := by
  cases running : before.running with
  | true =>
      simp only [callStep, running] at computed
      cases computed
      exact ⟨mode, prior.outside found trivial trivial rfl rfl fun _ => id⟩
  | false =>
      simp only [callStep, running] at computed
      cases computed
      obtain rfl := prior.eq_stopped running (apart.1 rfl running)
      refine ⟨.storing call before.contexts.length, rfl, ?_, ?_, ?_⟩
      · exact prior.calls.activate found (fun _ _ none => by cases none) id
      · intro context none
        cases none
      · rintro context ⟨record, recorded, notCancelled⟩
        rw [List.getElem?_append] at recorded
        split at recorded
        · cases prior.uncancelled context ⟨record, recorded, notCancelled⟩
        · rw [List.getElem?_singleton] at recorded
          split at recorded
          · have last : context = before.contexts.length := by omega
            rw [last]
            rfl
          · cases recorded

theorem stopSwap (prior : before.InMode mode) (found : before.calls[call]? = some .stopSwap)
    (apart : before.Apart .stopSwap)
    (computed : before.callStep .stopSwap = some (moved, next)) :
    ∃ later, ({ moved with calls := before.calls.set call next } :
      FinalityPoller T).InMode later := by
  cases running : before.running with
  | false =>
      simp only [callStep, running] at computed
      cases computed
      exact ⟨mode, prior.outside found trivial trivial rfl rfl fun _ => id⟩
  | true =>
      simp only [callStep, running] at computed
      cases computed
      obtain ⟨context, rfl⟩ := prior.eq_started running (apart.2 rfl running)
      exact ⟨.loading call context, rfl,
        prior.calls.activate found (fun _ _ none => by cases none) id, prior.cancel,
        prior.uncancelled⟩

/-- The operation of a call that is under way takes the poller to the next mode. -/
theorem inside (prior : before.InMode mode) (found : before.calls[call]? = some phase)
    (notQuiet : ¬ phase.Quiet) (computed : before.callStep phase = some (moved, next)) :
    ∃ later, ({ moved with calls := before.calls.set call next } :
      FinalityPoller T).InMode later := by
  have active := prior.calls.eq_active found notQuiet
  cases mode with
  | stopped | started => cases active
  | storing call context =>
      cases active
      cases computed
      refine ⟨.started context, prior.running, prior.calls.leave trivial, ?_, prior.uncancelled⟩
      rintro other ⟨⟩
      rfl
  | loading call context =>
      cases active
      cases computed
      have cancel := prior.cancel context rfl
      refine ⟨.cancelling call context, prior.running, ?_, (fun _ none => by cases none),
        prior.uncancelled⟩
      rw [cancel]
      exact prior.calls.activate found (by rintro _ _ ⟨⟩; rfl) id
  | cancelling call context =>
      cases active
      cases computed
      refine ⟨.waiting call, prior.running,
        prior.calls.activate found (by rintro _ _ ⟨⟩; rfl) id, (fun _ none => by cases none), ?_⟩
      intro other still
      obtain ⟨different, uncancelled⟩ := uncancelled_cancelContext still
      cases prior.uncancelled other uncancelled
      exact absurd rfl different
  | waiting call =>
      cases active
      simp only [callStep] at computed
      split at computed <;> cases computed
      exact ⟨.stopped, prior.running, prior.calls.leave trivial, (fun _ none => by cases none),
        prior.uncancelled⟩

theorem advance (prior : before.InMode mode) (found : before.calls[call]? = some phase)
    (apart : before.Apart phase)
    (computed : before.callStep phase = some (moved, next)) :
    ∃ later, ({ moved with calls := before.calls.set call next } :
      FinalityPoller T).InMode later := by
  cases phase with
  | startSwap => exact prior.startSwap found apart computed
  | stopSwap => exact prior.stopSwap found apart computed
  | storing | loading | cancelling | waiting => exact prior.inside found id computed
  | adding =>
      cases computed
      exact ⟨mode, prior.outside found trivial trivial rfl rfl fun _ => id⟩
  | spawning =>
      cases computed
      exact ⟨mode, prior.outside found trivial trivial rfl rfl fun _ => uncancelled_setGoroutine⟩
  | returned => cases computed

theorem step {after : FinalityPoller T} {label : PollerLabel T} (prior : before.InMode mode)
    (admitted : SwapsApart before label)
    (transition : (pollerMachine T).step before label = some after) :
    ∃ later, after.InMode later := by
  cases label with
  | start | stop =>
      cases transition
      exact ⟨mode, prior.running, prior.calls.spawn trivial, prior.cancel, prior.uncancelled⟩
  | advance call =>
      obtain ⟨phase, moved, next, found, computed, rfl⟩ := advance_cases transition
      exact prior.advance found (admitted phase found) computed
  | goroutine context label =>
      obtain ⟨running, cancel, calls, uncancelled⟩ := runStep_cases transition
      exact ⟨mode, running.trans prior.running, calls ▸ prior.calls,
        fun context registered => cancel.trans (prior.cancel context registered),
        fun other still => prior.uncancelled other (uncancelled other still)⟩

end FinalityPoller.InMode

/-- In every run in which the successful swaps keep apart, at most one polling goroutine is
not cancelled; once all calls have returned and the last successful swap was that of a
`Stop` there is none; and there is none while a `Stop` waits. -/
theorem finality_poller_lifecycle {labels : List (PollerLabel T)} {poller : FinalityPoller T}
    (run : (pollerMachine T).Runs SwapsApart newFinalityPoller labels poller) :
    (∀ first second, poller.PollsUncancelled first → poller.PollsUncancelled second →
        first = second) ∧
      ((∀ call ∈ poller.calls, call = .returned) → lastSwap labels = some .stopped →
        ∀ context, ¬ poller.PollsUncancelled context) ∧
      (.waiting ∈ poller.calls → ∀ context, ¬ poller.PollsUncancelled context) := by
  obtain ⟨mode, inMode⟩ := run.invariant (P := fun poller => ∃ mode, poller.InMode mode)
    ⟨.stopped, inMode_new⟩ fun ⟨_, prior⟩ admitted transition => prior.step admitted transition
  refine ⟨?_, ?_, ?_⟩
  · intro first second firstPolls secondPolls
    have firstOwned := inMode.uncancelled first firstPolls.uncancelled
    have secondOwned := inMode.uncancelled second secondPolls.uncancelled
    exact Option.some.inj (firstOwned.symm.trans secondOwned)
  · intro returned last context polls
    have notRunning : poller.running = false := by
      refine Bool.eq_false_iff.mpr fun running => ?_
      rw [(running_iff_lastSwap run).mp running] at last
      cases last
    have stopped := inMode.eq_stopped notRunning fun other member => by
      rw [returned other member]
      exact id
    have owned := inMode.uncancelled context polls.uncancelled
    rw [stopped] at owned
    cases owned
  · intro waits context polls
    obtain ⟨call, found⟩ := List.mem_iff_getElem?.mp waits
    have active := inMode.calls.eq_active found id
    have owned := inMode.uncancelled context polls.uncancelled
    cases mode with
    | waiting => cases owned
    | stopped | storing | started | loading | cancelling => cases active

/-- A `Start` that runs to its end, as call number `call`. -/
def sampleStart (call : Nat) : List (PollerLabel Nat) :=
  [.start, .advance call, .advance call, .advance call, .advance call]

/-- The poller is started and polls once; then `Stop` waits for the goroutine it has
cancelled. -/
theorem finality_poller_lifecycle_while_stopping :
    ∃ poller, (pollerMachine Nat).Runs SwapsApart newFinalityPoller
        (sampleStart 0 ++ [.goroutine 0 (.polled (some 7)), .stop, .advance 1, .advance 1,
          .advance 1]) poller ∧
      poller.lastSnapshot = some 7 ∧ poller.wg = 1 ∧ .waiting ∈ poller.calls ∧
      ∀ context, ¬ poller.PollsUncancelled context := by
  obtain ⟨poller, computed, snapshot, counted, waits⟩ : ∃ poller,
      (pollerMachine Nat).exec SwapsApart newFinalityPoller
        (sampleStart 0 ++ [.goroutine 0 (.polled (some 7)), .stop, .advance 1, .advance 1,
          .advance 1]) = some poller ∧
      poller.lastSnapshot = some 7 ∧ poller.wg = 1 ∧ .waiting ∈ poller.calls :=
    ⟨_, rfl, rfl, rfl, by decide⟩
  have run := Machine.Runs.ofExec computed
  exact ⟨poller, run, snapshot, counted, waits, (finality_poller_lifecycle run).2.2 waits⟩

/-- A `Stop` between the swap of a `Start` and its store of the cancel function finds nothing
to cancel. Both calls return, the last swap was that of `Stop`, and the goroutine goes on. -/
def sampleOverlap : List (PollerLabel Nat) :=
  [.start, .stop, .advance 0, .advance 1, .advance 1, .advance 1, .advance 1, .advance 0,
    .advance 0, .advance 0]

/-- The goroutine that was left behind is never cancelled. The next `Start` adds a second one,
and the next `Stop` waits for the first. -/
theorem finality_poller_leaves_goroutine :
    (∃ poller, (pollerMachine Nat).Reaches newFinalityPoller sampleOverlap poller ∧
      (∀ call ∈ poller.calls, call = .returned) ∧ lastSwap sampleOverlap = some .stopped ∧
      poller.PollsUncancelled 0) ∧
    (∃ poller, (pollerMachine Nat).Reaches newFinalityPoller (sampleOverlap ++ sampleStart 2)
        poller ∧
      poller.PollsUncancelled 0 ∧ poller.PollsUncancelled 1) ∧
    ∃ poller, (pollerMachine Nat).Reaches newFinalityPoller
        (sampleOverlap ++ sampleStart 2 ++ [.stop, .advance 3, .advance 3, .advance 3])
        poller ∧
      .waiting ∈ poller.calls ∧ poller.PollsUncancelled 0 := by
  refine ⟨?_, ?_, ?_⟩
  · obtain ⟨poller, computed, returned, polls⟩ : ∃ poller,
        (pollerMachine Nat).exec (fun _ _ => True) newFinalityPoller sampleOverlap =
          some poller ∧
        (∀ call ∈ poller.calls, call = .returned) ∧ poller.PollsUncancelled 0 :=
      ⟨_, rfl, by decide, _, rfl, rfl, .inl rfl⟩
    exact ⟨poller, Machine.Runs.ofExec computed, returned, by decide, polls⟩
  · obtain ⟨poller, computed, polls⟩ : ∃ poller,
        (pollerMachine Nat).exec (fun _ _ => True) newFinalityPoller
          (sampleOverlap ++ sampleStart 2) = some poller ∧
        poller.PollsUncancelled 0 ∧ poller.PollsUncancelled 1 :=
      ⟨_, rfl, ⟨_, rfl, rfl, .inl rfl⟩, ⟨_, rfl, rfl, .inl rfl⟩⟩
    exact ⟨poller, Machine.Runs.ofExec computed, polls⟩
  · obtain ⟨poller, computed, waits⟩ : ∃ poller,
        (pollerMachine Nat).exec (fun _ _ => True) newFinalityPoller
          (sampleOverlap ++ sampleStart 2 ++ [.stop, .advance 3, .advance 3, .advance 3]) =
          some poller ∧
        .waiting ∈ poller.calls ∧ poller.PollsUncancelled 0 :=
      ⟨_, rfl, by decide, _, rfl, rfl, .inl rfl⟩
    exact ⟨poller, Machine.Runs.ofExec computed, waits⟩

end EspressoProxy.Verifier
