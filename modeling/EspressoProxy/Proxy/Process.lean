import EspressoProxy.Verifier.Nitro.FeedConnection
import EspressoProxy.Verifier.Nitro.FetcherLifecycle

/-!
# The goroutines of a process

`main` starts a verifier, which spawns two goroutines in OP mode and four in Nitro mode,
then one goroutine for each server. At the end it cancels the context, shuts the servers
down and waits for the goroutines of the verifier, one after the other, except for that of
the feed client: `Stop` never waits for it, and it can end the whole process, with `Crit`.
`Start` and `Stop` of a verifier are called by `main` only, and once, so the swaps of
`running` in them succeed. The goroutines of the streamer belong to its library, whose
`StopAndWait` is taken to return.

Each goroutine that is waited for is a loop over `select`, and all that matters of a tick or
a poll here is whether it is about to take the lock `mu` of the delayed message fetcher.
`lifecycle_loop_step` shows that the loop of the fetcher is one of these, and
`connection_feed_step` that `readLoop` is the loop of the feed client here. The lock of the
feed client is never held across a call that waits, so it is left out.
-/

namespace EspressoProxy.Proxy

open EspressoProxy.Semantics

inductive Mode where
  | op
  | nitro
deriving DecidableEq, Repr

/-- The goroutines that `Stop` of a verifier waits for: `run` of the verifier itself, of the
finality poller and of the delayed message fetcher. -/
inductive Worker where
  | verifier
  | poller
  | fetcher
deriving DecidableEq, Repr

/-- Where the goroutine of a `run` is: at its `select`, in a tick or a poll, about to take
`mu` in it, or in a section under `mu`. -/
inductive Loop where
  | notStarted
  | selecting
  | working
  | locking
  | holding
  | returned
deriving DecidableEq, Repr

/-- The goroutine is counted by the wait group. -/
def Loop.active : Loop → Bool
  | .notStarted | .returned => false
  | _ => true

/-- Where a tick or a poll can lead. -/
def Loop.follows : Loop → Bool
  | .selecting | .working | .locking => true
  | _ => false

inductive LoopAction where
  | tick
  | answer (next : Loop)
  | acquire
  | release (next : Loop)
  | exit
deriving DecidableEq, Repr

/-- One step of a goroutine, where `mu` is free or not and the context cancelled or not. -/
def Loop.act (loop : Loop) (free cancelled : Bool) : LoopAction → Option Loop
  | .tick => if loop = .selecting then some .working else none
  | .answer next => if loop = .working ∧ next.follows then some next else none
  | .acquire => if loop = .locking ∧ free then some .holding else none
  | .release next => if loop = .holding ∧ next.follows then some next else none
  | .exit => if loop = .selecting ∧ cancelled then some .returned else none

/-- Where `readLoop` of the feed client is, as in `ReadPhase`. A `rejected` one has found a wrong
chain id or none. -/
inductive FeedLoop where
  | notStarted
  | looping
  | dialing
  | verifying
  | connected
  | awaiting
  | returned
  | rejected
deriving DecidableEq, Repr

inductive FeedAction where
  | proceed
  | dialed (answered : Bool)
  | verified (accepted : Bool)
  | read (failed : Bool)
deriving DecidableEq, Repr

/-- One step of `readLoop`. It looks at the context before it dials and before it reads. -/
def FeedLoop.act (feed : FeedLoop) (cancelled : Bool) : FeedAction → Option FeedLoop
  | .proceed =>
      match feed with
      | .looping => some (if cancelled then .returned else .dialing)
      | .connected => some (if cancelled then .looping else .awaiting)
      | _ => none
  | .dialed answered =>
      if feed = .dialing then some (if answered then .verifying else .looping) else none
  | .verified accepted =>
      if feed = .verifying then some (if accepted then .connected else .rejected) else none
  | .read failed =>
      if feed = .awaiting then some (if failed then .looping else .connected) else none

/-- Who holds `mu`. -/
inductive MuHolder where
  | worker (worker : Worker)
  | stop
deriving DecidableEq, Repr

/-- A goroutine of `startHTTPServers`. A `failing` one sends its error. -/
inductive ServerPhase where
  | notStarted
  | serving
  | failing
  | returned
deriving DecidableEq, Repr

/-- A call of `Shutdown`, in a goroutine of `cleanHTTPServerShutdown`. -/
inductive ShutdownPhase where
  | notCalled
  | underWay
  | returned
deriving DecidableEq, Repr

structure Server where
  phase : ServerPhase
  shutdown : ShutdownPhase
deriving DecidableEq, Repr

/-- What `main` does next. The phases up to `spawning` are those of `Start` of the verifier,
those from `stopping` to `closing` those of `Stop`. -/
inductive MainPhase where
  | startingStreamer
  | startingPoller
  | startingFetcher
  | spawning
  | startingServers
  | selecting
  | cancelling
  | shuttingDown
  | awaitingServers
  | stopping
  | awaitingVerifier
  | stoppingPoller
  | awaitingPoller
  | lockingFetcher
  | awaitingFetcher
  | awaitingStreamer
  | closing
  | finished
deriving DecidableEq, Repr

/-- A process. It has `exited` if a failure was logged with `Crit`. -/
structure MainState where
  mode : Mode
  main : MainPhase
  exited : Bool
  cancelled : Bool
  loop : Worker → Loop
  feed : FeedLoop
  mu : Option MuHolder
  servers : List Server
  errors : Nat

inductive MainLabel where
  | advance
  | streamer (started : Bool)
  | urlRejected
  | signal
  | serverError
  | worker (worker : Worker) (action : LoopAction)
  | feed (action : FeedAction)
  | serverFails (server : Nat)
  | serverSends (server : Nat)
  | serverClosed (server : Nat)
  | shutdownReturns (server : Nat)
deriving DecidableEq, Repr

/-- The capacity of `serverErrCh`. -/
def serverErrChCapacity : Nat := 2

/-- The goroutine takes `mu`: the verifier in the calls of `GetDelayedMessage` and `Advance`.
In OP mode there is no fetcher. -/
def Mode.takesMu : Mode → Worker → Bool
  | .nitro, .verifier | .nitro, .fetcher => true
  | _, _ => false

/-- Where `Start` of the verifier begins. -/
def Mode.firstPhase : Mode → MainPhase
  | .op => .startingPoller
  | .nitro => .startingStreamer

/-- What `Start` does once the finality poller is started. -/
def Mode.pollerStarted : Mode → MainPhase
  | .op => .spawning
  | .nitro => .startingFetcher

/-- What `Stop` does once the finality poller is stopped. -/
def Mode.pollerStopped : Mode → MainPhase
  | .op => .closing
  | .nitro => .lockingFetcher

namespace MainState

/-- The process before `Start` of its verifier, with or without a WebSocket server. -/
def start (mode : Mode) (webSocket : Bool) : MainState where
  mode
  main := mode.firstPhase
  exited := false
  cancelled := false
  loop := fun _ => .notStarted
  feed := .notStarted
  mu := none
  servers := List.replicate (if webSocket then 2 else 1) ⟨.notStarted, .notCalled⟩
  errors := 0

/-- The process is over: `main` has returned, or something else has ended it. -/
def isOver (state : MainState) : Bool := state.exited || state.main = .finished

def withLoop (state : MainState) (worker : Worker) (loop : Loop) : MainState :=
  { state with loop := Function.update state.loop worker loop }

/-- The next step of `main` itself. A `Wait` is passed when no goroutine is counted. -/
def advance (state : MainState) : Option MainState :=
  match state.main with
  | .startingPoller =>
      some { state.withLoop .poller .working with main := state.mode.pollerStarted }
  | .startingFetcher =>
      if state.mu = none then
        some { state.withLoop .fetcher .selecting with main := .spawning }
      else none
  | .spawning => some { state.withLoop .verifier .selecting with main := .startingServers }
  | .startingServers =>
      some { state with
        servers := state.servers.map ({ · with phase := .serving })
        main := .selecting }
  | .cancelling => some { state with cancelled := true, main := .shuttingDown }
  | .shuttingDown =>
      some { state with
        servers := state.servers.map ({ · with shutdown := .underWay })
        main := .awaitingServers }
  | .awaitingServers =>
      if state.servers.all (·.shutdown = .returned) then some { state with main := .stopping }
      else none
  | .stopping => some { state with main := .awaitingVerifier }
  | .awaitingVerifier =>
      if (state.loop .verifier).active then none else some { state with main := .stoppingPoller }
  | .stoppingPoller => some { state with main := .awaitingPoller }
  | .awaitingPoller =>
      if (state.loop .poller).active then none
      else some { state with main := state.mode.pollerStopped }
  | .lockingFetcher =>
      if state.mu = none then some { state with mu := some .stop, main := .awaitingFetcher }
      else none
  | .awaitingFetcher =>
      if (state.loop .fetcher).active then none
      else some { state with mu := none, main := .awaitingStreamer }
  | .awaitingStreamer => some { state with main := .closing }
  | .closing => some { state with main := .finished }
  | .startingStreamer | .selecting | .finished => none

/-- A step of a goroutine of the verifier. -/
def work (state : MainState) (worker : Worker) (action : LoopAction) : Option MainState :=
  match (state.loop worker).act state.mu.isNone state.cancelled action with
  | none => none
  | some next =>
      if next = .locking ∧ state.mode.takesMu worker = false then none
      else
        some { state.withLoop worker next with
          mu := match action with
            | .acquire => some (.worker worker)
            | .release _ => none
            | _ => state.mu }

/-- A step of the goroutine of a server, or of a call of `Shutdown`. -/
def withServer (state : MainState) (index : Nat) (permitted : Server → Bool)
    (change : Server → Server) : Option MainState :=
  match state.servers[index]? with
  | none => none
  | some server =>
      if permitted server then
        some { state with servers := state.servers.set index (change server) }
      else none

def step (state : MainState) (label : MainLabel) : Option MainState :=
  if state.isOver then none
  else
    match label with
    | .advance => state.advance
    | .streamer started =>
        if state.main = .startingStreamer then
          -- The feed client is started next, and nothing can go wrong in that.
          if started then some { state with feed := .looping, main := .startingPoller }
          else some { state with exited := true }
        else none
    | .urlRejected =>
        -- `createHttpServer` cannot parse the address of the full node.
        if state.main = .startingServers then some { state with exited := true } else none
    | .signal =>
        if state.main = .selecting then some { state with main := .cancelling } else none
    | .serverError =>
        if state.main = .selecting ∧ 0 < state.errors then
          some { state with main := .cancelling, errors := state.errors - 1 }
        else none
    | .worker worker action => state.work worker action
    | .feed action =>
        (state.feed.act state.cancelled action).map fun feed =>
          { state with feed, exited := feed = .rejected }
    | .serverFails index =>
        state.withServer index (·.phase = .serving) ({ · with phase := .failing })
    | .serverSends index =>
        if state.errors < serverErrChCapacity then
          (state.withServer index (·.phase = .failing) ({ · with phase := .returned })).map
            fun sent => { sent with errors := sent.errors + 1 }
        else none
    | .serverClosed index =>
        state.withServer index
          (fun server => server.phase = .serving ∧ server.shutdown ≠ .notCalled)
          ({ · with phase := .returned })
    | .shutdownReturns index =>
        state.withServer index (·.shutdown = .underWay) ({ · with shutdown := .returned })

/-- `Stop` of the fetcher waits, under the lock, for a goroutine that needs the lock. -/
def Deadlocked (state : MainState) : Prop :=
  state.main = .awaitingFetcher ∧ state.loop .fetcher = .locking

end MainState

def mainMachine : Machine MainState MainLabel where
  step := MainState.step

/-! ### The loop of the delayed message fetcher -/

section Fetcher

open EspressoProxy.Verifier.Nitro

variable {config : FetcherConfig} {before after : Lifecycle}

/-- What is seen of the goroutine of the fetcher here. -/
def loopOf (state : Lifecycle) : Loop :=
  match state.goroutine with
  | .exited => .returned
  | .waiting => .selecting
  | .holding _ => .holding
  | .polling | .extracted _ => if state.pendingLock.isSome then .locking else .working

/-- A goroutine that gets an answer is not about to take the lock. -/
theorem pendingLock_of_answered {label : PollLabel} {fetcher : FetcherState}
    (phase : before.goroutine = .polling) (outside : label ≠ .start ∧ label ≠ .update)
    (moved : before.fetcher.pollStep config label = some fetcher) : before.pendingLock = none := by
  by_contra pending
  rcases Lifecycle.poll_of_pendingLock phase (Option.isSome_iff_ne_none.mpr pending) with
    ⟨endBlock, finalized, known⟩ | ⟨job, storing, finished⟩
  · cases label with
    | start => exact outside.1 rfl
    | update => exact outside.2 rfl
    | latest | finalized | bridge | inbox | extract =>
        simp [FetcherState.pollStep, known] at moved
  · cases label with
    | start => exact outside.1 rfl
    | update => exact outside.2 rfl
    | latest | finalized | bridge | inbox | extract =>
        simp [FetcherState.pollStep, storing, finished] at moved

theorem loopOf_of_pendingLock {label : PollLabel} (pending : before.pendingLock = some label) :
    loopOf before = .locking := by
  cases phase : before.goroutine with
  | exited | waiting | holding => simp [Lifecycle.pendingLock, phase] at pending
  | polling | extracted => simp [loopOf, phase, pending]

theorem follows_of_afterPoll {fetcher : FetcherState}
    (phase : after.goroutine = Lifecycle.afterPoll fetcher) : (loopOf after).follows = true := by
  unfold Lifecycle.afterPoll at phase
  unfold loopOf
  split at phase
  · rw [phase]
    rfl
  · rw [phase]
    simp only
    split <;> rfl

theorem acts_of_working (working : loopOf before = .working)
    (follows : (loopOf after).follows = true) :
    ∃ action, (loopOf before).act before.mu.isNone before.cancelled action =
      some (loopOf after) := by
  refine ⟨.answer (loopOf after), ?_⟩
  rw [working]
  exact if_pos ⟨rfl, follows⟩

theorem acts_of_holding (holding : loopOf before = .holding)
    (follows : (loopOf after).follows = true) :
    ∃ action, (loopOf before).act before.mu.isNone before.cancelled action =
      some (loopOf after) := by
  refine ⟨.release (loopOf after), ?_⟩
  rw [holding]
  exact if_pos ⟨rfl, follows⟩

/-- Outside of a poll there is none under way. -/
theorem idle_of_lifecycle {fetcher : DelayedMessageFetcher} {labels : List LifecycleLabel}
    {state : Lifecycle}
    (run : (lifecycleMachine config).Reaches (Lifecycle.new fetcher).start labels state) :
    state.goroutine.OutsidePoll → state.fetcher.poll = .idle := by
  refine run.invariant (P := fun state => state.goroutine.OutsidePoll → state.fetcher.poll = .idle)
    (fun _ => rfl) fun idle _ transition => ?_
  cases lifecycleStep_outcome transition with
  | ticked | extracted | acquired => exact False.elim
  | exited phase => exact fun _ => idle (phase ▸ trivial)
  | answered | released => exact idle_of_afterPoll
  | stopLocked | stopChecked | stopRefused | stopCancelled | stopped => exact idle

/-- Every step of the fetcher's goroutine, with all that it reads and stores, is one of the
loop here, and the steps of `Stop` leave the loop alone. -/
theorem lifecycle_loop_step {fetcher : DelayedMessageFetcher} {labels : List LifecycleLabel}
    {label : LifecycleLabel}
    (run : (lifecycleMachine config).Reaches (Lifecycle.new fetcher).start labels before)
    (transition : (lifecycleMachine config).step before label = some after) :
    loopOf after = loopOf before ∨ ∃ action,
      (loopOf before).act before.mu.isNone before.cancelled action = some (loopOf after) := by
  have working (phase : before.goroutine = .polling) (free : before.pendingLock = none) :
      loopOf before = .working := by
    simp [loopOf, phase, free]
  cases lifecycleStep_outcome transition with
  | ticked phase =>
      have idle := idle_of_lifecycle run (phase ▸ trivial)
      refine .inr ⟨.tick, ?_⟩
      simp [loopOf, phase, Loop.act, Lifecycle.pendingLock, idle]
  | exited phase cancelled =>
      refine .inr ⟨.exit, ?_⟩
      simp [loopOf, phase, Loop.act, cancelled]
  | answered phase outside moved =>
      exact .inr (acts_of_working (working phase (pendingLock_of_answered phase outside moved))
        (follows_of_afterPoll rfl))
  | @extracted job log rest transaction message phase storing next =>
      obtain ⟨range, events, logs, remaining, stored⟩ := job
      obtain rfl : remaining = log :: rest := next
      have free : before.pendingLock = none := by
        simp [Lifecycle.pendingLock, phase, storing]
      exact .inr (acts_of_working (working phase free) rfl)
  | acquired free pending =>
      refine .inr ⟨.acquire, ?_⟩
      rw [loopOf_of_pendingLock pending, free]
      rfl
  | released phase =>
      have holding : loopOf before = .holding := by
        simp [loopOf, phase]
      exact .inr (acts_of_holding holding (follows_of_afterPoll rfl))
  | stopLocked | stopChecked | stopRefused | stopCancelled | stopped => exact .inl rfl

end Fetcher

/-! ### The loop of the feed client -/

section Feed

open EspressoProxy.Verifier.Nitro

/-- What is seen of `readLoop` here. -/
def feedLoopOf : ReadPhase → FeedLoop
  | .looping => .looping
  | .dialing => .dialing
  | .verifying _ => .verifying
  | .connected _ => .connected
  | .awaiting _ => .awaiting
  | .stopped => .returned

/-- Every step of `readLoop`, with the responses and broadcasts that it reads, is one of the loop
here, where a chain id that is refused also ends the process. The other steps leave the loop
alone. -/
theorem connection_feed_step {chainID : Nat} {before after : FeedConnection}
    {label : ConnectionLabel}
    (transition : (connectionMachine chainID).step before label = some after) :
    after.phase = before.phase ∨ ∃ action next,
      (feedLoopOf before.phase).act before.cancelled action = some next ∧
        (next = feedLoopOf after.phase ∨ next = .rejected ∧ after.phase = .stopped) := by
  obtain ⟨client, phase, cancelled⟩ := before
  simp only [connectionMachine] at transition
  cases label with
  | cancel | advance | advanceTo =>
      cases transition
      exact .inl rfl
  | proceed =>
      simp only [FeedConnection.step] at transition
      split at transition
      · cases transition
        refine .inr ⟨.proceed, _, rfl, .inl ?_⟩
        cases cancelled <;> rfl
      · rename_i response
        cases transition
        right
        cases verified : afterVerification chainID response with
        | stopped => exact ⟨.verified false, _, rfl, .inr ⟨rfl, rfl⟩⟩
        | connected => exact ⟨.verified true, _, rfl, .inl rfl⟩
        | looping | dialing | verifying | awaiting =>
            unfold afterVerification at verified
            split at verified <;> cases verified
      · cases transition
        refine .inr ⟨.proceed, _, rfl, .inl ?_⟩
        cases cancelled <;> rfl
      · cases transition
  | dialed response =>
      simp only [FeedConnection.step] at transition
      split at transition <;> cases transition
      refine .inr ⟨.dialed response.isSome, _, rfl, .inl ?_⟩
      cases response <;> rfl
  | readFailed =>
      simp only [FeedConnection.step] at transition
      split at transition <;> cases transition
      exact .inr ⟨.read true, _, rfl, .inl rfl⟩
  | read broadcast =>
      simp only [FeedConnection.step] at transition
      split at transition <;> cases transition
      exact .inr ⟨.read false, _, rfl, .inl rfl⟩

end Feed

end EspressoProxy.Proxy
