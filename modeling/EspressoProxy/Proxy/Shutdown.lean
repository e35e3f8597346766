import EspressoProxy.Proxy.ProcessInvariant

/-!
# The end of a process

Once `main` has left its `select`, it waits for one goroutine after the other. It can always be
brought to its end, with the one exception of a poll of the delayed message fetcher that needs
the lock under which `Stop` waits for it. Nobody waits for the feed client, which may still be
reading when `main` returns.
-/

namespace EspressoProxy.Proxy

open EspressoProxy.Semantics

/-- A new tick or poll. -/
def MainLabel.isTick : MainLabel → Bool
  | .worker _ .tick => true
  | _ => false

/-- The steps a goroutine needs until it has returned, if it takes no new tick. -/
def Loop.stepsLeft : Loop → Nat
  | .notStarted | .returned => 0
  | .selecting => 1
  | .working => 2
  | .holding => 3
  | .locking => 4

/-- The feed client dials the feed, or has not looked at the chain id of the response yet. -/
def FeedLoop.undecided : FeedLoop → Bool
  | .dialing | .verifying => true
  | _ => false

/-- After the cancellation there is no new dial. -/
theorem FeedLoop.undecided_of_act {feed next : FeedLoop} {action : FeedAction}
    (acted : feed.act true action = some next)
    (risky : next.undecided = true ∨ next = .rejected) : feed.undecided = true := by
  cases action with
  | proceed =>
      simp only [FeedLoop.act, if_true] at acted
      split at acted <;> cases acted <;> rcases risky with risky | risky <;> cases risky
  | dialed answered =>
      simp only [FeedLoop.act, Option.ite_none_right_eq_some] at acted
      rw [acted.1]
      rfl
  | verified accepted =>
      simp only [FeedLoop.act, Option.ite_none_right_eq_some] at acted
      rw [acted.1]
      rfl
  | read failed =>
      simp only [FeedLoop.act, Option.ite_none_right_eq_some, Option.some.injEq] at acted
      obtain ⟨-, rfl⟩ := acted
      cases failed <;> rcases risky with risky | risky <;> cases risky

def Server.shuttingDown (server : Server) : Bool := server.shutdown = .underWay

namespace MainState

/-- How far `main` is from its end. A step of `main` outweighs what it can start. -/
def stepsLeft (state : MainState) : Nat :=
  if state.main = .finished then 0
  else
    1 + 20 * (17 - state.main.stage) + (state.loop .verifier).stepsLeft +
      (state.loop .poller).stepsLeft + (state.loop .fetcher).stepsLeft +
      state.servers.countP Server.shuttingDown

variable {state after : MainState}

/-- `main` has come closer to its end, and not to a deadlock, and nothing else has ended the
process. -/
structure Nearer (before after : MainState) : Prop where
  stepsLeft : after.stepsLeft < before.stepsLeft
  notDeadlocked : ¬ after.Deadlocked
  exited : after.exited = before.exited

/-- Something can be done, without a new tick, that brings `main` closer to its end. -/
def CanApproach (state : MainState) : Prop :=
  ∃ label after, label.isTick = false ∧ state.step label = some after ∧ state.Nearer after

theorem isOver_eq_false_iff :
    state.isOver = false ↔ state.exited = false ∧ state.main ≠ .finished := by
  simp [isOver]

theorem stepsLeft_of_unfinished (running : state.main ≠ .finished) :
    state.stepsLeft = 1 + 20 * (17 - state.main.stage) + (state.loop .verifier).stepsLeft +
      (state.loop .poller).stepsLeft + (state.loop .fetcher).stepsLeft +
      state.servers.countP Server.shuttingDown :=
  if_neg running

/-- No step is left exactly when `main` has returned. -/
theorem stepsLeft_eq_zero_iff : state.stepsLeft = 0 ↔ state.main = .finished := by
  constructor
  · intro noneLeft
    by_contra running
    rw [stepsLeft_of_unfinished running] at noneLeft
    omega
  · intro ended
    rw [stepsLeft, if_pos ended]

theorem stepsLeft_lt_of_stage (running : state.main ≠ .finished)
    (few : after.servers.length ≤ serverErrChCapacity)
    (later : state.main.stage < after.main.stage) : after.stepsLeft < state.stepsLeft := by
  have bounded (loop : Loop) : loop.stepsLeft ≤ 4 := by cases loop <;> decide
  have verifier := bounded (after.loop .verifier)
  have poller := bounded (after.loop .poller)
  have fetcher := bounded (after.loop .fetcher)
  have servers : after.servers.countP Server.shuttingDown ≤ 2 :=
    Nat.le_trans List.countP_le_length few
  have last : after.main.stage ≤ 17 := by cases after.main <;> decide
  rw [stepsLeft_of_unfinished running, stepsLeft]
  split
  · omega
  · omega

theorem step_of_not_over (running : state.isOver = false) (worker : Worker)
    (action : LoopAction) : state.step (.worker worker action) = state.work worker action := by
  rw [MainState.step, running]
  rfl

/-- A goroutine brings the process closer to its end. -/
theorem exists_work (running : state.isOver = false) (worker : Worker) (action : LoopAction)
    (next : Loop) (acted : (state.loop worker).act state.mu.isNone state.cancelled action =
      some next) (notTick : action ≠ .tick) (outside : next ≠ .locking)
    (lower : next.stepsLeft < (state.loop worker).stepsLeft) (free : ¬ state.Deadlocked) :
    state.CanApproach := by
  have worked : ∃ mu, state.work worker action =
      some { state.withLoop worker next with mu } := by
    simp only [work, acted]
    rw [if_neg fun locking => outside locking.1]
    exact ⟨_, rfl⟩
  obtain ⟨mu, worked⟩ := worked
  have loopSelf : (state.withLoop worker next).loop worker = next := Function.update_self ..
  have loopOther {other : Worker} (different : other ≠ worker) :
      (state.withLoop worker next).loop other = state.loop other :=
    Function.update_of_ne different _ _
  have unfinished : state.main ≠ .finished := (isOver_eq_false_iff.mp running).2
  refine ⟨.worker worker action, _, ?_, (step_of_not_over running worker action).trans worked,
    ?_, ?_, rfl⟩
  · cases action with
    | tick => exact absurd rfl notTick
    | answer | acquire | release | exit => rfl
  · have left : { state.withLoop worker next with mu }.stepsLeft =
        1 + 20 * (17 - state.main.stage) + ((state.withLoop worker next).loop .verifier).stepsLeft +
          ((state.withLoop worker next).loop .poller).stepsLeft +
          ((state.withLoop worker next).loop .fetcher).stepsLeft +
          state.servers.countP Server.shuttingDown := stepsLeft_of_unfinished unfinished
    rw [left, stepsLeft_of_unfinished unfinished]
    cases worker with
    | verifier =>
        rw [loopSelf, loopOther (by decide), loopOther (by decide)]
        omega
    | poller =>
        rw [loopSelf, loopOther (by decide), loopOther (by decide)]
        omega
    | fetcher =>
        rw [loopSelf, loopOther (by decide), loopOther (by decide)]
        omega
  · rintro ⟨phase, locking⟩
    by_cases same : worker = .fetcher
    · subst same
      exact outside (loopSelf.symm.trans locking)
    · exact free ⟨phase, (loopOther (Ne.symm same)).symm.trans locking⟩

/-- A goroutine that has to return can do so, unless `Stop` has the lock that it needs. -/
theorem Orderly.exists_return (orderly : state.Orderly) (running : state.isOver = false)
    (cancelled : state.cancelled = true) {worker : Worker}
    (active : (state.loop worker).active = true)
    (unlocked : state.loop worker = .locking → state.mu ≠ some .stop)
    (free : ¬ state.Deadlocked) :
    state.CanApproach := by
  have release {holder : Worker} (phase : state.loop holder = .holding) : state.CanApproach := by
    refine exists_work running holder (.release .working) .working ?_ LoopAction.noConfusion
      Loop.noConfusion ?_ free
    · rw [phase]
      rfl
    · rw [phase]
      decide
  cases phase : state.loop worker with
  | notStarted | returned =>
      rw [phase] at active
      cases active
  | selecting =>
      refine exists_work running worker .exit .returned ?_ LoopAction.noConfusion
        Loop.noConfusion ?_ free
      · rw [phase, cancelled]
        rfl
      · rw [phase]
        decide
  | working =>
      refine exists_work running worker (.answer .selecting) .selecting ?_
        LoopAction.noConfusion Loop.noConfusion ?_ free
      · rw [phase]
        rfl
      · rw [phase]
        decide
  | holding => exact release phase
  | locking =>
      cases held : state.mu with
      | none =>
          refine exists_work running worker .acquire .holding ?_ LoopAction.noConfusion
            Loop.noConfusion ?_ free
          · rw [phase, held]
            rfl
          · rw [phase]
            decide
      | some holder =>
          cases holder with
          | stop => exact absurd held (unlocked phase)
          | worker other => exact release ((orderly.held other).mp held)

/-- `main` gets to a later phase. -/
theorem Orderly.exists_later (orderly : state.Orderly) {label : MainLabel} {before : MainPhase}
    (here : state.main = before) (next : MainPhase) (stepped : state.step label = some after)
    (there : after.main = next ∧ after.exited = state.exited) (notTick : label.isTick = false)
    (later : before ≠ .finished ∧ before.stage < next.stage) (free : ¬ after.Deadlocked) :
    state.CanApproach := by
  obtain ⟨rfl, sameExit⟩ := there
  subst here
  exact ⟨label, after, notTick, stepped,
    stepsLeft_lt_of_stage later.1 (orderly.step stepped).few later.2, free, sameExit⟩

theorem advance_exited (advanced : state.advance = some after) : after.exited = state.exited := by
  unfold MainState.advance at advanced
  split at advanced <;> (try split at advanced) <;> cases advanced <;> rfl

/-- `main` gets to a later phase by itself, and not under the lock of the fetcher. -/
theorem Orderly.exists_advance (orderly : state.Orderly) (running : state.isOver = false)
    {before : MainPhase} (here : state.main = before) (next : MainPhase)
    (advanced : state.advance = some after) (there : after.main = next)
    (later : before ≠ .finished ∧ before.stage < next.stage ∧ next ≠ .awaitingFetcher) :
    state.CanApproach := by
  have stepped : state.step .advance = some after := by
    rw [MainState.step, running]
    exact advanced
  exact orderly.exists_later here next stepped ⟨there, advance_exited advanced⟩ rfl
    ⟨later.1, later.2.1⟩ fun deadlocked => later.2.2 (there.symm.trans deadlocked.1)

/-- `main` waits for a goroutine, which returns or has done so. -/
theorem Orderly.exists_awaited (orderly : state.Orderly) (running : state.isOver = false)
    (free : ¬ state.Deadlocked) {before : MainPhase} (here : state.main = before)
    (worker : Worker) (next : MainPhase) (cancelled : state.cancelled = true)
    (unlocked : state.loop worker = .locking → state.mu ≠ some .stop)
    (advanced : ¬ (state.loop worker).active = true → state.advance = some after)
    (there : after.main = next)
    (later : before ≠ .finished ∧ before.stage < next.stage ∧ next ≠ .awaitingFetcher) :
    state.CanApproach := by
  by_cases active : (state.loop worker).active = true
  · exact orderly.exists_return running cancelled active unlocked free
  · exact orderly.exists_advance running here next (advanced active) there later

/-- `Shutdown` of a server that is not done returns, at the latest after its timeout. -/
theorem Orderly.exists_shutdown (orderly : state.Orderly) (running : state.isOver = false)
    (phase : state.main = .awaitingServers)
    (pending : ¬ state.servers.all (·.shutdown = .returned) = true) :
    state.CanApproach := by
  have unfinished : state.main ≠ .finished := (isOver_eq_false_iff.mp running).2
  simp only [List.all_eq_true, decide_eq_true_eq, not_forall] at pending
  obtain ⟨server, member, waits⟩ := pending
  have underWay : server.shutdown = .underWay := by
    have called := orderly.shutdowns phase server member
    cases shutdown : server.shutdown with
    | notCalled => exact absurd shutdown called
    | underWay => rfl
    | returned => exact absurd shutdown waits
  obtain ⟨index, bound, found⟩ := List.mem_iff_getElem.mp member
  let servers := state.servers.set index { server with shutdown := .returned }
  refine ⟨.shutdownReturns index, { state with servers }, rfl, ?_, ?_, ?_, rfl⟩
  · rw [MainState.step, running]
    simp [MainState.withServer, List.getElem?_eq_getElem bound, found, underWay, servers]
  · have left : { state with servers }.stepsLeft = 1 + 20 * (17 - state.main.stage) +
        (state.loop .verifier).stepsLeft + (state.loop .poller).stepsLeft +
        (state.loop .fetcher).stepsLeft + servers.countP Server.shuttingDown :=
      stepsLeft_of_unfinished unfinished
    have counted : 0 < state.servers.countP Server.shuttingDown :=
      List.countP_pos_iff.mpr ⟨server, member, by simp [Server.shuttingDown, underWay]⟩
    have fewer : servers.countP Server.shuttingDown =
        state.servers.countP Server.shuttingDown - 1 := by
      simp [servers, List.countP_set bound, found, Server.shuttingDown, underWay]
    rw [left, stepsLeft_of_unfinished unfinished, fewer]
    omega
  · rintro ⟨locked, -⟩
    rw [show state.main = .awaitingFetcher from locked] at phase
    cases phase

/-- Whatever `main` is at, something can be done that brings the process closer to its end
without a new tick, unless there is the deadlock. -/
theorem Orderly.progress (orderly : state.Orderly) (free : ¬ state.Deadlocked)
    (running : state.isOver = false) :
    state.CanApproach := by
  have notStopped (outside : state.main ≠ .awaitingFetcher) : state.mu ≠ some .stop :=
    fun held => outside (orderly.stopped.mp held)
  cases phase : state.main with
  | finished => exact absurd phase (isOver_eq_false_iff.mp running).2
  | startingStreamer =>
      have stepped : state.step (.streamer true) =
          some { state with feed := .looping, main := .startingPoller } := by
        simp [MainState.step, phase, running]
      exact orderly.exists_later phase .startingPoller stepped ⟨rfl, rfl⟩ rfl (by decide)
        fun deadlocked => MainPhase.noConfusion deadlocked.1
  | selecting =>
      have stepped : state.step .signal = some { state with main := .cancelling } := by
        simp [MainState.step, phase, running]
      exact orderly.exists_later phase .cancelling stepped ⟨rfl, rfl⟩ rfl (by decide)
        fun deadlocked => MainPhase.noConfusion deadlocked.1
  | startingPoller =>
      exact orderly.exists_advance running phase state.mode.pollerStarted
        (by rw [MainState.advance, phase]) rfl (by cases state.mode <;> decide)
  | startingFetcher =>
      have unlocked : state.mu = none := orderly.mu_eq_none (by rw [phase]; decide)
        (by rw [orderly.unstarted .verifier (by rw [phase]; decide)]; exact Loop.noConfusion)
        (by rw [orderly.unstarted .fetcher (by rw [phase]; decide)]; exact Loop.noConfusion)
      exact orderly.exists_advance running phase .spawning
        (by rw [MainState.advance, phase]; exact if_pos unlocked) rfl (by decide)
  | spawning =>
      exact orderly.exists_advance running phase .startingServers
        (by rw [MainState.advance, phase]) rfl (by decide)
  | startingServers =>
      exact orderly.exists_advance running phase .selecting
        (by rw [MainState.advance, phase]) rfl (by decide)
  | cancelling =>
      exact orderly.exists_advance running phase .shuttingDown
        (by rw [MainState.advance, phase]) rfl (by decide)
  | shuttingDown =>
      exact orderly.exists_advance running phase .awaitingServers
        (by rw [MainState.advance, phase]) rfl (by decide)
  | awaitingServers =>
      by_cases done : state.servers.all (·.shutdown = .returned) = true
      · exact orderly.exists_advance running phase .stopping
          (by rw [MainState.advance, phase]; exact if_pos done) rfl (by decide)
      · exact orderly.exists_shutdown running phase done
  | stopping =>
      exact orderly.exists_advance running phase .awaitingVerifier
        (by rw [MainState.advance, phase]) rfl (by decide)
  | stoppingPoller =>
      exact orderly.exists_advance running phase .awaitingPoller
        (by rw [MainState.advance, phase]) rfl (by decide)
  | awaitingStreamer =>
      exact orderly.exists_advance running phase .closing
        (by rw [MainState.advance, phase]) rfl (by decide)
  | closing =>
      exact orderly.exists_advance running phase .finished
        (by rw [MainState.advance, phase]) rfl (by decide)
  | awaitingVerifier =>
      exact orderly.exists_awaited running free phase .verifier .stoppingPoller
        (orderly.cancelled (by rw [phase]; decide)) (fun _ => notStopped (by rw [phase]; decide))
        (fun ended => by rw [MainState.advance, phase]; exact if_neg ended) rfl (by decide)
  | awaitingPoller =>
      exact orderly.exists_awaited running free phase .poller state.mode.pollerStopped
        (orderly.cancelled (by rw [phase]; decide)) (fun _ => notStopped (by rw [phase]; decide))
        (fun ended => by rw [MainState.advance, phase]; exact if_neg ended) rfl
        (by cases state.mode <;> decide)
  | lockingFetcher =>
      -- The lock is taken once the goroutine of the fetcher has returned.
      by_cases active : (state.loop .fetcher).active = true
      · exact orderly.exists_return running (orderly.cancelled (by rw [phase]; decide)) active
          (fun _ => notStopped (by rw [phase]; decide)) free
      · have ended := orderly.ended .verifier (by rw [phase]; decide)
        have unlocked : state.mu = none := orderly.mu_eq_none (by rw [phase]; decide)
          (fun holding => by rw [holding] at ended; cases ended)
          (fun holding => active (by rw [holding]; rfl))
        have stepped : state.step .advance =
            some { state with mu := some .stop, main := .awaitingFetcher } := by
          simp [MainState.step, phase, running, MainState.advance, unlocked]
        refine orderly.exists_later phase .awaitingFetcher stepped ⟨rfl, rfl⟩ rfl (by decide) ?_
        rintro ⟨-, locking⟩
        exact active (by rw [show state.loop .fetcher = .locking from locking]; rfl)
  | awaitingFetcher =>
      exact orderly.exists_awaited running free phase .fetcher .awaitingStreamer
        (orderly.cancelled (by rw [phase]; decide))
        (fun locking => absurd ⟨phase, locking⟩ free)
        (fun ended => by rw [MainState.advance, phase]; exact if_neg ended) rfl (by decide)

/-- What ends a process from outside `main` once the context is cancelled. -/
def AtRisk (state : MainState) : Prop := state.exited = true ∨ state.feed.undecided = true

/-- The deadlock is for good, whatever the other goroutines do, and only a feed client that has
begun to dial can still end the process. -/
theorem Orderly.deadlocked_step (orderly : state.Orderly) (deadlocked : state.Deadlocked)
    {label : MainLabel} (transition : state.step label = some after) :
    after.Deadlocked ∧ (after.AtRisk → state.AtRisk) := by
  obtain ⟨phase, locking⟩ := deadlocked
  have stopped : state.mu = some .stop := orderly.stopped.mpr phase
  have cancelled : state.cancelled = true := orderly.cancelled (by rw [phase]; decide)
  unfold MainState.step at transition
  split at transition
  · cases transition
  cases label with
  | advance => simp [MainState.advance, phase, locking, Loop.active] at transition
  | streamer | urlRejected | signal | serverError => simp [phase] at transition
  | feed action =>
      obtain ⟨next, acted, rfl⟩ := Option.map_eq_some_iff.mp transition
      rw [cancelled] at acted
      refine ⟨⟨phase, locking⟩, fun risky => .inr (FeedLoop.undecided_of_act acted ?_)⟩
      rcases risky with rejected | undecided
      · exact .inr (of_decide_eq_true rejected)
      · exact .inl undecided
  | worker worker action =>
      cases work_outcome transition with
      | acquired _ free =>
          rw [stopped] at free
          cases free
      | released holding =>
          rw [(orderly.held worker).mpr holding] at stopped
          cases stopped
      | moved outside =>
          refine ⟨⟨phase, (Function.update_of_ne ?_ _ _).trans locking⟩, id⟩
          rintro rfl
          rw [locking] at outside
          rcases outside with outside | outside <;> cases outside
  | serverFails | serverClosed | shutdownReturns =>
      obtain ⟨server, -, -, rfl⟩ := withServer_eq_some transition
      exact ⟨⟨phase, locking⟩, id⟩
  | serverSends =>
      simp only at transition
      split at transition
      · obtain ⟨sent, moved, rfl⟩ := Option.map_eq_some_iff.mp transition
        obtain ⟨server, -, -, rfl⟩ := withServer_eq_some moved
        exact ⟨⟨phase, locking⟩, id⟩
      · cases transition

/-- From a state without the deadlock `main` can be brought to its end. -/
theorem Orderly.exists_end (orderly : state.Orderly) (running : state.exited = false)
    (free : ¬ state.Deadlocked) :
    ∃ labels final, (∀ label ∈ labels, label.isTick = false) ∧
      mainMachine.Reaches state labels final ∧ final.main = .finished ∧ final.exited = false := by
  have nearer : ∀ before : MainState,
      before.Orderly ∧ ¬ before.Deadlocked ∧ before.exited = false →
      0 < before.stepsLeft → ∃ label next, label.isTick = false ∧ True ∧
        mainMachine.step before label = some next ∧
        (next.Orderly ∧ ¬ next.Deadlocked ∧ next.exited = false) ∧
        next.stepsLeft < before.stepsLeft := by
    rintro before ⟨orderly, free, running⟩ pending
    have notOver : before.isOver = false := isOver_eq_false_iff.mpr
      ⟨running, fun ended => Nat.ne_of_gt pending (stepsLeft_eq_zero_iff.mpr ended)⟩
    obtain ⟨label, next, notTick, stepped, closer⟩ := orderly.progress free notOver
    exact ⟨label, next, notTick, trivial, stepped,
      ⟨orderly.step stepped, closer.notDeadlocked, closer.exited.trans running⟩,
      closer.stepsLeft⟩
  obtain ⟨labels, final, quiet, reached, ⟨-, -, sameExit⟩, done⟩ := Machine.exists_run_of_rank
    (P := fun state : MainState => state.Orderly ∧ ¬ state.Deadlocked ∧ state.exited = false)
    stepsLeft (fun label : MainLabel => label.isTick = false) nearer ⟨orderly, free, running⟩
  exact ⟨labels, final, quiet, reached, stepsLeft_eq_zero_iff.mp done, sameExit⟩

/-- A server that sends its error never waits for `main` to receive one. -/
theorem Orderly.errors_lt (orderly : state.Orderly) {server : Server}
    (member : server ∈ state.servers) (failing : server.phase = .failing) :
    state.errors < serverErrChCapacity := by
  have pending : 0 < state.servers.countP Server.pending :=
    List.countP_pos_iff.mpr ⟨server, member, by simp [Server.pending, failing]⟩
  have bounded := orderly.errors
  have few := orderly.few
  omega

end MainState

theorem mode_of_runs {admits : MainState → MainLabel → Prop} {start state : MainState}
    {labels : List MainLabel} (run : mainMachine.Runs admits start labels state) :
    state.mode = start.mode := by
  refine run.invariant (P := fun state => state.mode = start.mode) rfl
    fun same _ transition => (MainState.step_mode transition).trans same

/-- In every run of the process: a server is never kept waiting with its error. When `main`
returns, no goroutine that `Stop` waits for is cut off in a tick. In OP mode `main` can always be
brought to its end without any new tick. In Nitro mode it can, unless `Stop` of the delayed
message fetcher waits under `mu` for the goroutine that waits for `mu`: then `main` never
returns, and the process is over only if the feed client, with a dial that began before the
cancellation, finds the wrong chain. -/
theorem process_ends_unless_deadlocked {mode : Mode} {webSocket : Bool} {labels : List MainLabel}
    {process : MainState} (run : mainMachine.Reaches (.start mode webSocket) labels process) :
    (∀ server ∈ process.servers, server.phase = .failing →
      process.errors < serverErrChCapacity) ∧
    (process.main = .finished → ∀ worker, (process.loop worker).active = false) ∧
    (process.exited = false → ¬ process.Deadlocked → ∃ more final,
      (∀ label ∈ more, label.isTick = false) ∧ mainMachine.Reaches process more final ∧
        final.main = .finished ∧ final.exited = false) ∧
    (process.Deadlocked → mode = .nitro ∧ ∀ more later, mainMachine.Reaches process more later →
      later.Deadlocked ∧ (later.isOver = true → process.exited = true ∨
        process.feed = .dialing ∨ process.feed = .verifying)) := by
  have orderly := orderly_of_runs run
  refine ⟨fun server member => orderly.errors_lt member, fun finished worker => ?_,
    fun running free => orderly.exists_end running free,
    fun deadlocked => ⟨?_, fun more later continued => ?_⟩⟩
  · exact orderly.ended worker (by rw [finished]; cases worker <;> decide)
  · have takes := orderly.takes .fetcher (.inl deadlocked.2)
    rw [mode_of_runs run] at takes
    cases mode with
    | op => cases takes
    | nitro => rfl
  · obtain ⟨-, stuck, risk⟩ := continued.invariant
      (P := fun state => state.Orderly ∧ state.Deadlocked ∧ (state.AtRisk → process.AtRisk))
      ⟨orderly, deadlocked, id⟩ fun kept _ transition =>
        have moved := kept.1.deadlocked_step kept.2.1 transition
        ⟨kept.1.step transition, moved.1, fun risky => kept.2.2 (moved.2 risky)⟩
    refine ⟨stuck, fun isOver => ?_⟩
    have exited : later.exited = true := by
      simpa [MainState.isOver, stuck.1] using isOver
    refine (risk (.inl exited)).imp id fun undecided => ?_
    cases feed : process.feed with
    | dialing => exact .inl rfl
    | verifying => exact .inr rfl
    | notStarted | looping | connected | awaiting | returned | rejected =>
        rw [feed] at undecided
        cases undecided

/-- A Nitro proxy that is told to end while a poll of the fetcher has its headers, and the feed
client waits for a broadcast. -/
def sampleShutdown : List MainLabel :=
  [.streamer true, .advance, .advance, .advance, .advance, .worker .poller (.answer .selecting),
    .feed .proceed, .feed (.dialed true), .feed (.verified true), .feed .proceed,
    .worker .fetcher .tick, .worker .fetcher (.answer .locking), .signal, .advance, .advance,
    .shutdownReturns 0, .advance, .advance, .worker .verifier .exit, .advance, .advance,
    .worker .poller .exit, .advance]

/-- The order in which `main` cancels and waits does not help: everything else that it waits for
has returned. Had the fetcher got its lock before `Stop` did, `main` would have returned, with
the feed client still in its read. -/
theorem process_deadlocks_on_signal :
    (∃ process, mainMachine.Reaches (.start .nitro false) (sampleShutdown ++ [.advance]) process ∧
      process.Deadlocked ∧ ∀ more later, mainMachine.Reaches process more later →
        later.Deadlocked ∧ later.isOver = false) ∧
    ∃ process, mainMachine.Reaches (.start .nitro false) (sampleShutdown ++
        [.worker .fetcher .acquire, .worker .fetcher (.release .selecting), .advance,
          .worker .fetcher .exit, .advance, .advance, .advance]) process ∧
      process.main = .finished ∧ (∀ worker, (process.loop worker).active = false) ∧
      process.feed = .awaiting := by
  constructor
  · obtain ⟨process, computed, deadlocked, reading, running⟩ : ∃ process,
        mainMachine.exec (fun _ _ => True) (.start .nitro false)
          (sampleShutdown ++ [.advance]) = some process ∧
          process.Deadlocked ∧ process.feed = .awaiting ∧ process.exited = false :=
      ⟨_, rfl, ⟨rfl, rfl⟩, rfl, rfl⟩
    have run := Machine.Runs.ofExec computed
    refine ⟨process, run, deadlocked, fun more later continued => ?_⟩
    obtain ⟨stuck, ends⟩ :=
      ((process_ends_unless_deadlocked run).2.2.2 deadlocked).2 more later continued
    refine ⟨stuck, Bool.eq_false_iff.mpr fun isOver => ?_⟩
    have cause := ends isOver
    rw [reading, running] at cause
    rcases cause with ⟨⟨⟩⟩ | ⟨⟨⟩⟩ | ⟨⟨⟩⟩
  · obtain ⟨process, computed, finished, reading⟩ : ∃ process,
        mainMachine.exec (fun _ _ => True) (.start .nitro false) (sampleShutdown ++
          [.worker .fetcher .acquire, .worker .fetcher (.release .selecting), .advance,
            .worker .fetcher .exit, .advance, .advance, .advance]) = some process ∧
          process.main = .finished ∧ process.feed = .awaiting := ⟨_, rfl, rfl, rfl⟩
    have run := Machine.Runs.ofExec computed
    exact ⟨process, run, finished, (process_ends_unless_deadlocked run).2.1 finished, reading⟩

end EspressoProxy.Proxy
