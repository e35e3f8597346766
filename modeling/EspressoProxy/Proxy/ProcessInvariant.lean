import EspressoProxy.Proxy.Process

/-!
# What holds in every run of a process

`main` goes through its phases in one direction. A goroutine of the verifier is there from the
phase that spawns it to the one that waits for it, the lock is held by the goroutine that is in
a section under it or by `Stop`, and the servers that can still send an error are counted.
-/

namespace EspressoProxy.Proxy

open EspressoProxy.Semantics

/-- The phases in the order in which `main` goes through them. -/
def MainPhase.stage : MainPhase → Nat
  | .startingStreamer => 0
  | .startingPoller => 1
  | .startingFetcher => 2
  | .spawning => 3
  | .startingServers => 4
  | .selecting => 5
  | .cancelling => 6
  | .shuttingDown => 7
  | .awaitingServers => 8
  | .stopping => 9
  | .awaitingVerifier => 10
  | .stoppingPoller => 11
  | .awaitingPoller => 12
  | .lockingFetcher => 13
  | .awaitingFetcher => 14
  | .awaitingStreamer => 15
  | .closing => 16
  | .finished => 17

/-- The stage in which the goroutine is spawned. -/
def Worker.spawned : Worker → Nat
  | .poller => 1
  | .fetcher => 2
  | .verifier => 3

/-- The stage in which `main` waits for the goroutine. -/
def Worker.awaited : Worker → Nat
  | .verifier => 10
  | .poller => 12
  | .fetcher => 14

theorem Worker.spawned_lt (worker : Worker) : worker.spawned < 4 := by
  cases worker <;> decide

def Server.pending (server : Server) : Bool := server.phase ≠ .returned

structure MainState.Orderly (state : MainState) : Prop where
  cancelled : 7 ≤ state.main.stage → state.cancelled = true
  unstarted : ∀ worker, state.main.stage ≤ worker.spawned → state.loop worker = .notStarted
  ended : ∀ worker, worker.awaited < state.main.stage → (state.loop worker).active = false
  held : ∀ worker, state.mu = some (.worker worker) ↔ state.loop worker = .holding
  stopped : state.mu = some .stop ↔ state.main = .awaitingFetcher
  takes : ∀ worker, state.loop worker = .locking ∨ state.loop worker = .holding →
    state.mode.takesMu worker = true
  nitro : state.main = .startingFetcher → state.mode = .nitro
  noFetcher : state.mode = .op → state.loop .fetcher = .notStarted
  errors : state.errors + state.servers.countP Server.pending ≤ state.servers.length
  few : state.servers.length ≤ serverErrChCapacity
  quiet : state.main.stage ≤ 4 → ∀ server ∈ state.servers, server.phase = .notStarted
  shutdowns : state.main = .awaitingServers → ∀ server ∈ state.servers,
    server.shutdown ≠ .notCalled

namespace MainState

variable {state after : MainState}

theorem orderly_start (mode : Mode) (webSocket : Bool) : (start mode webSocket).Orderly where
  cancelled late := absurd (show 7 ≤ mode.firstPhase.stage from late) (by cases mode <;> decide)
  unstarted _ _ := rfl
  ended _ _ := rfl
  held _ := by simp [start]
  stopped := by cases mode <;> simp [start, Mode.firstPhase]
  takes _ busy := by simp [start] at busy
  nitro early := by cases mode <;> simp [start, Mode.firstPhase] at early
  noFetcher _ := rfl
  errors := by
    rw [show (start mode webSocket).errors = 0 from rfl, Nat.zero_add]
    exact List.countP_le_length
  few := by
    rw [start, List.length_replicate]
    cases webSocket <;> decide
  quiet _ server member := by rw [List.eq_of_mem_replicate member]
  shutdowns late := by cases mode <;> simp [start, Mode.firstPhase] at late

/-- Something happens to servers only. -/
theorem Orderly.withServers (orderly : state.Orderly) {servers : List Server} {errors : Nat}
    (sameLength : servers.length = state.servers.length)
    (sent : errors + servers.countP Server.pending ≤
      state.errors + state.servers.countP Server.pending)
    (quiet : state.main.stage ≤ 4 → servers = state.servers)
    (called : state.main = .awaitingServers → ∀ server ∈ servers, server.shutdown ≠ .notCalled) :
    { state with servers, errors : MainState }.Orderly :=
  { orderly with
    errors := sameLength ▸ Nat.le_trans sent orderly.errors
    few := sameLength ▸ orderly.few
    quiet := fun early => quiet early ▸ orderly.quiet early
    shutdowns := called }

/-- The moves of `main` that touch neither the lock nor a goroutine. -/
def Moves (before after : MainPhase) : Prop :=
  before.stage ≤ after.stage ∧ before ≠ .awaitingFetcher ∧ after ≠ .awaitingFetcher ∧
    after ≠ .startingFetcher

instance (before after : MainPhase) : Decidable (Moves before after) :=
  inferInstanceAs (Decidable (_ ∧ _))

theorem Orderly.move (orderly : state.Orderly) {before phase : MainPhase} {cancelled : Bool}
    (here : state.main = before) (moves : Moves before phase)
    (isCancelled : 7 ≤ phase.stage → cancelled = true)
    (passed : ∀ worker : Worker, before.stage ≤ worker.awaited ∧ worker.awaited < phase.stage →
      (state.loop worker).active = false)
    (called : phase = .awaitingServers → ∀ server ∈ state.servers,
      server.shutdown ≠ .notCalled) :
    { state with main := phase, cancelled : MainState }.Orderly := by
  subst here
  exact { orderly with
    cancelled := isCancelled
    unstarted := fun worker early => orderly.unstarted worker (Nat.le_trans moves.1 early)
    ended := fun worker late => by
      rcases Nat.lt_or_ge worker.awaited state.main.stage with before | now
      · exact orderly.ended worker before
      · exact passed worker ⟨now, late⟩
    stopped := iff_of_false (fun held => moves.2.1 (orderly.stopped.mp held)) moves.2.2.1
    nitro := fun same => absurd same moves.2.2.2
    quiet := fun early => orderly.quiet (Nat.le_trans moves.1 early)
    shutdowns := called }

/-- The moves before the context is cancelled. -/
theorem Orderly.moveEarly (orderly : state.Orderly) {before phase : MainPhase}
    (here : state.main = before) (moves : Moves before phase) (early : phase.stage < 7) :
    { state with main := phase : MainState }.Orderly := by
  refine orderly.move here moves (fun late => absurd late (Nat.not_le.mpr early))
    (fun worker passes => ?_) ?_
  · have awaited : 10 ≤ worker.awaited := by cases worker <;> decide
    omega
  · rintro rfl
    exact absurd early (by decide)

/-- The moves after it. -/
theorem Orderly.moveLate (orderly : state.Orderly) {before phase : MainPhase}
    (here : state.main = before)
    (moves : Moves before phase ∧ 7 ≤ before.stage ∧ phase ≠ .awaitingServers)
    (passed : ∀ worker : Worker, before.stage ≤ worker.awaited ∧ worker.awaited < phase.stage →
      (state.loop worker).active = false) :
    { state with main := phase : MainState }.Orderly :=
  orderly.move here moves.1 (fun _ => orderly.cancelled (here ▸ moves.2.1)) passed
    fun same => absurd same moves.2.2

/-- `main` spawns a goroutine. -/
theorem Orderly.spawn (orderly : state.Orderly) {before phase : MainPhase} {worker : Worker}
    {loop : Loop} (here : state.main = before)
    (now : before.stage = worker.spawned ∧ worker.spawned < phase.stage ∧ phase.stage < 5)
    (fresh : loop = .selecting ∨ loop = .working)
    (fetcher : worker = .fetcher ∨ phase = .startingFetcher → state.mode = .nitro) :
    { state.withLoop worker loop with main := phase }.Orderly := by
  subst here
  obtain ⟨now, later, early⟩ := now
  have unborn := orderly.unstarted worker (Nat.le_of_eq now)
  have loopSelf : (state.withLoop worker loop).loop worker = loop := Function.update_self ..
  have loopOther {other : Worker} (different : other ≠ worker) :
      (state.withLoop worker loop).loop other = state.loop other :=
    Function.update_of_ne different _ _
  refine
    { orderly with
      cancelled := fun late => absurd (Nat.lt_of_lt_of_le early (by decide)) (Nat.not_lt.mpr late)
      unstarted := fun other unspawned => ?_
      ended := fun other late => ?_
      held := fun other => ?_
      stopped := iff_of_false (fun held => ?_) ?_
      takes := fun other busy => ?_
      nitro := fun same => fetcher (.inr same)
      noFetcher := fun isOp => ?_
      quiet := fun _ => orderly.quiet (by have := worker.spawned_lt; omega)
      shutdowns := ?_ }
  · have bound : phase.stage ≤ other.spawned := unspawned
    have different : other ≠ worker := by
      rintro rfl
      omega
    exact (loopOther different).trans (orderly.unstarted other (by omega))
  · have awaited : 10 ≤ other.awaited := by cases other <;> decide
    have bound : other.awaited < phase.stage := late
    omega
  · by_cases same : other = worker
    · subst same
      refine iff_of_false (fun held => ?_) fun holding => ?_
      · rw [(orderly.held other).mp held] at unborn
        cases unborn
      · rw [loopSelf] at holding
        rcases fresh with rfl | rfl <;> cases holding
    · rw [loopOther same]
      exact orderly.held other
  · rw [show state.main = .awaitingFetcher from orderly.stopped.mp held] at now
    cases worker <;> cases now
  · rintro rfl
    exact absurd early (by decide)
  · by_cases same : other = worker
    · subst same
      rw [loopSelf] at busy
      rcases fresh with rfl | rfl <;> rcases busy with busy | busy <;> cases busy
    · rw [loopOther same] at busy
      exact orderly.takes other busy
  · have different : Worker.fetcher ≠ worker := by
      rintro rfl
      rw [show state.mode = .op from isOp] at fetcher
      cases fetcher (.inl rfl)
    exact (loopOther different).trans (orderly.noFetcher isOp)
  · rintro rfl
    exact absurd early (by decide)

/-- `main` starts the servers. -/
theorem Orderly.serve (orderly : state.Orderly) (here : state.main = .startingServers) :
    { state with
      servers := state.servers.map ({ · with phase := .serving })
      main := .selecting : MainState }.Orderly := by
  have pending : state.servers.countP Server.pending = state.servers.length :=
    List.countP_eq_length.mpr fun server member => by
      rw [Server.pending, orderly.quiet (here ▸ Nat.le_refl _) server member]
      rfl
  have moved : { state with main := .selecting : MainState }.Orderly :=
    orderly.moveEarly here (by decide) (by decide)
  refine moved.withServers (by simp) ?_ ?_ MainPhase.noConfusion
  · simpa [pending] using List.countP_le_length
  · exact fun early => absurd (show 5 ≤ 4 from early) (by decide)

/-- `main` calls `Shutdown` of every server. -/
theorem Orderly.shutDown (orderly : state.Orderly) (here : state.main = .shuttingDown) :
    { state with
      servers := state.servers.map ({ · with shutdown := .underWay })
      main := .awaitingServers : MainState }.Orderly := by
  have called : { state with servers := state.servers.map fun server =>
      { server with shutdown := .underWay } : MainState }.Orderly := by
    refine orderly.withServers (by simp) ?_ ?_ (by simp [here])
    · rw [List.countP_map]
      exact Nat.le_refl _
    · exact fun early => absurd early (by rw [here]; decide)
  exact called.move here (by decide) (fun _ => orderly.cancelled (here ▸ Nat.le_refl _))
    (fun worker passes => absurd passes (by cases worker <;> decide)) (by simp)

/-- `Stop` of the fetcher takes the lock. -/
theorem Orderly.lock (orderly : state.Orderly) (here : state.main = .lockingFetcher)
    (free : state.mu = none) :
    { state with mu := some .stop, main := .awaitingFetcher : MainState }.Orderly :=
  { orderly with
    cancelled := fun _ => orderly.cancelled (here ▸ by decide)
    unstarted := fun worker early =>
      absurd (show 14 ≤ worker.spawned from early) (by cases worker <;> decide)
    ended := fun worker late => by
      refine orderly.ended worker ?_
      rw [here]
      cases worker with
      | verifier | poller => decide
      | fetcher => exact absurd (show 14 < 14 from late) (by decide)
    held := fun worker => iff_of_false (fun held => by cases held) fun holding => by
      rw [(orderly.held worker).mpr holding] at free
      cases free
    stopped := iff_of_true rfl rfl
    nitro := MainPhase.noConfusion
    quiet := fun early => absurd (show 14 ≤ 4 from early) (by decide)
    shutdowns := MainPhase.noConfusion }

/-- `Stop` of the fetcher gives the lock back, once the goroutine has returned. -/
theorem Orderly.unlock (orderly : state.Orderly) (here : state.main = .awaitingFetcher)
    (inactive : (state.loop .fetcher).active = false) :
    { state with mu := none, main := .awaitingStreamer : MainState }.Orderly := by
  have taken : state.mu = some .stop := orderly.stopped.mpr here
  exact { orderly with
    cancelled := fun _ => orderly.cancelled (here ▸ by decide)
    unstarted := fun worker early =>
      absurd (show 15 ≤ worker.spawned from early) (by cases worker <;> decide)
    ended := fun worker _ => by
      cases worker with
      | verifier | poller => exact orderly.ended _ (here ▸ by decide)
      | fetcher => exact inactive
    held := fun worker => iff_of_false (fun held => by cases held) fun holding => by
      rw [(orderly.held worker).mpr holding] at taken
      cases taken
    stopped := iff_of_false (fun held => by cases held) MainPhase.noConfusion
    nitro := MainPhase.noConfusion
    quiet := fun early => absurd (show 15 ≤ 4 from early) (by decide)
    shutdowns := MainPhase.noConfusion }

/-- `Stop` of the finality poller returns. -/
theorem Orderly.stopPoller (orderly : state.Orderly) (here : state.main = .awaitingPoller)
    (inactive : (state.loop .poller).active = false) :
    { state with main := state.mode.pollerStopped : MainState }.Orderly := by
  have fetcher (isOp : state.mode = .op) : (state.loop .fetcher).active = false := by
    rw [orderly.noFetcher isOp]
    rfl
  refine orderly.moveLate here (by cases state.mode <;> decide) fun worker passes => ?_
  cases worker with
  | verifier => exact absurd passes.1 (by decide)
  | poller => exact inactive
  | fetcher =>
      cases mode : state.mode with
      | op => exact fetcher mode
      | nitro =>
          rw [mode] at passes
          exact absurd passes.2 (by decide)

/-- Only the two goroutines that use the lock can be in the way of `main`. -/
theorem Orderly.mu_eq_none (orderly : state.Orderly) (outside : state.main ≠ .awaitingFetcher)
    (verifier : state.loop .verifier ≠ .holding) (fetcher : state.loop .fetcher ≠ .holding) :
    state.mu = none := by
  cases held : state.mu with
  | none => rfl
  | some holder =>
      cases holder with
      | stop => exact absurd (orderly.stopped.mp held) outside
      | worker worker =>
          have holding := (orderly.held worker).mp held
          cases worker with
          | verifier => exact absurd holding verifier
          | fetcher => exact absurd holding fetcher
          | poller =>
              have takes := orderly.takes .poller (.inr holding)
              cases mode : state.mode <;> rw [mode] at takes <;> cases takes

theorem Orderly.advance (orderly : state.Orderly) (transition : state.advance = some after) :
    after.Orderly := by
  have passesNone {before phase : MainPhase}
      (none : ∀ worker : Worker, ¬ (before.stage ≤ worker.awaited ∧ worker.awaited < phase.stage))
      (worker : Worker) (passes : before.stage ≤ worker.awaited ∧ worker.awaited < phase.stage) :
      (state.loop worker).active = false := absurd passes (none worker)
  cases phase : state.main with
  | startingStreamer | selecting | finished =>
      simp [MainState.advance, phase] at transition
  | startingPoller =>
      simp only [MainState.advance, phase, Option.some.injEq] at transition
      subst transition
      refine orderly.spawn phase (by cases state.mode <;> decide) (.inr rfl) ?_
      cases mode : state.mode with
      | op => rintro (⟨⟨⟩⟩ | ⟨⟨⟩⟩)
      | nitro => exact fun _ => rfl
  | startingFetcher =>
      simp only [MainState.advance, phase] at transition
      split at transition <;> cases transition
      exact orderly.spawn phase (by decide) (.inl rfl) fun _ => orderly.nitro phase
  | spawning =>
      simp only [MainState.advance, phase, Option.some.injEq] at transition
      subst transition
      exact orderly.spawn phase (by decide) (.inl rfl) (by rintro (⟨⟨⟩⟩ | ⟨⟨⟩⟩))
  | startingServers =>
      simp only [MainState.advance, phase, Option.some.injEq] at transition
      subst transition
      exact orderly.serve phase
  | cancelling =>
      simp only [MainState.advance, phase, Option.some.injEq] at transition
      subst transition
      exact orderly.move phase (by decide) (fun _ => rfl)
        (passesNone fun worker => by cases worker <;> decide) MainPhase.noConfusion
  | shuttingDown =>
      simp only [MainState.advance, phase, Option.some.injEq] at transition
      subst transition
      exact orderly.shutDown phase
  | awaitingServers =>
      simp only [MainState.advance, phase] at transition
      split at transition <;> cases transition
      exact orderly.moveLate phase (by decide)
        (passesNone fun worker => by cases worker <;> decide)
  | stopping | stoppingPoller | awaitingStreamer | closing =>
      simp only [MainState.advance, phase, Option.some.injEq] at transition
      subst transition
      exact orderly.moveLate phase (by decide)
        (passesNone fun worker => by cases worker <;> decide)
  | awaitingVerifier =>
      simp only [MainState.advance, phase] at transition
      split at transition <;> cases transition
      rename_i inactive
      refine orderly.moveLate phase (by decide) fun worker passes => ?_
      cases worker with
      | verifier => exact Bool.eq_false_iff.mpr inactive
      | poller | fetcher => exact absurd passes.2 (by decide)
  | awaitingPoller =>
      simp only [MainState.advance, phase] at transition
      split at transition <;> cases transition
      rename_i inactive
      exact orderly.stopPoller phase (Bool.eq_false_iff.mpr inactive)
  | lockingFetcher =>
      simp only [MainState.advance, phase] at transition
      split at transition <;> cases transition
      rename_i free
      exact orderly.lock phase free
  | awaitingFetcher =>
      simp only [MainState.advance, phase] at transition
      split at transition <;> cases transition
      rename_i inactive
      exact orderly.unlock phase (Bool.eq_false_iff.mpr inactive)

/-- What a step of a goroutine can do. -/
inductive WorkOutcome (before : MainState) (worker : Worker) : MainState → Prop where
  | acquired (phase : before.loop worker = .locking) (free : before.mu = none) :
      WorkOutcome before worker
        { before.withLoop worker .holding with mu := some (.worker worker) }
  | released {next : Loop} (phase : before.loop worker = .holding) (follows : next.follows = true)
      (takes : next = .locking → before.mode.takesMu worker = true) :
      WorkOutcome before worker { before.withLoop worker next with mu := none }
  | moved {next : Loop} (phase : before.loop worker = .selecting ∨ before.loop worker = .working)
      (outside : next ≠ .holding) (takes : next = .locking → before.mode.takesMu worker = true) :
      WorkOutcome before worker (before.withLoop worker next)

theorem work_outcome {worker : Worker} {action : LoopAction}
    (transition : state.work worker action = some after) : WorkOutcome state worker after := by
  unfold work at transition
  split at transition
  · cases transition
  · rename_i next acted
    split at transition
    · cases transition
    · rename_i permitted
      have takes (locking : next = .locking) : state.mode.takesMu worker = true := by
        by_contra refused
        exact permitted ⟨locking, Bool.eq_false_iff.mpr refused⟩
      cases action with
      | tick =>
          simp only [Loop.act, Option.ite_none_right_eq_some, Option.some.injEq] at acted
          cases transition
          exact .moved (.inl acted.1) (acted.2 ▸ Loop.noConfusion) takes
      | answer chosen =>
          simp only [Loop.act, Option.ite_none_right_eq_some, Option.some.injEq] at acted
          obtain ⟨⟨phase, follows⟩, rfl⟩ := acted
          cases transition
          refine .moved (.inr phase) ?_ takes
          rintro rfl
          cases follows
      | acquire =>
          simp only [Loop.act, Option.ite_none_right_eq_some, Option.some.injEq] at acted
          obtain ⟨⟨phase, free⟩, rfl⟩ := acted
          cases transition
          exact .acquired phase (Option.isNone_iff_eq_none.mp free)
      | release chosen =>
          simp only [Loop.act, Option.ite_none_right_eq_some, Option.some.injEq] at acted
          obtain ⟨⟨phase, follows⟩, rfl⟩ := acted
          cases transition
          exact .released phase follows takes
      | exit =>
          simp only [Loop.act, Option.ite_none_right_eq_some, Option.some.injEq] at acted
          cases transition
          exact .moved (.inl acted.1.1) (acted.2 ▸ Loop.noConfusion) takes

/-- A goroutine that is active takes a step, and the lock is accounted for. -/
theorem Orderly.withLoop (orderly : state.Orderly) {worker : Worker} {next : Loop}
    {mu : Option MuHolder} (active : (state.loop worker).active = true)
    (held : ∀ other, mu = some (.worker other) ↔ (state.withLoop worker next).loop other = .holding)
    (stopped : mu = some .stop ↔ state.mu = some .stop)
    (takes : next = .locking ∨ next = .holding → state.mode.takesMu worker = true) :
    { state.withLoop worker next with mu }.Orderly := by
  have same {other : Worker} (inactive : (state.loop other).active = false) :
      (state.withLoop worker next).loop other = state.loop other := by
    refine Function.update_of_ne ?_ _ _
    rintro rfl
    rw [active] at inactive
    cases inactive
  exact { orderly with
    unstarted := fun other early => by
      have unborn := orderly.unstarted other early
      exact (same (by rw [unborn, Loop.active])).trans unborn
    ended := fun other late => by
      have inactive := orderly.ended other late
      exact (congrArg Loop.active (same inactive)).trans inactive
    held := held
    stopped := stopped.trans orderly.stopped
    takes := fun other busy => by
      by_cases isWorker : other = worker
      · subst isWorker
        rw [show (state.withLoop other next).loop other = next from Function.update_self ..] at busy
        exact takes busy
      · rw [show (state.withLoop worker next).loop other = state.loop other from
          Function.update_of_ne isWorker _ _] at busy
        exact orderly.takes other busy
    noFetcher := fun isOp => by
      have unborn := orderly.noFetcher isOp
      exact (same (by rw [unborn, Loop.active])).trans unborn }

theorem Orderly.work (orderly : state.Orderly) {worker : Worker} {action : LoopAction}
    (transition : state.work worker action = some after) : after.Orderly := by
  have loopSelf (next : Loop) : (state.withLoop worker next).loop worker = next :=
    Function.update_self ..
  have loopOther (next : Loop) {other : Worker} (different : other ≠ worker) :
      (state.withLoop worker next).loop other = state.loop other :=
    Function.update_of_ne different _ _
  cases work_outcome transition with
  | acquired phase free =>
      refine orderly.withLoop (by rw [phase]; rfl) (fun other => ?_) ?_
        fun _ => orderly.takes worker (.inl phase)
      · by_cases same : other = worker
        · subst same
          exact iff_of_true rfl (loopSelf _)
        · refine iff_of_false (fun holds => same ?_) fun holding => ?_
          · injection holds with holds
            injection holds with holds
            exact holds.symm
          · rw [loopOther _ same, ← orderly.held other, free] at holding
            cases holding
      · rw [free]
        exact iff_of_false (fun holds => by cases holds) fun holds => by cases holds
  | @released next phase follows takes =>
      have holds := (orderly.held worker).mpr phase
      refine orderly.withLoop (by rw [phase]; rfl) (fun other => ?_) ?_ ?_
      · refine iff_of_false (fun nobody => by cases nobody) fun holding => ?_
        by_cases same : other = worker
        · subst same
          rw [loopSelf] at holding
          rw [holding] at follows
          cases follows
        · rw [loopOther _ same, ← orderly.held other, holds] at holding
          injection holding with holding
          injection holding with holding
          exact same holding.symm
      · rw [holds]
        exact iff_of_false (fun nobody => by cases nobody) fun nobody => by cases nobody
      · rintro (locking | rfl)
        · exact takes locking
        · cases follows
  | @moved next phase outside takes =>
      have notHolding : state.loop worker ≠ .holding := by
        rcases phase with phase | phase <;> rw [phase] <;> exact Loop.noConfusion
      refine orderly.withLoop ?_ (fun other => ?_) Iff.rfl ?_
      · rcases phase with phase | phase <;> rw [phase] <;> rfl
      · by_cases same : other = worker
        · subst same
          rw [loopSelf]
          exact iff_of_false (fun holds => notHolding ((orderly.held other).mp holds)) outside
        · rw [loopOther _ same]
          exact orderly.held other
      · rintro (locking | holding)
        · exact takes locking
        · exact absurd holding outside

/-- What a step of a server can do: it replaces one that permits it. -/
theorem withServer_eq_some {index : Nat} {permitted : Server → Bool} {change : Server → Server}
    (transition : state.withServer index permitted change = some after) :
    ∃ server, state.servers[index]? = some server ∧ permitted server = true ∧
      after = { state with servers := state.servers.set index (change server) } := by
  unfold withServer at transition
  split at transition
  · cases transition
  · rename_i server found
    split at transition
    · rename_i allowed
      cases transition
      exact ⟨server, found, allowed, rfl⟩
    · cases transition

theorem step_mode {label : MainLabel} (transition : state.step label = some after) :
    after.mode = state.mode := by
  unfold MainState.step at transition
  split at transition
  · cases transition
  cases label with
  | advance =>
      simp only [MainState.advance] at transition
      split at transition <;> (try split at transition) <;> cases transition <;> rfl
  | streamer started =>
      simp only at transition
      split at transition
      · cases started <;> cases transition <;> rfl
      · cases transition
  | urlRejected | signal | serverError =>
      simp only at transition
      split at transition <;> cases transition
      rfl
  | worker worker action =>
      cases work_outcome transition with
      | acquired | released | moved => rfl
  | feed action =>
      obtain ⟨next, -, rfl⟩ := Option.map_eq_some_iff.mp transition
      rfl
  | serverFails | serverClosed | shutdownReturns =>
      obtain ⟨server, -, -, rfl⟩ := withServer_eq_some transition
      rfl
  | serverSends =>
      simp only at transition
      split at transition
      · obtain ⟨sent, moved, rfl⟩ := Option.map_eq_some_iff.mp transition
        obtain ⟨server, -, -, rfl⟩ := withServer_eq_some moved
        rfl
      · cases transition

/-- A server that has been started changes its state. -/
theorem Orderly.withServer (orderly : state.Orderly) {index : Nat} {server changed : Server}
    {errors : Nat} (found : state.servers[index]? = some server)
    (started : server.phase ≠ .notStarted ∨ changed.phase = server.phase)
    (called : changed.shutdown = .notCalled → server.shutdown = .notCalled)
    (sent : errors + (if changed.pending then 1 else 0) ≤
      state.errors + if server.pending then 1 else 0) :
    { state with servers := state.servers.set index changed, errors }.Orderly := by
  obtain ⟨bound, rfl⟩ := List.getElem?_eq_some_iff.mp found
  refine { orderly with
    errors := ?_
    few := by simpa using orderly.few
    quiet := fun early other member => ?_
    shutdowns := fun same other member => ?_ }
  · have counted := orderly.errors
    have positive : (if (state.servers[index]).pending then 1 else 0) ≤
        state.servers.countP Server.pending := by
      split
      · rename_i pending
        exact List.countP_pos_iff.mpr ⟨_, List.getElem_mem bound, pending⟩
      · exact Nat.zero_le _
    simp only [List.countP_set bound, List.length_set]
    omega
  · have quiet := orderly.quiet early
    rcases List.mem_or_eq_of_mem_set member with other | rfl
    · exact quiet _ other
    · rcases started with started | same
      · exact absurd (quiet _ (List.getElem_mem bound)) started
      · exact same.trans (quiet _ (List.getElem_mem bound))
  · have shutdowns := orderly.shutdowns same
    rcases List.mem_or_eq_of_mem_set member with other | rfl
    · exact shutdowns _ other
    · exact fun none => shutdowns _ (List.getElem_mem bound) (called none)

theorem Orderly.step {label : MainLabel} (orderly : state.Orderly)
    (transition : state.step label = some after) : after.Orderly := by
  unfold MainState.step at transition
  split at transition
  · cases transition
  cases label with
  | advance => exact orderly.advance transition
  | streamer started =>
      simp only at transition
      split at transition
      · rename_i phase
        cases started with
        | true =>
            cases transition
            have moved : { state with main := .startingPoller : MainState }.Orderly :=
              orderly.moveEarly phase (by decide) (by decide)
            exact { moved with }
        | false =>
            cases transition
            exact { orderly with }
      · cases transition
  | urlRejected =>
      simp only at transition
      split at transition <;> cases transition
      exact { orderly with }
  | signal =>
      simp only at transition
      split at transition <;> cases transition
      rename_i phase
      exact orderly.moveEarly phase (by decide) (by decide)
  | serverError =>
      simp only at transition
      split at transition <;> cases transition
      rename_i received
      have moved : { state with main := .cancelling : MainState }.Orderly :=
        orderly.moveEarly received.1 (by decide) (by decide)
      exact moved.withServers rfl (Nat.add_le_add_right (Nat.sub_le _ _) _) (fun _ => rfl)
        MainPhase.noConfusion
  | worker worker action => exact orderly.work transition
  | feed action =>
      obtain ⟨next, -, rfl⟩ := Option.map_eq_some_iff.mp transition
      exact { orderly with }
  | serverFails index =>
      obtain ⟨server, found, permitted, rfl⟩ := withServer_eq_some transition
      have serving : server.phase = .serving := of_decide_eq_true permitted
      refine orderly.withServer found (.inl ?_) id ?_
      · rw [serving]
        exact ServerPhase.noConfusion
      · simp [Server.pending, serving]
  | serverSends index =>
      simp only at transition
      split at transition
      · obtain ⟨sent, moved, rfl⟩ := Option.map_eq_some_iff.mp transition
        obtain ⟨server, found, permitted, rfl⟩ := withServer_eq_some moved
        have failing : server.phase = .failing := of_decide_eq_true permitted
        refine orderly.withServer found (.inl ?_) id ?_
        · rw [failing]
          exact ServerPhase.noConfusion
        · simp [Server.pending, failing]
      · cases transition
  | serverClosed index =>
      obtain ⟨server, found, permitted, rfl⟩ := withServer_eq_some transition
      obtain ⟨serving, -⟩ := of_decide_eq_true permitted
      refine orderly.withServer found (.inl ?_) id ?_
      · rw [serving]
        exact ServerPhase.noConfusion
      · simp [Server.pending, serving]
  | shutdownReturns index =>
      obtain ⟨server, found, permitted, rfl⟩ := withServer_eq_some transition
      exact orderly.withServer found (.inr rfl) ShutdownPhase.noConfusion (Nat.le_refl _)

end MainState

theorem orderly_of_runs {admits : MainState → MainLabel → Prop} {mode : Mode} {webSocket : Bool}
    {labels : List MainLabel} {state : MainState}
    (run : mainMachine.Runs admits (.start mode webSocket) labels state) : state.Orderly :=
  run.invariant (P := MainState.Orderly) (MainState.orderly_start mode webSocket)
    fun orderly _ transition => orderly.step transition

end EspressoProxy.Proxy
