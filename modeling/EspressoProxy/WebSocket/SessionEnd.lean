import EspressoProxy.WebSocket.Session

/-!
# The end of a WebSocket session

A loop that ends closes both connections, so the other one fails at its next operation and
ends as well: neither the handler nor the goroutine of `Upgrade` outlives the other for long.
-/

namespace EspressoProxy.WebSocket

open EspressoProxy.JsonRpc EspressoProxy.Proxy EspressoProxy.Store EspressoProxy.Adapters
open EspressoProxy.Semantics

variable {Text : Type} {text : JSONText Text} {interceptor : Interceptor}

/-! ### Both connections are closed at the end of a loop -/

/-- How a loop that was left stands with its calls: of the last two, those that are not left
were made. -/
def LoopPhase.Closing (left made : List CloseCall) : LoopPhase Text → Prop
  | .abandoning | .relayingClose => ∃ call, left = call :: finalCalls
  | .closing count => left.length = count ∧
      ∃ earlier, finalCalls = earlier ++ left ∧ earlier ⊆ made
  | _ => True

theorem LoopPhase.Closing.mono {left made more : List CloseCall} {phase : LoopPhase Text}
    (closing : phase.Closing left made) (included : made ⊆ more) : phase.Closing left more := by
  cases phase with
  | closing count =>
      obtain ⟨length, earlier, split, subset⟩ := closing
      exact ⟨length, earlier, split, List.Subset.trans subset included⟩
  | abandoning | relayingClose => exact closing
  | checking | reading | intercepting | reporting | writing => trivial

theorem closing_finalCalls (made : List CloseCall) :
    (LoopPhase.closing 2 : LoopPhase Text).Closing finalCalls made :=
  ⟨rfl, [], rfl, List.nil_subset _⟩

theorem Calls.closing_step {intercepted cancelled : Bool} {input : List (Frame Text)}
    {direction : Direction} {phase : LoopPhase Text} {label : LoopLabel}
    {effect : LoopEffect Text} {calls : Calls}
    (moved : loopStep text interceptor intercepted cancelled input phase label = some effect)
    (closing : phase.Closing calls.left calls.made) :
    effect.phase.Closing (calls.step direction cancelled phase label).left
      (calls.step direction cancelled phase label).made := by
  unfold loopStep at moved
  split at moved
  case h_1 =>
    cases moved
    cases cancelled with
    | true => exact closing_finalCalls _
    | false => trivial
  case h_2 =>
    split at moved <;> cases moved
    cases intercepted <;> trivial
  case h_3 => split at moved <;> cases moved <;> trivial
  case h_4 | h_10 | h_11 =>
    cases moved
    exact closing_finalCalls _
  case h_5 | h_8 | h_9 =>
    cases moved
    exact ⟨_, rfl⟩
  case h_7 =>
    cases moved
    trivial
  case h_6 | h_12 =>
    -- the call of its own is made, and the last two are left
    cases moved
    obtain ⟨call, left⟩ := closing
    simp only [Calls.step, left]
    exact closing_finalCalls _
  case h_13 =>
    cases moved
    obtain ⟨length, earlier, split, subset⟩ := closing
    obtain ⟨call, rest, left⟩ := List.exists_cons_of_length_eq_add_one length
    rw [left] at length split
    simp only [Calls.step, left]
    refine ⟨Nat.succ.inj length, earlier ++ [call], by simpa using split, ?_⟩
    exact List.append_subset.mpr ⟨List.subset_append_of_subset_left _ subset,
      List.subset_append_right _ _⟩
  case h_14 => cases moved

theorem closing_of_runs {admits : Session Text → SessionLabel → Prop}
    {client upstream : List (Frame Text)} {labels : List SessionLabel} {session : Session Text}
    (run : (sessionMachine text interceptor).Runs admits (.start client upstream) labels
      session) (direction : Direction) :
    (session.loopPhase direction).Closing (session.callsLeft direction) session.made := by
  refine run.invariant
    (P := fun session => ∀ direction : Direction,
      (session.loopPhase direction).Closing (session.callsLeft direction) session.made)
    ?_ ?_ direction
  · intro direction
    cases direction <;> trivial
  · intro before label after closing _ transition second
    cases sessionStep_outcome transition with
    | setUp => exact closing second
    | refused => exact (closing second).mono (List.subset_append_left _ _)
    | cancelled =>
        cases second with
        | requests => exact closing .requests
        | replies => exact closing .replies
    | @loop direction label effect bridge _ _ moved _ now other =>
        rw [Session.made_withLoop, Session.callsLeft_withLoop]
        by_cases same : second = direction
        · subst same
          rw [now, if_pos rfl]
          exact Calls.closing_step moved (closing second)
        · rw [other second same, if_neg same]
          exact (closing second).mono (before.made_subset_callsNext direction label)

/-- A loop that has ended has closed both connections. -/
theorem closed_of_ended {session : Session Text} {direction : Direction}
    (closing : (session.loopPhase direction).Closing (session.callsLeft direction) session.made)
    (ended : session.loopPhase direction = .closing 0) (side : Side) : session.closed side := by
  rw [ended] at closing
  obtain ⟨length, earlier, split, subset⟩ := closing
  rw [List.length_eq_zero_iff.mp length, List.append_nil] at split
  rw [← split] at subset
  refine List.any_eq_true.mpr ?_
  cases side with
  | client => exact ⟨⟨.client, statusNormalClosure, "closing"⟩, subset (by decide), by decide⟩
  | upstream => exact ⟨⟨.upstream, statusNormalClosure, "closing"⟩, subset (by decide), by decide⟩

/-! ### After the end of a loop -/

/-- How many steps a loop can make at most while no operation succeeds. -/
def LoopPhase.stepsToEnd : LoopPhase Text → Nat
  | .closing left => left
  | .abandoning | .relayingClose => 3
  | .reading | .reporting _ | .writing _ => 4
  | .checking | .intercepting _ => 5

def Session.stepsToEnd (session : Session Text) : Nat :=
  session.bridge.requests.stepsToEnd + session.bridge.replies.stepsToEnd

/-- The steps of the loops in a run. -/
def loopSteps (labels : List SessionLabel) : Nat :=
  labels.countP fun label =>
    match label with
    | .loop _ _ => true
    | _ => false

/-- Without success a loop comes closer to its end and writes nothing. -/
theorem loopStep_stepsToEnd {intercepted cancelled : Bool} {input : List (Frame Text)}
    {direction : Direction} {phase : LoopPhase Text} {label : LoopLabel}
    {effect : LoopEffect Text}
    (moved : loopStep text interceptor intercepted cancelled input phase label = some effect)
    (fails : label = .outcome none → phase.uses direction = none) :
    effect.phase.stepsToEnd < phase.stepsToEnd ∧ effect.written = [] ∧ effect.reported = [] := by
  unfold loopStep at moved
  split at moved
  case h_1 =>
    cases moved
    cases cancelled <;> simp [LoopPhase.stepsToEnd]
  case h_3 => split at moved <;> cases moved <;> simp [LoopPhase.stepsToEnd]
  case h_2 | h_4 | h_7 => cases fails rfl
  case h_14 => cases moved
  all_goals
    cases moved
    simp [LoopPhase.stepsToEnd]

/-- A loop that has not ended can go on, also if no operation succeeds. -/
theorem exists_loopStep (intercepted cancelled : Bool) (input : List (Frame Text))
    (direction : Direction) {phase : LoopPhase Text} (running : phase ≠ .closing 0) :
    ∃ label effect,
      loopStep text interceptor intercepted cancelled input phase label = some effect ∧
      (label = .outcome none → phase.uses direction = none) := by
  cases phase with
  | checking => exact ⟨.check, _, rfl, nofun⟩
  | reading | writing | reporting => exact ⟨.outcome (some .other), _, rfl, nofun⟩
  | abandoning | relayingClose => exact ⟨.outcome none, _, rfl, fun _ => rfl⟩
  | intercepting frame =>
      cases result : interceptFrame text interceptor ⟨0, 0, 0⟩ frame with
      | ok next => exact ⟨.intercept ⟨0, 0, 0⟩, _, by rw [loopStep, result], nofun⟩
      | error cause => exact ⟨.intercept ⟨0, 0, 0⟩, _, by rw [loopStep, result], nofun⟩
  | closing left =>
      cases left with
      | zero => exact absurd rfl running
      | succ left => exact ⟨.outcome none, _, rfl, fun _ => rfl⟩

/-- The bridging has begun and both connections are closed. -/
structure Session.Closed (session : Session Text) : Prop where
  bridging : session.phase = .bridging
  closed : ∀ side, session.closed side

theorem Session.Closed.fails {session : Session Text} {direction : Direction}
    {label : LoopLabel} (closed : session.Closed)
    (permitted : session.permits direction label) :
    label = .outcome none → (session.loopPhase direction).uses direction = none := by
  rintro rfl
  cases used : (session.loopPhase direction).uses direction with
  | none => rfl
  | some side => simp [Session.permits, used, closed.closed side] at permitted

/-- In a closed session every step of a loop brings the end closer, and nothing is written. -/
theorem Session.Closed.step {before after : Session Text} {label : SessionLabel}
    (closed : before.Closed)
    (transition : (sessionMachine text interceptor).step before label = some after) :
    after.Closed ∧ after.bridge.toClient = before.bridge.toClient ∧
      after.bridge.toUpstream = before.bridge.toUpstream ∧
      loopSteps [label] + after.stepsToEnd ≤ before.stepsToEnd := by
  have bridging := closed.bridging
  cases sessionStep_outcome transition with
  | setUp early => rcases early with phase | phase <;> cases phase.symm.trans bridging
  | refused phase => cases phase.symm.trans bridging
  | cancelled =>
      refine ⟨⟨bridging, closed.closed⟩, rfl, rfl, ?_⟩
      simp [loopSteps, Session.stepsToEnd]
  | @loop direction label effect bridge _ permitted moved stepped now other =>
      obtain ⟨lower, written, reported⟩ := loopStep_stepsToEnd moved (closed.fails permitted)
      have stays : (before.withLoop direction bridge
          (before.callsNext direction label)).Closed := by
        refine ⟨by cases direction <;> exact bridging, fun side => ?_⟩
        obtain ⟨call, made, onSide⟩ := List.any_eq_true.mp (closed.closed side)
        refine List.any_eq_true.mpr ⟨call, ?_, onSide⟩
        rw [Session.made_withLoop]
        exact before.made_subset_callsNext direction label made
      refine ⟨stays, ?_⟩
      cases direction with
      | requests =>
          obtain ⟨result, again, rfl⟩ := Option.map_eq_some_iff.mp stepped
          cases again.symm.trans moved
          simp only [Session.withLoop, written, reported, List.append_nil, loopSteps,
            List.countP_singleton, if_true, Session.stepsToEnd, true_and]
          change effect.phase.stepsToEnd < before.bridge.requests.stepsToEnd at lower
          omega
      | replies =>
          obtain ⟨result, again, rfl⟩ := Option.map_eq_some_iff.mp stepped
          cases again.symm.trans moved
          simp only [Session.withLoop, written, reported, List.append_nil, loopSteps,
            List.countP_singleton, if_true, Session.stepsToEnd, true_and]
          change effect.phase.stepsToEnd < before.bridge.replies.stepsToEnd at lower
          omega

/-- A session that has not ended can go on. -/
theorem Session.Closed.progress {session : Session Text} (closed : session.Closed)
    {direction : Direction} (running : session.loopPhase direction ≠ .closing 0) :
    ∃ label next,
      (sessionMachine text interceptor).step session (.loop direction label) = some next := by
  obtain ⟨label, effect, moved, fails⟩ := @exists_loopStep _ text interceptor
    (direction = .requests) session.bridge.cancelled (session.bridge.input direction) direction
    _ running
  have permitted : session.permits direction label := by
    unfold Session.permits
    split
    · rename_i side used
      rw [fails rfl] at used
      cases used
    · rfl
  refine ⟨label, ?_⟩
  simp only [sessionMachine, Session.step, closed.bridging, permitted, if_true]
  cases direction with
  | requests => exact ⟨_, Option.map_eq_some_iff.mpr ⟨_, Option.map_eq_some_iff.mpr
      ⟨_, moved, rfl⟩, rfl⟩⟩
  | replies => exact ⟨_, Option.map_eq_some_iff.mpr ⟨_, Option.map_eq_some_iff.mpr
      ⟨_, moved, rfl⟩, rfl⟩⟩

/-- The loops wait for the bridging to begin. -/
theorem bridging_of_runs {admits : Session Text → SessionLabel → Prop}
    {client upstream : List (Frame Text)} {labels : List SessionLabel} {session : Session Text}
    (run : (sessionMachine text interceptor).Runs admits (.start client upstream) labels
      session) :
    session.phase = .bridging ∨ ∀ direction, session.loopPhase direction = .checking := by
  refine run.invariant (P := fun session => session.phase = .bridging ∨
    ∀ direction, session.loopPhase direction = .checking) (.inr ?_) ?_
  · intro direction
    cases direction <;> rfl
  · intro before label after waiting _ transition
    cases sessionStep_outcome transition with
    | setUp early =>
        rcases waiting with bridging | checking
        · rcases early with phase | phase <;> cases phase.symm.trans bridging
        · exact .inr checking
    | refused phase =>
        rcases waiting with bridging | checking
        · cases phase.symm.trans bridging
        · exact .inr checking
    | cancelled =>
        refine waiting.imp_right fun checking direction => ?_
        cases direction with
        | requests => exact checking .requests
        | replies => exact checking .replies
    | @loop direction label effect bridge bridging =>
        left
        cases direction <;> exact bridging

theorem Session.stepsToEnd_le {session : Session Text} {direction : Direction}
    (closing : ∀ second,
      (session.loopPhase second).Closing (session.callsLeft second) session.made)
    (ended : session.loopPhase direction = .closing 0) : session.stepsToEnd ≤ 5 := by
  have bounded (second : Direction) : (session.loopPhase second).stepsToEnd ≤ 5 := by
    have closing := closing second
    cases phase : session.loopPhase second with
    | closing left =>
        rw [phase] at closing
        obtain ⟨length, earlier, split, -⟩ := closing
        have short := congrArg List.length split
        simp only [finalCalls, List.length_cons, List.length_nil, List.length_append] at short
        simp only [LoopPhase.stepsToEnd]
        omega
    | checking | reading | intercepting | reporting | abandoning | writing | relayingClose =>
        simp [LoopPhase.stepsToEnd]
  have first := bounded .requests
  have second := bounded .replies
  cases direction with
  | requests =>
      change session.bridge.requests = .closing 0 at ended
      simp only [Session.stepsToEnd, ended, LoopPhase.stepsToEnd, Nat.zero_add]
      exact second
  | replies =>
      change session.bridge.replies = .closing 0 at ended
      simp only [Session.stepsToEnd, ended, LoopPhase.stepsToEnd, Nat.add_zero]
      exact first

/-- No loop is left behind. In every run, whatever the peers do and whichever operations
fail: once one loop has ended, both connections are closed and not one more frame is written
to either of them, whatever happens; the other loop makes at most five more steps, and until
it has ended it always has a step to make. -/
theorem session_ends_with_either_loop {client upstream : List (Frame Text)}
    {labels : List SessionLabel} {session : Session Text} {direction : Direction}
    (run : (sessionMachine text interceptor).Reaches (.start client upstream) labels session)
    (ended : session.loopPhase direction = .closing 0) :
    (∀ side, session.closed side) ∧
    ∀ more later, (sessionMachine text interceptor).Reaches session more later →
      later.bridge.toClient = session.bridge.toClient ∧
      later.bridge.toUpstream = session.bridge.toUpstream ∧ loopSteps more ≤ 5 ∧
      ((∀ second, later.loopPhase second = .closing 0) ∨
        ∃ second label next,
          (sessionMachine text interceptor).step later (.loop second label) = some next) := by
  have closing := closing_of_runs run
  have sides := closed_of_ended (closing direction) ended
  have bridging : session.phase = .bridging := by
    refine (bridging_of_runs run).resolve_right fun checking => ?_
    cases ended.symm.trans (checking direction)
  refine ⟨sides, fun more later rest => ?_⟩
  have kept : later.Closed ∧ later.bridge.toClient = session.bridge.toClient ∧
      later.bridge.toUpstream = session.bridge.toUpstream ∧
      loopSteps more + later.stepsToEnd ≤ session.stepsToEnd := by
    refine rest.invariantWithLabels
      (P := fun more later => later.Closed ∧
        later.bridge.toClient = session.bridge.toClient ∧
        later.bridge.toUpstream = session.bridge.toUpstream ∧
        loopSteps more + later.stepsToEnd ≤ session.stepsToEnd)
      ⟨⟨bridging, sides⟩, rfl, rfl, by simp [loopSteps]⟩ ?_
    rintro taken before label after ⟨closed, sameClient, sameUpstream, bound⟩ - transition
    obtain ⟨stays, keptClient, keptUpstream, lower⟩ := closed.step transition
    refine ⟨stays, keptClient.trans sameClient, keptUpstream.trans sameUpstream, ?_⟩
    have split : loopSteps (taken ++ [label]) = loopSteps taken + loopSteps [label] :=
      List.countP_append
    omega
  obtain ⟨closed, sameClient, sameUpstream, bound⟩ := kept
  have short := Session.stepsToEnd_le closing ended
  refine ⟨sameClient, sameUpstream, by omega, ?_⟩
  by_cases running : ∃ second, later.loopPhase second ≠ .closing 0
  · obtain ⟨second, notEnded⟩ := running
    exact .inr ⟨second, closed.progress notEnded⟩
  · exact .inl fun second => not_not.mp (not_exists.mp running second)

/-- The handler has ended after upstream went away, with the goroutine in a read. -/
theorem session_ends_after_close_of_upstream :
    ∃ session, (sessionMachine valueText ⟨"espresso", 10⟩).Reaches (.start [] [])
        sampleSessionRun session ∧
      session.loopPhase .replies = .closing 0 ∧ session.loopPhase .requests = .reading ∧
      (∀ side, session.closed side) ∧
      ∀ more later, (sessionMachine valueText ⟨"espresso", 10⟩).Reaches session more later →
        loopSteps more ≤ 5 := by
  obtain ⟨session, computed, ended, reading⟩ : ∃ session,
      (sessionMachine valueText ⟨"espresso", 10⟩).exec (fun _ _ => True) (.start [] [])
        sampleSessionRun = some session ∧
      session.loopPhase .replies = .closing 0 ∧ session.loopPhase .requests = .reading :=
    ⟨_, rfl, rfl, rfl⟩
  have run := Machine.Runs.ofExec computed
  obtain ⟨closed, bounded⟩ := session_ends_with_either_loop run ended
  exact ⟨session, run, ended, reading, closed, fun more later rest =>
    (bounded more later rest).2.2.1⟩

end EspressoProxy.WebSocket
