import EspressoProxy.WebSocket.Bridge

/-!
# A WebSocket session from its upgrade to its end

`websocketUpgrader.ServeHTTP` over `ReverseProxy.Upgrade`: the client's connection is
upgraded, upstream is dialed, and two loops bridge the connections until one of them ends.
The loops are those of the bridge; here every call of `Close` is made, with its status and
its reason. A call of `Close` ends with `CloseNow`, whatever it returns, so afterwards no read
or write of the connection succeeds. That is all that is assumed of the library.

What a peer is told at the end is what the other peer said, or one of a few reasons of the
proxy's own.
-/

namespace EspressoProxy.WebSocket

open EspressoProxy.JsonRpc EspressoProxy.Proxy EspressoProxy.Store EspressoProxy.Adapters
open EspressoProxy.Semantics

inductive Side where
  | client
  | upstream
deriving DecidableEq, Repr

def Side.other : Side → Side
  | .client => .upstream
  | .upstream => .client

/-- A call of `Close` on the connection of a side. -/
structure CloseCall where
  side : Side
  status : Nat
  reason : String
deriving DecidableEq, Repr

def statusNormalClosure : Nat := 1000
def statusProtocolError : Nat := 1002
def statusInternalServerError : Nat := 1011

/-- What both loops do at their end: `MultiCloser` in `ServeHTTP`, and the deferred calls of
the goroutine. -/
def finalCalls : List CloseCall :=
  [⟨.upstream, statusNormalClosure, "closing"⟩, ⟨.client, statusNormalClosure, "closing"⟩]

/-- `WriteJSONRPCResponseToWebSocket` after a failed write. -/
def abandonCall : CloseCall :=
  ⟨.client, statusProtocolError, "failed to send JSON-RPC response"⟩

/-- `Upgrade` after a failed dial. -/
def dialFailedCall : CloseCall :=
  ⟨.client, statusInternalServerError, "failed to dial upstream"⟩

/-- The loops: the goroutine reads the client, the handler reads upstream. -/
inductive Direction where
  | requests
  | replies
deriving DecidableEq, Repr

def Direction.source : Direction → Side
  | .requests => .client
  | .replies => .upstream

def Direction.target (direction : Direction) : Side := direction.source.other

variable {Text : Type}

/-- The connection that a loop reads or writes in a phase. -/
def LoopPhase.uses (direction : Direction) : LoopPhase Text → Option Side
  | .reading | .reporting _ => some direction.source
  | .writing _ => some direction.target
  | _ => none

/-- The calls of `Close` that a loop makes once it was left by a step. The close of a
connection is passed on to the other one. -/
def callsAfter (direction : Direction) (cancelled : Bool) :
    LoopPhase Text → LoopLabel → List CloseCall
  | .checking, .check => if cancelled then finalCalls else []
  | .reading, .outcome (some (.close status reason)) =>
      ⟨direction.target, status, reason⟩ :: finalCalls
  | .writing _, .outcome (some (.close status reason)) =>
      ⟨direction.source, status, reason⟩ :: finalCalls
  | .reading, .outcome (some .other) | .writing _, .outcome (some .other)
  | .reporting _, .outcome none => finalCalls
  | .reporting _, .outcome (some _) => abandonCall :: finalCalls
  | _, _ => []

/-- The calls that a loop has still to make, and those that were made. -/
structure Calls where
  left : List CloseCall
  made : List CloseCall
deriving DecidableEq, Repr

/-- The calls after a step of a loop. In its last phases each step makes one. -/
def Calls.step (calls : Calls) (direction : Direction) (cancelled : Bool)
    (phase : LoopPhase Text) (label : LoopLabel) : Calls :=
  match phase with
  | .abandoning | .relayingClose | .closing _ =>
      ⟨calls.left.tail, calls.made ++ calls.left.head?.toList⟩
  | _ => ⟨callsAfter direction cancelled phase label, calls.made⟩

inductive SessionPhase where
  | upgrading
  | dialing
  | refusing
  | bridging
  | over
deriving DecidableEq, Repr

/-- The bridge, the calls of `Close` that each loop has still to make, and those made. -/
structure Session (Text : Type) where
  phase : SessionPhase
  bridge : Bridge Text
  requestCalls : List CloseCall
  replyCalls : List CloseCall
  made : List CloseCall

inductive SessionLabel where
  | upgraded (succeeded : Bool)
  | dialed (succeeded : Bool)
  | refused
  | cancel
  | loop (direction : Direction) (label : LoopLabel)

def Session.start (client upstream : List (Frame Text)) : Session Text :=
  ⟨.upgrading, .start client upstream, [], [], []⟩

/-- `Close` was called on the connection of a side. -/
def Session.closed (session : Session Text) (side : Side) : Bool :=
  session.made.any fun call => call.side = side

/-- The phase of a loop. -/
def Session.loopPhase (session : Session Text) : Direction → LoopPhase Text
  | .requests => session.bridge.requests
  | .replies => session.bridge.replies

/-- The calls that a loop has still to make. -/
def Session.callsLeft (session : Session Text) : Direction → List CloseCall
  | .requests => session.requestCalls
  | .replies => session.replyCalls

/-- What a step of a loop is to the bridge. -/
def Direction.bridgeLabel (direction : Direction) (label : LoopLabel) : BridgeLabel :=
  match direction with
  | .requests => .requests label
  | .replies => .replies label

/-- No operation succeeds on a connection after a call of `Close`. -/
def Session.permits (session : Session Text) (direction : Direction) (label : LoopLabel) :
    Bool :=
  match label, (session.loopPhase direction).uses direction with
  | .outcome none, some side => !session.closed side
  | _, _ => true

variable (text : JSONText Text) (interceptor : Interceptor)

def Session.step (session : Session Text) : SessionLabel → Option (Session Text)
  | .upgraded succeeded =>
      match session.phase with
      | .upgrading => some { session with phase := if succeeded then .dialing else .over }
      | _ => none
  | .dialed succeeded =>
      match session.phase with
      | .dialing => some { session with phase := if succeeded then .bridging else .refusing }
      | _ => none
  | .refused =>
      match session.phase with
      | .refusing =>
          some { session with phase := .over, made := session.made ++ [dialFailedCall] }
      | _ => none
  | .cancel =>
      (session.bridge.step text interceptor .cancel).map fun bridge => { session with bridge }
  | .loop direction label =>
      match session.phase with
      | .bridging =>
          if session.permits direction label then
            (session.bridge.step text interceptor (direction.bridgeLabel label)).map fun bridge =>
              let calls := (Calls.mk (session.callsLeft direction) session.made).step direction
                session.bridge.cancelled (session.loopPhase direction) label
              match direction with
              | .requests =>
                  { session with bridge, requestCalls := calls.left, made := calls.made }
              | .replies => { session with bridge, replyCalls := calls.left, made := calls.made }
          else none
      | _ => none

def sessionMachine : Machine (Session Text) SessionLabel where
  step := Session.step text interceptor

/-! ### What each step can do -/

variable {text interceptor}

/-- The session after a step of one of its loops. -/
def Session.withLoop (session : Session Text) (direction : Direction) (bridge : Bridge Text)
    (calls : Calls) : Session Text :=
  match direction with
  | .requests => { session with bridge, requestCalls := calls.left, made := calls.made }
  | .replies => { session with bridge, replyCalls := calls.left, made := calls.made }

/-- The calls after a step of a loop. -/
def Session.callsNext (session : Session Text) (direction : Direction) (label : LoopLabel) :
    Calls :=
  (Calls.mk (session.callsLeft direction) session.made).step direction
    session.bridge.cancelled (session.loopPhase direction) label

/-- What a loop reads from. -/
def Bridge.input (bridge : Bridge Text) : Direction → List (Frame Text)
  | .requests => bridge.fromClient
  | .replies => bridge.fromUpstream

/-- The steps of a session. Only `refused` and the loops call `Close`. -/
inductive SessionOutcome (text : JSONText Text) (interceptor : Interceptor)
    (before : Session Text) : SessionLabel → Session Text → Prop where
  | setUp {label : SessionLabel} {phase : SessionPhase}
      (early : before.phase = .upgrading ∨ before.phase = .dialing) :
      SessionOutcome text interceptor before label { before with phase }
  | refused (phase : before.phase = .refusing) :
      SessionOutcome text interceptor before .refused
        { before with phase := .over, made := before.made ++ [dialFailedCall] }
  | cancelled :
      SessionOutcome text interceptor before .cancel
        { before with bridge := { before.bridge with cancelled := true } }
  | loop {direction : Direction} {label : LoopLabel} {effect : LoopEffect Text}
      {bridge : Bridge Text} (phase : before.phase = .bridging)
      (permitted : before.permits direction label)
      (moved : loopStep text interceptor (direction = .requests) before.bridge.cancelled
        (before.bridge.input direction) (before.loopPhase direction) label = some effect)
      (stepped : before.bridge.step text interceptor (direction.bridgeLabel label) = some bridge)
      (now : (before.withLoop direction bridge (before.callsNext direction label)).loopPhase
        direction = effect.phase)
      (other : ∀ second, second ≠ direction →
        (before.withLoop direction bridge (before.callsNext direction label)).loopPhase second =
          before.loopPhase second) :
      SessionOutcome text interceptor before (.loop direction label)
        (before.withLoop direction bridge (before.callsNext direction label))

theorem sessionStep_outcome {before after : Session Text} {label : SessionLabel}
    (transition : (sessionMachine text interceptor).step before label = some after) :
    SessionOutcome text interceptor before label after := by
  simp only [sessionMachine] at transition
  cases label with
  | upgraded =>
      simp only [Session.step] at transition
      split at transition <;> cases transition
      exact .setUp (.inl ‹_›)
  | dialed =>
      simp only [Session.step] at transition
      split at transition <;> cases transition
      exact .setUp (.inr ‹_›)
  | refused =>
      simp only [Session.step] at transition
      split at transition <;> cases transition
      exact .refused ‹_›
  | cancel =>
      cases transition
      exact .cancelled
  | loop direction label =>
      simp only [Session.step] at transition
      split at transition
      · rename_i phase
        split at transition
        · rename_i permitted
          obtain ⟨bridge, stepped, rfl⟩ := Option.map_eq_some_iff.mp transition
          cases direction with
          | requests =>
              obtain ⟨effect, moved, rfl⟩ := Option.map_eq_some_iff.mp stepped
              refine .loop phase permitted moved stepped rfl fun second different => ?_
              cases second with
              | requests => exact absurd rfl different
              | replies => rfl
          | replies =>
              obtain ⟨effect, moved, rfl⟩ := Option.map_eq_some_iff.mp stepped
              refine .loop phase permitted moved stepped rfl fun second different => ?_
              cases second with
              | requests => rfl
              | replies => exact absurd rfl different
        · cases transition
      · cases transition

/-- The bridge of a session is a bridge. -/
theorem session_bridge_reaches {admits : Session Text → SessionLabel → Prop}
    {client upstream : List (Frame Text)} {labels : List SessionLabel} {session : Session Text}
    (run : (sessionMachine text interceptor).Runs admits (.start client upstream) labels
      session) :
    ∃ actions, (bridgeMachine text interceptor).Reaches (.start client upstream) actions
      session.bridge := by
  refine run.project Session.bridge fun transition => ?_
  cases sessionStep_outcome transition with
  | setUp | refused => exact .inl rfl
  | cancelled => exact .inr ⟨.cancel, rfl⟩
  | @loop direction label effect bridge _ _ _ stepped =>
      refine .inr ⟨direction.bridgeLabel label, ?_⟩
      cases direction <;> exact stepped

@[simp] theorem Session.made_withLoop (session : Session Text) (direction : Direction)
    (bridge : Bridge Text) (calls : Calls) :
    (session.withLoop direction bridge calls).made = calls.made := by
  cases direction <;> rfl

theorem Session.callsLeft_withLoop (session : Session Text) (direction second : Direction)
    (bridge : Bridge Text) (calls : Calls) :
    (session.withLoop direction bridge calls).callsLeft second =
      if second = direction then calls.left else session.callsLeft second := by
  cases direction <;> cases second <;> rfl

theorem Session.made_subset_callsNext (session : Session Text) (direction : Direction)
    (label : LoopLabel) : session.made ⊆ (session.callsNext direction label).made := by
  unfold Session.callsNext Calls.step
  split
  · exact List.subset_append_left _ _
  · exact List.subset_append_left _ _
  · exact List.subset_append_left _ _
  · exact List.Subset.refl _

/-! ### What the peers are told -/

/-- The reasons of the proxy's own. -/
def ownCalls : List CloseCall := dialFailedCall :: abandonCall :: finalCalls

/-- A loop learns in this step that the connection of a side was closed. -/
def Session.Learns (session : Session Text) (label : SessionLabel) (side : Side) (status : Nat)
    (reason : String) : Prop :=
  ∃ direction, label = .loop direction (.outcome (some (.close status reason))) ∧
    (session.loopPhase direction).uses direction = some side

theorem mem_callsAfter {direction : Direction} {cancelled : Bool} {phase : LoopPhase Text}
    {label : LoopLabel} {call : CloseCall}
    (member : call ∈ callsAfter direction cancelled phase label) :
    call ∈ ownCalls ∨ (label = .outcome (some (.close call.status call.reason)) ∧
      phase.uses direction = some call.side.other) := by
  have final : ∀ call ∈ finalCalls, call ∈ ownCalls := by decide
  unfold callsAfter at member
  split at member
  · split at member
    · exact .inl (final call member)
    · cases member
  · rcases List.mem_cons.mp member with rfl | later
    · refine .inr ⟨rfl, ?_⟩
      cases direction <;> rfl
    · exact .inl (final call later)
  · rcases List.mem_cons.mp member with rfl | later
    · refine .inr ⟨rfl, ?_⟩
      cases direction <;> rfl
    · exact .inl (final call later)
  · exact .inl (final call member)
  · exact .inl (final call member)
  · exact .inl (final call member)
  · rcases List.mem_cons.mp member with rfl | later
    · exact .inl (by decide)
    · exact .inl (final call later)
  · cases member

/-- The call was made, or a loop is going to make it. -/
def Session.Issues (session : Session Text) (call : CloseCall) : Prop :=
  call ∈ session.made ∨ ∃ direction, call ∈ session.callsLeft direction

theorem Session.issues_of_callsNext {session : Session Text} {direction : Direction}
    {label : LoopLabel} {call : CloseCall}
    (member : call ∈ (session.callsNext direction label).made ∨
      call ∈ (session.callsNext direction label).left) :
    session.Issues call ∨ call ∈ callsAfter direction session.bridge.cancelled
      (session.loopPhase direction) label := by
  have pops (made : call ∈ session.made ++ (session.callsLeft direction).head?.toList ∨
      call ∈ (session.callsLeft direction).tail) : session.Issues call := by
    rcases made with made | left
    · rcases List.mem_append.mp made with old | new
      · exact .inl old
      · exact .inr ⟨direction, List.mem_of_mem_head? (Option.mem_toList.mp new)⟩
    · exact .inr ⟨direction, List.mem_of_mem_tail left⟩
  unfold Session.callsNext Calls.step at member
  split at member
  · exact .inl (pops member)
  · exact .inl (pops member)
  · exact .inl (pops member)
  · exact member.imp_left .inl

/-- Where a call of `Close` comes from. -/
theorem Session.issues_step {before after : Session Text} {label : SessionLabel}
    {call : CloseCall}
    (transition : (sessionMachine text interceptor).step before label = some after)
    (calls : after.Issues call) :
    before.Issues call ∨ call ∈ ownCalls ∨
      before.Learns label call.side.other call.status call.reason := by
  cases sessionStep_outcome transition with
  | setUp => exact .inl calls
  | cancelled =>
      refine .inl (calls.imp_right fun ⟨direction, left⟩ => ⟨direction, ?_⟩)
      cases direction <;> exact left
  | refused =>
      rcases calls with made | left
      · rcases List.mem_append.mp made with old | new
        · exact .inl (.inl old)
        · obtain rfl := List.mem_singleton.mp new
          exact .inr (.inl (by decide))
      · exact .inl (.inr left)
  | @loop direction label effect bridge =>
      have origin : before.Issues call ∨ call ∈ callsAfter direction before.bridge.cancelled
          (before.loopPhase direction) label := by
        rcases calls with made | ⟨second, left⟩
        · rw [Session.made_withLoop] at made
          exact Session.issues_of_callsNext (.inl made)
        · rw [Session.callsLeft_withLoop] at left
          split at left
          · exact Session.issues_of_callsNext (.inr left)
          · exact .inl (.inr ⟨second, left⟩)
      rcases origin with earlier | new
      · exact .inl earlier
      · rcases mem_callsAfter new with own | ⟨rfl, used⟩
        · exact .inr (.inl own)
        · exact .inr (.inr ⟨direction, rfl, used⟩)

/-- What peers are told. In every run each call of `Close` that was made has one of the
reasons of the proxy's own, or the status and the reason with which the connection of the
other side was closed before. -/
theorem session_relays_closes {client upstream : List (Frame Text)} {labels : List SessionLabel}
    {session : Session Text}
    (run : (sessionMachine text interceptor).Reaches (.start client upstream) labels session)
    (call : CloseCall) (made : call ∈ session.made) :
    call ∈ ownCalls ∨ (sessionMachine text interceptor).Since (fun _ _ => True)
      (.start client upstream)
      (fun _ before label _ => before.Learns label call.side.other call.status call.reason)
      (fun _ => True) labels := by
  refine run.invariantAlong
    (P := fun labels session => session.Issues call → call ∈ ownCalls ∨
      (sessionMachine text interceptor).Since (fun _ _ => True) (.start client upstream)
        (fun _ before label _ => before.Learns label call.side.other call.status call.reason)
        (fun _ => True) labels) ?_ ?_ (.inl made)
  · rintro (made | ⟨direction, left⟩)
    · cases made
    · cases direction <;> cases left
  · intro taken before label after prior inductionHypothesis admitted transition calls
    rcases Session.issues_step transition calls with earlier | own | learns
    · exact (inductionHypothesis earlier).imp_right fun since => .later since trivial
    · exact .inl own
    · exact .inr (.now prior admitted transition learns)

/-- Upstream goes away, and the handler passes its close on. -/
def sampleSessionRun : List SessionLabel :=
  [.upgraded true, .dialed true, .loop .requests .check, .loop .replies .check,
    .loop .replies (.outcome (some (.close 1001 "going away"))),
    .loop .replies (.outcome none), .loop .replies (.outcome none),
    .loop .replies (.outcome none)]

theorem session_relays_close_of_upstream :
    ∃ session, (sessionMachine valueText ⟨"espresso", 10⟩).Reaches (.start [] [])
        sampleSessionRun session ∧
      session.made.head? = some ⟨.client, 1001, "going away"⟩ ∧
      (sessionMachine valueText ⟨"espresso", 10⟩).Since (fun _ _ => True) (.start [] [])
        (fun _ before label _ => before.Learns label .upstream 1001 "going away")
        (fun _ => True) sampleSessionRun := by
  obtain ⟨session, computed, first⟩ : ∃ session,
      (sessionMachine valueText ⟨"espresso", 10⟩).exec (fun _ _ => True) (.start [] [])
        sampleSessionRun = some session ∧
      session.made.head? = some ⟨.client, 1001, "going away"⟩ := ⟨_, rfl, rfl⟩
  have run := Machine.Runs.ofExec computed
  have relayed := session_relays_closes run _ (List.mem_of_mem_head? first)
  exact ⟨session, run, first, relayed.resolve_left (by decide)⟩

end EspressoProxy.WebSocket
