import EspressoProxy.Adapters.InterceptorGlue
import EspressoProxy.Semantics.Machine

/-!
# The WebSocket bridge

`ReverseProxy.Upgrade` connects a client and an upstream server by two loops. Each runs
`ReadAllMessages` over a tee, which reads one connection and writes what it read to the
other. The client's connection is wrapped by the interceptor: reading from it intercepts
the message, and a message that cannot be intercepted is answered to the client with an
error from inside the read.

The loops share both connections and the context. Every operation on a connection is one
step that succeeds or fails as the label says; what a close does to the other operations
is left to those labels.
-/

namespace EspressoProxy.WebSocket

open EspressoProxy.JsonRpc EspressoProxy.Proxy EspressoProxy.Store EspressoProxy.Adapters
open EspressoProxy.Semantics

inductive MessageType where
  | text
  | binary
deriving DecidableEq, Repr

structure Frame (Text : Type) where
  messageType : MessageType
  message : Text

/-- The errors of a connection: it was closed, or something else went wrong. -/
inductive ConnError where
  | close (status : Nat) (reason : String)
  | other
deriving DecidableEq, Repr

/-- How far a loop is. -/
inductive LoopPhase (Text : Type) where
  | checking
  | reading
  | intercepting (frame : Frame Text)
  | reporting (cause : RequestError)
  | abandoning
  | writing (frame : Frame Text)
  | relayingClose
  | closing (left : Nat)

/-- A step of a loop: the check of the context, the interception of a frame on the state
that the interceptor reads, or the outcome of the operation on a connection at hand. -/
inductive LoopLabel where
  | check
  | intercept (state : EspressoState)
  | outcome (error : Option ConnError)

/-- The state that a step reads from the store. -/
def LoopLabel.stateRead : LoopLabel → Option EspressoState
  | .intercept state => some state
  | _ => none

/-- What a step of a loop does: its next phase, what is left to be read, what it writes to
the other connection and what it writes back to the connection it reads. -/
structure LoopEffect (Text : Type) where
  phase : LoopPhase Text
  input : List (Frame Text)
  written : List (Frame Text)
  reported : List (Frame Text)

variable {Text : Type} (text : JSONText Text) (interceptor : Interceptor)

/-- `PerformRequestIntercept` on the message of a frame. -/
def interceptFrame (state : EspressoState) (frame : Frame Text) :
    Except RequestError (Frame Text) :=
  (performRequestIntercept text interceptor state frame.message).map fun message =>
    { frame with message }

/-- The message of `WriteJSONRPCResponseToWebSocket`. -/
def errorFrame (cause : RequestError) : Frame Text :=
  ⟨.text, text.print (encodeErrorResponse cause.object)⟩

/-- One step of `ReadAllMessages` over a tee. `intercepted` says whether the connection
that is read is wrapped by the interceptor. Any error ends the loop, and both connections
are closed when it ends. -/
def loopStep (intercepted cancelled : Bool) (input : List (Frame Text)) :
    LoopPhase Text → LoopLabel → Option (LoopEffect Text)
  | .checking, .check =>
      some ⟨if cancelled then .closing 2 else .reading, input, [], []⟩
  | .reading, .outcome none =>
      match input with
      | [] => none
      | frame :: rest =>
          some ⟨if intercepted then .intercepting frame else .writing frame, rest, [], []⟩
  | .intercepting frame, .intercept state =>
      match interceptFrame text interceptor state frame with
      | .ok frame => some ⟨.writing frame, input, [], []⟩
      | .error cause => some ⟨.reporting cause, input, [], []⟩
  | .reporting cause, .outcome none =>
      some ⟨.closing 2, input, [], [errorFrame text cause]⟩
  | .reporting _, .outcome (some _) => some ⟨.abandoning, input, [], []⟩
  | .abandoning, .outcome _ => some ⟨.closing 2, input, [], []⟩
  | .writing frame, .outcome none => some ⟨.checking, input, [frame], []⟩
  -- A close of one connection is passed on to the other, also when a write met it.
  | .reading, .outcome (some (.close _ _)) => some ⟨.relayingClose, input, [], []⟩
  | .writing _, .outcome (some (.close _ _)) => some ⟨.relayingClose, input, [], []⟩
  | .reading, .outcome (some .other) => some ⟨.closing 2, input, [], []⟩
  | .writing _, .outcome (some .other) => some ⟨.closing 2, input, [], []⟩
  | .relayingClose, .outcome _ => some ⟨.closing 2, input, [], []⟩
  | .closing (left + 1), .outcome _ => some ⟨.closing left, input, [], []⟩
  | _, _ => none

/-- The two loops, the context, what the two sides have sent that is not read yet, and
everything that was written to them. -/
structure Bridge (Text : Type) where
  cancelled : Bool
  fromClient : List (Frame Text)
  fromUpstream : List (Frame Text)
  toClient : List (Frame Text)
  toUpstream : List (Frame Text)
  requests : LoopPhase Text
  replies : LoopPhase Text

inductive BridgeLabel where
  | cancel
  | requests (label : LoopLabel)
  | replies (label : LoopLabel)

/-- The bridge at the start, for everything the two sides are going to send. -/
def Bridge.start (client upstream : List (Frame Text)) : Bridge Text :=
  ⟨false, client, upstream, [], [], .checking, .checking⟩

def Bridge.step (bridge : Bridge Text) : BridgeLabel → Option (Bridge Text)
  | .cancel => some { bridge with cancelled := true }
  | .requests label =>
      (loopStep text interceptor true bridge.cancelled bridge.fromClient bridge.requests label).map
        fun effect => { bridge with
          requests := effect.phase
          fromClient := effect.input
          toUpstream := bridge.toUpstream ++ effect.written
          toClient := bridge.toClient ++ effect.reported }
  | .replies label =>
      (loopStep text interceptor false bridge.cancelled bridge.fromUpstream bridge.replies
        label).map fun effect => { bridge with
          replies := effect.phase
          fromUpstream := effect.input
          toClient := bridge.toClient ++ effect.written
          toUpstream := bridge.toUpstream ++ effect.reported }

def bridgeMachine : Machine (Bridge Text) BridgeLabel where
  step := Bridge.step text interceptor

/-- The possible steps of a loop. -/
inductive LoopOutcome (intercepted : Bool) (input : List (Frame Text)) :
    LoopPhase Text → LoopLabel → LoopEffect Text → Prop where
  | continued : LoopOutcome intercepted input .checking .check ⟨.reading, input, [], []⟩
  | read {frame rest} (head : input = frame :: rest) :
      LoopOutcome intercepted input .reading (.outcome none)
        ⟨if intercepted then .intercepting frame else .writing frame, rest, [], []⟩
  | accepted {frame next state}
      (passed : interceptFrame text interceptor state frame = .ok next) :
      LoopOutcome intercepted input (.intercepting frame) (.intercept state)
        ⟨.writing next, input, [], []⟩
  | refused {frame cause state}
      (failed : interceptFrame text interceptor state frame = .error cause) :
      LoopOutcome intercepted input (.intercepting frame) (.intercept state)
        ⟨.reporting cause, input, [], []⟩
  | reported {cause} :
      LoopOutcome intercepted input (.reporting cause) (.outcome none)
        ⟨.closing 2, input, [], [errorFrame text cause]⟩
  | wrote {frame} :
      LoopOutcome intercepted input (.writing frame) (.outcome none)
        ⟨.checking, input, [frame], []⟩
  | ended {phase label next} (quiet : label.stateRead = none)
      (halted : next = .abandoning ∨ next = .relayingClose ∨ ∃ left, next = .closing left) :
      LoopOutcome intercepted input phase label ⟨next, input, [], []⟩

theorem loopStep_outcome {intercepted cancelled : Bool} {input : List (Frame Text)}
    {phase : LoopPhase Text} {label : LoopLabel} {effect : LoopEffect Text}
    (moved : loopStep text interceptor intercepted cancelled input phase label = some effect) :
    LoopOutcome text interceptor intercepted input phase label effect := by
  unfold loopStep at moved
  split at moved
  · cases moved
    cases cancelled with
    | false => exact .continued
    | true => exact .ended rfl (.inr (.inr ⟨2, rfl⟩))
  · split at moved
    · cases moved
    · cases moved
      exact .read rfl
  · split at moved <;> rename_i result
    · cases moved
      exact .accepted result
    · cases moved
      exact .refused result
  · cases moved
    exact .reported
  · cases moved
    exact .ended rfl (.inl rfl)
  · cases moved
    exact .ended rfl (.inr (.inr ⟨2, rfl⟩))
  · cases moved
    exact .wrote
  · cases moved
    exact .ended rfl (.inr (.inl rfl))
  · cases moved
    exact .ended rfl (.inr (.inl rfl))
  · cases moved
    exact .ended rfl (.inr (.inr ⟨2, rfl⟩))
  · cases moved
    exact .ended rfl (.inr (.inr ⟨2, rfl⟩))
  · cases moved
    exact .ended rfl (.inr (.inr ⟨2, rfl⟩))
  · cases moved
    exact .ended rfl (.inr (.inr ⟨_, rfl⟩))
  · cases moved

end EspressoProxy.WebSocket
