import Mathlib.Algebra.GroupWithZero.Nat
import EspressoProxy.Http.Middlewares
import EspressoProxy.WebSocket.Bridge

/-!
# One exchange over HTTP and over a WebSocket

The same request and response are relayed by the HTTP server and by the bridge of the
WebSocket server. Their limits differ. Over HTTP only the request is limited, and not at
all if the configured size is zero. Over a WebSocket every connection has a read limit: the
upgrader sets the one towards the client unless the configured size is zero, the dialer
never sets the one towards upstream, and a connection without a limit of its own has that
of the library.
-/

namespace EspressoProxy.WebSocket

open EspressoProxy.JsonRpc EspressoProxy.Proxy EspressoProxy.Store EspressoProxy.Adapters
open EspressoProxy.Semantics EspressoProxy.Http

/-! ### Read limits -/

/-- The limit of a connection on which `SetReadLimit` is not called. -/
def defaultReadLimit : Nat := 32768

def maxInt64 : Nat := 2 ^ 63 - 1

/-- The read limit of a connection that `coderUpgrader` accepts; there is none if the
configured one is refused. -/
def upgradeReadLimit (readSizeLimit : Nat) : Option Nat :=
  if readSizeLimit > maxInt64 then none
  else some (if readSizeLimit > 0 then readSizeLimit else defaultReadLimit)

/-- The read limit of a connection that `coderDialer` makes. -/
def dialReadLimit : Nat := defaultReadLimit

/-- The limits on the messages that are read from the client and from upstream. -/
structure ReadLimits where
  downstream : Nat
  upstream : Nat

/-- The limits of the connections of `createWsServer`. -/
def createWsServer (maxRequestBodySize : Nat) : Option ReadLimits :=
  (upgradeReadLimit maxRequestBodySize).map fun downstream => ⟨downstream, dialReadLimit⟩

/-! ### Undisturbed runs of the bridge -/

variable {Text : Type} (size : Text → Nat)

/-- The loop is about to read a message that is longer than the limit. -/
def LoopPhase.ReadFails (limit : Nat) (input : List (Frame Text)) : LoopPhase Text → Prop
  | .reading => ∃ frame ∈ input.head?, limit < size frame.message
  | _ => False

/-- Nothing fails but the reads of messages that are too long. -/
def LoopLabel.Undisturbed (limit : Nat) (state : EspressoState) (input : List (Frame Text))
    (phase : LoopPhase Text) : LoopLabel → Prop
  | .check => True
  | .intercept read => read = state
  | .outcome error => error = none ↔ ¬ phase.ReadFails size limit input

def Undisturbed (limits : ReadLimits) (state : EspressoState) (bridge : Bridge Text) :
    BridgeLabel → Prop
  | .cancel => False
  | .requests label =>
      label.Undisturbed size limits.downstream state bridge.fromClient bridge.requests
  | .replies label =>
      label.Undisturbed size limits.upstream state bridge.fromUpstream bridge.replies

variable (text : JSONText Text) (interceptor : Interceptor)

/-- The exchange is relayed over a WebSocket: wherever an undisturbed run of the bridge has
come to, it can go on until upstream has the intercepted request and the client the
response. -/
def RelaysOverWebSocket (limits : ReadLimits) (state : EspressoState)
    (request response : Frame Text) : Prop :=
  ∀ labels bridge, (bridgeMachine text interceptor).Runs (Undisturbed size limits state)
      (.start [request] [response]) labels bridge →
    ∃ more final forwarded,
      (bridgeMachine text interceptor).Runs (Undisturbed size limits state) bridge more final ∧
      interceptFrame text interceptor state request = .ok forwarded ∧
      final.toUpstream = [forwarded] ∧ final.toClient = [response]

/-- Where a loop is that has one frame to convey, what it has still to read and what it has
written. A frame that does not fit ends the loop. -/
inductive Conveys (intercepted : Bool) (fits : Prop) (frame out : Frame Text) :
    LoopPhase Text → List (Frame Text) → List (Frame Text) → Prop where
  | starts : Conveys intercepted fits frame out .checking [frame] []
  | reads : Conveys intercepted fits frame out .reading [frame] []
  | intercepts (isIntercepted : intercepted = true) (fit : fits) :
      Conveys intercepted fits frame out (.intercepting frame) [] []
  | writes (fit : fits) : Conveys intercepted fits frame out (.writing out) [] []
  | checks (fit : fits) : Conveys intercepted fits frame out .checking [] [out]
  | waits (fit : fits) : Conveys intercepted fits frame out .reading [] [out]
  | relaysClose (long : ¬ fits) : Conveys intercepted fits frame out .relayingClose [frame] []
  | closes {left : Nat} (long : ¬ fits) :
      Conveys intercepted fits frame out (.closing left) [frame] []

variable {size text interceptor} {intercepted : Bool} {limit : Nat} {state : EspressoState}
  {frame out : Frame Text} {phase : LoopPhase Text} {input written : List (Frame Text)}

theorem readFails_reading :
    (LoopPhase.reading : LoopPhase Text).ReadFails size limit [frame] ↔
      ¬ size frame.message ≤ limit := by
  simp [LoopPhase.ReadFails]

/-- A read that is not disturbed succeeds exactly if the message fits. -/
theorem fits_of_read {error : Option ConnError}
    (undisturbed : (LoopLabel.outcome error).Undisturbed size limit state [frame] .reading) :
    error = none ↔ size frame.message ≤ limit := by
  simpa [LoopLabel.Undisturbed, readFails_reading] using undisturbed

/-- An undisturbed step of a loop on its only frame. -/
theorem Conveys.step {label : LoopLabel} {effect : LoopEffect Text}
    (conveys : Conveys intercepted (size frame.message ≤ limit) frame out phase input written)
    (result : if intercepted then interceptFrame text interceptor state frame = .ok out
      else out = frame)
    (undisturbed : label.Undisturbed size limit state input phase)
    (moved : loopStep text interceptor intercepted false input phase label = some effect) :
    effect.reported = [] ∧
      Conveys intercepted (size frame.message ≤ limit) frame out effect.phase effect.input
        (written ++ effect.written) := by
  cases conveys with
  | starts =>
      cases label with
      | check =>
          cases moved
          exact ⟨rfl, .reads⟩
      | intercept | outcome => cases moved
  | reads =>
      cases label with
      | check | intercept => cases moved
      | outcome error =>
          have fits := fits_of_read undisturbed
          cases error with
          | none =>
              cases moved
              refine ⟨rfl, ?_⟩
              cases intercepted with
              | true => exact .intercepts rfl (fits.mp rfl)
              | false =>
                  obtain rfl : out = frame := result
                  exact .writes (fits.mp rfl)
          | some error =>
              have long : ¬ size frame.message ≤ limit := fun fit => by cases fits.mpr fit
              cases error with
              | close =>
                  cases moved
                  exact ⟨rfl, .relaysClose long⟩
              | other =>
                  cases moved
                  exact ⟨rfl, .closes long⟩
  | intercepts isIntercepted fit =>
      subst isIntercepted
      cases label with
      | check | outcome => cases moved
      | intercept read =>
          obtain rfl : read = state := undisturbed
          have passed : interceptFrame text interceptor read frame = .ok out := result
          simp only [loopStep, passed] at moved
          cases moved
          exact ⟨rfl, .writes fit⟩
  | writes fit =>
      cases label with
      | check | intercept => cases moved
      | outcome error =>
          obtain rfl : error = none := by
            simpa [LoopLabel.Undisturbed, LoopPhase.ReadFails] using undisturbed
          cases moved
          exact ⟨rfl, .checks fit⟩
  | checks fit =>
      cases label with
      | check =>
          cases moved
          exact ⟨rfl, .waits fit⟩
      | intercept | outcome => cases moved
  | waits fit =>
      cases label with
      | check | intercept => cases moved
      | outcome error =>
          obtain rfl : error = none := by
            simpa [LoopLabel.Undisturbed, LoopPhase.ReadFails] using undisturbed
          cases moved
  | relaysClose long =>
      cases label with
      | check | intercept => cases moved
      | outcome =>
          cases moved
          exact ⟨rfl, .closes long⟩
  | @closes left long =>
      cases left with
      | zero => cases label <;> cases moved
      | succ left =>
          cases label with
          | check | intercept => cases moved
          | outcome =>
              cases moved
              exact ⟨rfl, .closes long⟩

/-- How many steps a loop is from having written its frame. -/
def LoopPhase.stepsLeft (input : List (Frame Text)) : LoopPhase Text → Nat
  | .checking => 4 * input.length
  | .reading => 3 * input.length
  | .intercepting _ => 2
  | .writing _ => 1
  | _ => 0

/-- A frame that fits is written, or some undisturbed step brings the loop closer to it. -/
theorem Conveys.progress (text : JSONText Text) (interceptor : Interceptor)
    (state : EspressoState)
    (conveys : Conveys intercepted (size frame.message ≤ limit) frame out phase input written)
    (result : if intercepted then interceptFrame text interceptor state frame = .ok out
      else out = frame)
    (fits : size frame.message ≤ limit) :
    written = [out] ∧ phase.stepsLeft input = 0 ∨
      ∃ label effect, label.Undisturbed size limit state input phase ∧
        loopStep text interceptor intercepted false input phase label = some effect ∧
        effect.phase.stepsLeft effect.input < phase.stepsLeft input := by
  cases conveys with
  | starts => exact .inr ⟨.check, _, trivial, rfl, by simp [LoopPhase.stepsLeft]⟩
  | reads =>
      refine .inr ⟨.outcome none, _, ?_, rfl, ?_⟩
      · simp [LoopLabel.Undisturbed, readFails_reading, fits]
      · cases intercepted with
        | true => simp [LoopPhase.stepsLeft]
        | false => simp [LoopPhase.stepsLeft]
  | intercepts isIntercepted =>
      subst isIntercepted
      have passed : interceptFrame text interceptor state frame = .ok out := result
      refine .inr ⟨.intercept state, ⟨.writing out, [], [], []⟩, rfl, ?_, ?_⟩
      · simp only [loopStep, passed]
      · simp [LoopPhase.stepsLeft]
  | writes =>
      refine .inr ⟨.outcome none, _, ?_, rfl, ?_⟩
      · simp [LoopLabel.Undisturbed, LoopPhase.ReadFails]
      · simp [LoopPhase.stepsLeft]
  | checks | waits => exact .inl ⟨rfl, rfl⟩
  | relaysClose long | closes long => exact absurd fits long

/-- Nothing is written of a frame that does not fit. -/
theorem Conveys.written_eq_nil {fits : Prop}
    (conveys : Conveys intercepted fits frame out phase input written) (long : ¬ fits) :
    written = [] := by
  cases conveys with
  | checks fit | waits fit => exact absurd fit long
  | starts | reads | intercepts | writes | relaysClose | closes => rfl

/-! ### One exchange -/

/-- Both loops of the bridge are on their way with their frames. -/
structure Bridge.Conveying (bridge : Bridge Text) (size : Text → Nat) (limits : ReadLimits)
    (request forwarded response : Frame Text) : Prop where
  uncancelled : bridge.cancelled = false
  requests : Conveys true (size request.message ≤ limits.downstream) request forwarded
    bridge.requests bridge.fromClient bridge.toUpstream
  replies : Conveys false (size response.message ≤ limits.upstream) response response
    bridge.replies bridge.fromUpstream bridge.toClient

variable {limits : ReadLimits} {request forwarded response : Frame Text}

theorem Bridge.Conveying.step {before after : Bridge Text} {label : BridgeLabel}
    (conveying : before.Conveying size limits request forwarded response)
    (passed : interceptFrame text interceptor state request = .ok forwarded)
    (undisturbed : Undisturbed size limits state before label)
    (moved : (bridgeMachine text interceptor).step before label = some after) :
    after.Conveying size limits request forwarded response := by
  obtain ⟨uncancelled, requests, replies⟩ := conveying
  cases label with
  | cancel => exact undisturbed.elim
  | requests label =>
      obtain ⟨effect, transition, rfl⟩ := Option.map_eq_some_iff.mp moved
      rw [uncancelled] at transition
      obtain ⟨nothing, requests⟩ := requests.step passed undisturbed transition
      refine ⟨uncancelled, requests, ?_⟩
      simpa [nothing] using replies
  | replies label =>
      obtain ⟨effect, transition, rfl⟩ := Option.map_eq_some_iff.mp moved
      rw [uncancelled] at transition
      obtain ⟨nothing, replies⟩ := replies.step rfl undisturbed transition
      refine ⟨uncancelled, ?_, replies⟩
      simpa [nothing] using requests

theorem conveying_of_runs {labels : List BridgeLabel} {bridge : Bridge Text}
    (run : (bridgeMachine text interceptor).Runs (Undisturbed size limits state)
      (.start [request] [response]) labels bridge)
    (passed : interceptFrame text interceptor state request = .ok forwarded) :
    bridge.Conveying size limits request forwarded response :=
  run.invariant (P := fun bridge => bridge.Conveying size limits request forwarded response)
    ⟨rfl, .starts, .starts⟩ fun prior undisturbed moved => prior.step passed undisturbed moved

/-- How many steps the bridge is from having relayed the exchange. -/
def Bridge.stepsLeft (bridge : Bridge Text) : Nat :=
  bridge.requests.stepsLeft bridge.fromClient + bridge.replies.stepsLeft bridge.fromUpstream

theorem step_requests {bridge : Bridge Text} {label : LoopLabel} {effect : LoopEffect Text}
    (uncancelled : bridge.cancelled = false)
    (moved : loopStep text interceptor true false bridge.fromClient bridge.requests label =
      some effect) :
    ∃ next, (bridgeMachine text interceptor).step bridge (.requests label) = some next ∧
      next.requests = effect.phase ∧ next.fromClient = effect.input ∧
      next.replies = bridge.replies ∧ next.fromUpstream = bridge.fromUpstream := by
  simp only [bridgeMachine, Bridge.step, uncancelled, moved]
  exact ⟨_, rfl, rfl, rfl, rfl, rfl⟩

theorem step_replies {bridge : Bridge Text} {label : LoopLabel} {effect : LoopEffect Text}
    (uncancelled : bridge.cancelled = false)
    (moved : loopStep text interceptor false false bridge.fromUpstream bridge.replies label =
      some effect) :
    ∃ next, (bridgeMachine text interceptor).step bridge (.replies label) = some next ∧
      next.replies = effect.phase ∧ next.fromUpstream = effect.input ∧
      next.requests = bridge.requests ∧ next.fromClient = bridge.fromClient := by
  simp only [bridgeMachine, Bridge.step, uncancelled, moved]
  exact ⟨_, rfl, rfl, rfl, rfl, rfl⟩

theorem Bridge.Conveying.progress {bridge : Bridge Text}
    (conveying : bridge.Conveying size limits request forwarded response)
    (passed : interceptFrame text interceptor state request = .ok forwarded)
    (requestFits : size request.message ≤ limits.downstream)
    (responseFits : size response.message ≤ limits.upstream) :
    (bridge.toUpstream = [forwarded] ∧ bridge.toClient = [response] ∧ bridge.stepsLeft = 0) ∨
      ∃ label next, Undisturbed size limits state bridge label ∧
        (bridgeMachine text interceptor).step bridge label = some next ∧
        next.stepsLeft < bridge.stepsLeft := by
  obtain ⟨uncancelled, requests, replies⟩ := conveying
  rcases requests.progress text interceptor state passed requestFits with
    ⟨toUpstream, requestsDone⟩ | ⟨label, effect, undisturbed, moved, closer⟩
  · rcases replies.progress text interceptor state rfl responseFits with
      ⟨toClient, repliesDone⟩ | ⟨label, effect, undisturbed, moved, closer⟩
    · exact .inl ⟨toUpstream, toClient, by rw [Bridge.stepsLeft, requestsDone, repliesDone]⟩
    · obtain ⟨next, transition, phase, input, otherPhase, otherInput⟩ :=
        step_replies uncancelled moved
      refine .inr ⟨.replies label, next, undisturbed, transition, ?_⟩
      rw [Bridge.stepsLeft, phase, input, otherPhase, otherInput]
      exact Nat.add_lt_add_left closer _
  · obtain ⟨next, transition, phase, input, otherPhase, otherInput⟩ :=
      step_requests uncancelled moved
    refine .inr ⟨.requests label, next, undisturbed, transition, ?_⟩
    rw [Bridge.stepsLeft, phase, input, otherPhase, otherInput]
    exact Nat.add_lt_add_right closer _

theorem Bridge.Conveying.exists_relayed {bridge : Bridge Text}
    (conveying : bridge.Conveying size limits request forwarded response)
    (passed : interceptFrame text interceptor state request = .ok forwarded)
    (requestFits : size request.message ≤ limits.downstream)
    (responseFits : size response.message ≤ limits.upstream) :
    ∃ more final,
      (bridgeMachine text interceptor).Runs (Undisturbed size limits state) bridge more final ∧
      final.toUpstream = [forwarded] ∧ final.toClient = [response] := by
  have progress : ∀ current : Bridge Text,
      current.Conveying size limits request forwarded response → 0 < current.stepsLeft →
      ∃ label next, True ∧ Undisturbed size limits state current label ∧
        (bridgeMachine text interceptor).step current label = some next ∧
        next.Conveying size limits request forwarded response ∧
        next.stepsLeft < current.stepsLeft := by
    intro current conveying positive
    rcases conveying.progress passed requestFits responseFits with
      ⟨-, -, done⟩ | ⟨label, next, undisturbed, moved, closer⟩
    · omega
    · exact ⟨label, next, trivial, undisturbed, moved, conveying.step passed undisturbed moved,
        closer⟩
  obtain ⟨more, final, -, run, conveyed, done⟩ :=
    Machine.exists_run_of_rank Bridge.stepsLeft (fun _ => True) progress conveying
  rcases conveyed.progress passed requestFits responseFits with
    ⟨toUpstream, toClient, -⟩ | ⟨label, next, -, -, closer⟩
  · exact ⟨more, final, run, toUpstream, toClient⟩
  · omega

/-- A request that can be intercepted and its response are relayed over a WebSocket exactly
if both messages are within the limits of the connections they are read from. -/
theorem relaysOverWebSocket_iff
    (passed : interceptFrame text interceptor state request = .ok forwarded) :
    RelaysOverWebSocket size text interceptor limits state request response ↔
      size request.message ≤ limits.downstream ∧ size response.message ≤ limits.upstream := by
  constructor
  · intro relays
    obtain ⟨more, final, sent, run, -, toUpstream, toClient⟩ := relays [] _ .refl
    refine ⟨?_, ?_⟩
    · by_contra long
      rw [(conveying_of_runs run passed).requests.written_eq_nil long] at toUpstream
      cases toUpstream
    · by_contra long
      rw [(conveying_of_runs run passed).replies.written_eq_nil long] at toClient
      cases toClient
  · rintro ⟨requestFits, responseFits⟩ labels bridge run
    obtain ⟨more, final, rest, toUpstream, toClient⟩ :=
      (conveying_of_runs run passed).exists_relayed passed requestFits responseFits
    exact ⟨more, final, forwarded, rest, passed, toUpstream, toClient⟩

/-- An exchange that is relayed over HTTP is relayed over a WebSocket exactly if the response
is not longer than 32768 bytes and, where no size is configured, neither is the request. -/
theorem transports_relay_same_exchanges {parseMediaType : String → Option String}
    {maxRequestBodySize : Nat} (int : maxRequestBodySize < 2 ^ 63)
    {httpRequest : HTTPRequest Text} {responseText forwardedText : Text}
    (relayed : serveHTTP size parseMediaType text interceptor maxRequestBodySize state
      responseText httpRequest = .relayed forwardedText responseText)
    (requestType responseType : MessageType) :
    ∃ limits, createWsServer maxRequestBodySize = some limits ∧
      (RelaysOverWebSocket size text interceptor limits state
          ⟨requestType, httpRequest.body.data⟩ ⟨responseType, responseText⟩ ↔
        (0 < maxRequestBodySize ∨ size httpRequest.body.data ≤ 32768) ∧
          size responseText ≤ 32768) := by
  obtain ⟨intercepted, bounded⟩ := relayed_of_serveHTTP relayed
  have passed : interceptFrame text interceptor state ⟨requestType, httpRequest.body.data⟩ =
      .ok ⟨requestType, forwardedText⟩ := by
    simp [interceptFrame, intercepted, Except.map]
  have accepted : ¬ maxRequestBodySize > maxInt64 := by
    unfold maxInt64
    omega
  refine ⟨⟨if maxRequestBodySize > 0 then maxRequestBodySize else defaultReadLimit,
    dialReadLimit⟩, by simp [createWsServer, upgradeReadLimit, accepted], ?_⟩
  rw [relaysOverWebSocket_iff passed]
  refine and_congr ?_ Iff.rfl
  by_cases limited : 0 < maxRequestBodySize
  · simp [limited, bounded limited]
  · simp [limited, defaultReadLimit]

/-- The length of the compact text of a value. -/
def compactLength : Json → Nat :=
  Json.fold
    (fun
      | .null => 4
      | .bool value => if value then 4 else 5
      | .number literal => literal.utf8ByteSize
      | .string text => text.utf8ByteSize + 2
      | _ => 0)
    (fun items => items.sum + (items.length - 1) + 2)
    (fun members => (members.map fun member => member.1.utf8ByteSize + 3 + member.2).sum +
      (members.length - 1) + 2)

def sampleHTTPRequest : HTTPRequest Json where
  method := methodPost
  path := [""]
  header := Header.set ∅ "Content-Type" "application/json"
  contentLength := -1
  body := ⟨.object [("jsonrpc", .string "2.0"), ("id", .number "1"),
    ("method", .string "eth_blockNumber")], none⟩

/-- A response with as many empty entries. -/
def sampleResponse (entries : Nat) : Json :=
  .object [("jsonrpc", .string "2.0"), ("id", .number "1"),
    ("result", .array (List.replicate entries .null))]

theorem compactLength_sampleResponse {entries : Nat} (positive : 0 < entries) :
    compactLength (sampleResponse entries) = 5 * entries + 35 := by
  have null : compactLength .null = 4 := rfl
  have version : compactLength (.string "2.0") = 5 := rfl
  have identifier : compactLength (.number "1") = 1 := rfl
  have names : "jsonrpc".utf8ByteSize = 7 ∧ "id".utf8ByteSize = 2 ∧ "result".utf8ByteSize = 6 :=
    ⟨rfl, rfl, rfl⟩
  have array : compactLength (.array (List.replicate entries .null)) = 5 * entries + 1 := by
    rw [compactLength, Json.fold_array, ← compactLength, List.map_replicate, null,
      List.sum_replicate_nat, List.length_replicate]
    omega
  rw [compactLength, sampleResponse, Json.fold_object, ← compactLength]
  simp only [List.map_cons, List.map_nil, List.sum_cons, List.sum_nil, List.length_cons,
    List.length_nil, version, identifier, array, names]
  omega

/-- With the default size of five megabytes, a request and a short response. -/
theorem transports_relay_short_response :
    ∃ limits, createWsServer 5242880 = some limits ∧
      RelaysOverWebSocket compactLength valueText ⟨"espresso", 10⟩ limits ⟨7, 3, 1⟩
        ⟨.text, sampleHTTPRequest.body.data⟩ ⟨.text, sampleResponse 2⟩ := by
  obtain ⟨forwarded, relayed⟩ : ∃ forwarded, serveHTTP compactLength some valueText
      ⟨"espresso", 10⟩ 5242880 ⟨7, 3, 1⟩ (sampleResponse 2) sampleHTTPRequest =
        .relayed forwarded (sampleResponse 2) := ⟨_, rfl⟩
  obtain ⟨limits, created, exactly⟩ :=
    transports_relay_same_exchanges (by decide) relayed .text .text
  refine ⟨limits, created, exactly.mpr ⟨.inl (by decide), ?_⟩⟩
  rw [compactLength_sampleResponse (by decide)]
  decide

/-- A response of 32770 bytes is relayed over HTTP and not over a WebSocket. -/
theorem long_response_not_relayed_over_websocket :
    compactLength (sampleResponse 6547) = 32770 ∧
      (∃ forwarded, serveHTTP compactLength some valueText ⟨"espresso", 10⟩ 5242880 ⟨7, 3, 1⟩
        (sampleResponse 6547) sampleHTTPRequest = .relayed forwarded (sampleResponse 6547)) ∧
      ∃ limits, createWsServer 5242880 = some limits ∧
        ¬ RelaysOverWebSocket compactLength valueText ⟨"espresso", 10⟩ limits ⟨7, 3, 1⟩
          ⟨.text, sampleHTTPRequest.body.data⟩ ⟨.text, sampleResponse 6547⟩ := by
  have long := compactLength_sampleResponse (show 0 < 6547 by decide)
  refine ⟨long, ⟨_, rfl⟩, ⟨5242880, 32768⟩, rfl, ?_⟩
  obtain ⟨forwarded, passed⟩ : ∃ forwarded, interceptFrame valueText ⟨"espresso", 10⟩ ⟨7, 3, 1⟩
      ⟨.text, sampleHTTPRequest.body.data⟩ = .ok forwarded := ⟨_, rfl⟩
  rw [relaysOverWebSocket_iff passed, long]
  decide

end EspressoProxy.WebSocket
