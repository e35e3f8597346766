import EspressoProxy.WebSocket.Bridge

/-!
# Integrity of the WebSocket bridge

Upstream gets the intercepted frames of the client in their order, up to the first one
whose interception fails. The client gets the frames of upstream in their order, and at
most one error between them, for that frame. This holds in every interleaving of the two
loops, wherever the context is cancelled and whichever operations fail.
-/

namespace EspressoProxy.WebSocket

open EspressoProxy.JsonRpc EspressoProxy.Proxy EspressoProxy.Store EspressoProxy.Adapters
open EspressoProxy.Semantics

variable {Text : Type} (text : JSONText Text) (interceptor : Interceptor)

/-- What upstream should get for a frame: its message as `PerformRequestIntercept` rewrites it,
under its own message type. -/
def requiredFrame (state : EspressoState) (frame : Frame Text) :
    Except RequestError (Frame Text) :=
  match performRequestIntercept text interceptor state frame.message with
  | .ok message => .ok ⟨frame.messageType, message⟩
  | .error cause => .error cause

/-- What upstream should get for the client's frames, each on the state read for it. -/
def requiredFrames (client : List (Frame Text)) (states : List EspressoState) :
    List (Except RequestError (Frame Text)) :=
  List.zipWith (fun frame state => requiredFrame text interceptor state frame) client states

/-- The wrapped connection reads what upstream should get. -/
theorem interceptFrame_eq (state : EspressoState) (frame : Frame Text) :
    interceptFrame text interceptor state frame = requiredFrame text interceptor state frame := by
  rw [interceptFrame, requiredFrame]
  cases performRequestIntercept text interceptor state frame.message <;> rfl

def BridgeLabel.stateRead : BridgeLabel → Option EspressoState
  | .requests label => label.stateRead
  | _ => none

/-- The states that interceptions read from the store, in order. -/
def statesRead (labels : List BridgeLabel) : List EspressoState :=
  labels.filterMap BridgeLabel.stateRead

/-- Where the requests stand: `results` are those of the frames intercepted so far, and
`left` are the frames that were not intercepted. -/
def LoopPhase.RequestsSound (results : List (Except RequestError (Frame Text)))
    (left input toUpstream : List (Frame Text)) (reported : List RequestError) :
    LoopPhase Text → Prop
  | .checking | .reading => results = toUpstream.map .ok ∧ left = input ∧ reported = []
  | .intercepting frame => results = toUpstream.map .ok ∧ left = frame :: input ∧ reported = []
  | .writing frame => results = toUpstream.map .ok ++ [.ok frame] ∧ left = input ∧ reported = []
  | .reporting cause => results = toUpstream.map .ok ++ [.error cause] ∧ reported = []
  | _ => toUpstream.map .ok <+: results ∧
      (reported = [] ∨ ∃ cause, reported = [cause] ∧
        results = toUpstream.map .ok ++ [.error cause])

/-- Where the replies stand: `forwarded` are the frames the client got from upstream. -/
def LoopPhase.RepliesSound (upstream input forwarded : List (Frame Text)) :
    LoopPhase Text → Prop
  | .checking | .reading => upstream = forwarded ++ input
  | .writing frame => upstream = forwarded ++ frame :: input
  | .intercepting _ | .reporting _ => False
  | _ => forwarded <+: upstream

/-- The invariant of the bridge: what the client got is a merge of the replies and at most
one error, and both directions stand as their loops are. -/
def Bridge.Sound (client upstream : List (Frame Text)) (labels : List BridgeLabel)
    (bridge : Bridge Text) : Prop :=
  ∃ first reported second,
    bridge.toClient = first ++ reported.map (errorFrame text) ++ second ∧
    bridge.replies.RepliesSound upstream bridge.fromUpstream (first ++ second) ∧
    bridge.requests.RequestsSound (requiredFrames text interceptor client (statesRead labels))
      (client.drop (statesRead labels).length) bridge.fromClient bridge.toUpstream reported

variable {text interceptor}

theorem LoopPhase.RequestsSound.delivered {results : List (Except RequestError (Frame Text))}
    {left input toUpstream : List (Frame Text)} {reported : List RequestError}
    {phase : LoopPhase Text} (sound : phase.RequestsSound results left input toUpstream reported) :
    toUpstream.map .ok <+: results ∧
      (reported = [] ∨ ∃ cause, reported = [cause] ∧
        results = toUpstream.map .ok ++ [.error cause]) := by
  cases phase with
  | checking =>
      obtain ⟨rfl, -, rfl⟩ := sound
      exact ⟨List.prefix_rfl, .inl rfl⟩
  | reading =>
      obtain ⟨rfl, -, rfl⟩ := sound
      exact ⟨List.prefix_rfl, .inl rfl⟩
  | intercepting frame =>
      obtain ⟨rfl, -, rfl⟩ := sound
      exact ⟨List.prefix_rfl, .inl rfl⟩
  | writing frame =>
      obtain ⟨rfl, -, rfl⟩ := sound
      exact ⟨List.prefix_append _ _, .inl rfl⟩
  | reporting cause =>
      obtain ⟨rfl, rfl⟩ := sound
      exact ⟨List.prefix_append _ _, .inl rfl⟩
  | _ => exact sound

theorem LoopPhase.RepliesSound.forwarded {upstream input forwarded : List (Frame Text)}
    {phase : LoopPhase Text} (sound : phase.RepliesSound upstream input forwarded) :
    forwarded <+: upstream := by
  cases phase with
  | checking => exact ⟨_, sound.symm⟩
  | reading => exact ⟨_, sound.symm⟩
  | writing frame => exact ⟨_, sound.symm⟩
  | intercepting frame => exact sound.elim
  | reporting cause => exact sound.elim
  | _ => exact sound

theorem LoopPhase.RepliesSound.step {upstream input forwarded : List (Frame Text)}
    {phase : LoopPhase Text} {label : LoopLabel} {effect : LoopEffect Text}
    (sound : phase.RepliesSound upstream input forwarded)
    (outcome : LoopOutcome text interceptor false input phase label effect) :
    effect.reported = [] ∧
      effect.phase.RepliesSound upstream effect.input (forwarded ++ effect.written) := by
  cases outcome with
  | continued => exact ⟨rfl, by rw [List.append_nil]; exact sound⟩
  | read head =>
      subst head
      exact ⟨rfl, by rw [List.append_nil]; exact sound⟩
  | accepted passed => exact sound.elim
  | refused failed => exact sound.elim
  | reported => exact sound.elim
  | wrote => exact ⟨rfl, by simpa [RepliesSound] using sound⟩
  | ended quiet halted =>
      refine ⟨rfl, ?_⟩
      have forwarded := sound.forwarded
      rw [List.append_nil]
      rcases halted with rfl | rfl | ⟨left, rfl⟩
      · exact forwarded
      · exact forwarded
      · exact forwarded

variable (text interceptor) in
theorem requiredFrames_append {client input : List (Frame Text)} {states : List EspressoState}
    {frame : Frame Text} (left : client.drop states.length = frame :: input)
    (state : EspressoState) :
    requiredFrames text interceptor client (states ++ [state]) =
        requiredFrames text interceptor client states ++
          [requiredFrame text interceptor state frame] ∧
      client.drop (states ++ [state]).length = input := by
  induction states generalizing client with
  | nil =>
      rw [List.length_nil, List.drop_zero] at left
      subst left
      exact ⟨by simp [requiredFrames], rfl⟩
  | cons earlier rest inductionHypothesis =>
      cases client with
      | nil => cases left
      | cons first more =>
          obtain ⟨results, remaining⟩ := inductionHypothesis left
          exact ⟨congrArg (requiredFrame text interceptor earlier first :: ·) results, remaining⟩

theorem LoopPhase.RequestsSound.step {client input toUpstream : List (Frame Text)}
    {reported : List RequestError} {states : List EspressoState} {phase : LoopPhase Text}
    {label : LoopLabel} {effect : LoopEffect Text}
    (sound : phase.RequestsSound (requiredFrames text interceptor client states)
      (client.drop states.length) input toUpstream reported)
    (outcome : LoopOutcome text interceptor true input phase label effect) :
    ∃ more, effect.reported = more.map (errorFrame text) ∧ (more = [] ∨ reported = []) ∧
      effect.phase.RequestsSound
        (requiredFrames text interceptor client (states ++ label.stateRead.toList))
        (client.drop (states ++ label.stateRead.toList).length) effect.input
        (toUpstream ++ effect.written) (reported ++ more) := by
  cases outcome with
  | continued =>
      refine ⟨[], rfl, .inl rfl, ?_⟩
      simpa [LoopLabel.stateRead, RequestsSound] using sound
  | read head =>
      subst head
      refine ⟨[], rfl, .inl rfl, ?_⟩
      simpa [LoopLabel.stateRead, RequestsSound] using sound
  | @accepted frame next state passed =>
      obtain ⟨results, left, rfl⟩ := sound
      obtain ⟨more, rest⟩ := requiredFrames_append text interceptor left state
      rw [← interceptFrame_eq, passed, results] at more
      refine ⟨[], rfl, .inl rfl, ?_⟩
      simp only [List.append_nil]
      exact ⟨more, rest, rfl⟩
  | @refused frame cause state failed =>
      obtain ⟨results, left, rfl⟩ := sound
      obtain ⟨more, rest⟩ := requiredFrames_append text interceptor left state
      rw [← interceptFrame_eq, failed, results] at more
      refine ⟨[], rfl, .inl rfl, ?_⟩
      simp only [List.append_nil]
      exact ⟨more, rfl⟩
  | @reported cause =>
      obtain ⟨results, rfl⟩ := sound
      refine ⟨[cause], rfl, .inr rfl, ?_⟩
      simp only [LoopLabel.stateRead, Option.toList_none, List.append_nil, List.nil_append]
      exact ⟨results ▸ List.prefix_append _ _, .inr ⟨cause, rfl, results⟩⟩
  | wrote =>
      obtain ⟨results, left, rfl⟩ := sound
      refine ⟨[], rfl, .inl rfl, ?_⟩
      simpa [LoopLabel.stateRead, RequestsSound] using ⟨results, left⟩
  | ended quiet halted =>
      have delivered := sound.delivered
      refine ⟨[], rfl, .inl rfl, ?_⟩
      rw [quiet]
      simp only [Option.toList_none, List.append_nil]
      rcases halted with rfl | rfl | ⟨left, rfl⟩
      · exact delivered
      · exact delivered
      · exact delivered

theorem statesRead_append (labels : List BridgeLabel) (label : BridgeLabel) :
    statesRead (labels ++ [label]) = statesRead labels ++ label.stateRead.toList := by
  cases read : label.stateRead with
  | none => simp [statesRead, read]
  | some state => simp [statesRead, read]

theorem sound_start (client upstream : List (Frame Text)) :
    (Bridge.start client upstream).Sound text interceptor client upstream [] :=
  ⟨[], [], [], rfl, rfl, by simp [requiredFrames, statesRead, Bridge.start], rfl, rfl⟩

theorem Bridge.Sound.step {client upstream : List (Frame Text)} {labels : List BridgeLabel}
    {bridge after : Bridge Text} {label : BridgeLabel}
    (sound : bridge.Sound text interceptor client upstream labels)
    (moved : (bridgeMachine text interceptor).step bridge label = some after) :
    after.Sound text interceptor client upstream (labels ++ [label]) := by
  obtain ⟨first, reported, second, merged, replies, requests⟩ := sound
  rw [Bridge.Sound, statesRead_append]
  cases label with
  | cancel =>
      cases moved
      exact ⟨first, reported, second, merged, replies, by simpa [BridgeLabel.stateRead]⟩
  | requests label =>
      obtain ⟨effect, transition, rfl⟩ := Option.map_eq_some_iff.mp moved
      obtain ⟨more, reports, single, requests⟩ :=
        requests.step (loopStep_outcome text interceptor transition)
      rcases single with rfl | rfl
      · refine ⟨first, reported, second, ?_, replies, ?_⟩
        · simp [reports, merged]
        · simpa [BridgeLabel.stateRead] using requests
      · refine ⟨first ++ second, more, [], ?_, ?_, ?_⟩
        · simp [reports, merged]
        · simpa using replies
        · simpa [BridgeLabel.stateRead] using requests
  | replies label =>
      obtain ⟨effect, transition, rfl⟩ := Option.map_eq_some_iff.mp moved
      obtain ⟨nothing, replies⟩ := replies.step (loopStep_outcome text interceptor transition)
      refine ⟨first, reported, second ++ effect.written, ?_, ?_, ?_⟩
      · simp [merged]
      · simpa using replies
      · simpa [nothing, BridgeLabel.stateRead] using requests

theorem sound_of_reaches {client upstream : List (Frame Text)} {labels : List BridgeLabel}
    {bridge : Bridge Text}
    (run : (bridgeMachine text interceptor).Reaches (.start client upstream) labels bridge) :
    bridge.Sound text interceptor client upstream labels :=
  run.invariantWithLabels (P := fun labels bridge =>
    bridge.Sound text interceptor client upstream labels) (sound_start client upstream)
    fun sound _ moved => sound.step moved

theorem loopStep_reporting {intercepted cancelled : Bool} {input : List (Frame Text)}
    {cause : RequestError} {label : LoopLabel} {effect : LoopEffect Text}
    (moved : loopStep text interceptor intercepted cancelled input (.reporting cause) label =
      some effect) :
    effect.reported = [errorFrame text cause] ∨ ∃ failure, label = .outcome (some failure) := by
  cases label with
  | check => cases moved
  | intercept state => cases moved
  | outcome failure =>
      cases failure with
      | none =>
          cases moved
          exact .inl rfl
      | some failure => exact .inr ⟨failure, rfl⟩

theorem step_reporting {bridge : Bridge Text} {cause : RequestError}
    (pending : bridge.requests = .reporting cause) :
    ∃ after, (bridgeMachine text interceptor).step bridge (.requests (.outcome none)) =
        some after ∧ after.toClient = bridge.toClient ++ [errorFrame text cause] := by
  have written : loopStep text interceptor true bridge.cancelled bridge.fromClient bridge.requests
      (.outcome none) = some ⟨.closing 2, bridge.fromClient, [], [errorFrame text cause]⟩ := by
    rw [pending]
    rfl
  exact ⟨_, Option.map_eq_some_iff.mpr ⟨_, written, rfl⟩, rfl⟩

variable (text interceptor) in
/-- The write that was to tell the client of a refused frame has failed. -/
def AnswerLost (client upstream : List (Frame Text)) (cause : RequestError) :
    List BridgeLabel → Prop :=
  (bridgeMachine text interceptor).Since (fun _ _ => True) (.start client upstream)
    (fun _ before label _ => before.requests = .reporting cause ∧
      ∃ failure, label = .requests (.outcome (some failure))) fun _ => True

variable (text interceptor) in
/-- The client is told of every frame that was refused, unless the write fails. -/
def Bridge.Tells (client upstream : List (Frame Text)) (labels : List BridgeLabel)
    (bridge : Bridge Text) : Prop :=
  ∀ cause, .error cause ∈ requiredFrames text interceptor client (statesRead labels) →
    errorFrame text cause ∈ bridge.toClient ∨ bridge.requests = .reporting cause ∨
      AnswerLost text interceptor client upstream cause labels

/-- A frame that is refused is about to be reported. -/
theorem LoopPhase.RequestsSound.reporting_of_error {client input toUpstream : List (Frame Text)}
    {reported : List RequestError} {states : List EspressoState} {phase : LoopPhase Text}
    {label : LoopLabel} {effect : LoopEffect Text} {cause : RequestError}
    (sound : phase.RequestsSound (requiredFrames text interceptor client states)
      (client.drop states.length) input toUpstream reported)
    (outcome : LoopOutcome text interceptor true input phase label effect)
    (failed : .error cause ∈
      requiredFrames text interceptor client (states ++ label.stateRead.toList)) :
    .error cause ∈ requiredFrames text interceptor client states ∨
      effect.phase = .reporting cause := by
  have unread (quiet : label.stateRead = none) :
      .error cause ∈ requiredFrames text interceptor client states := by
    rwa [quiet, Option.toList_none, List.append_nil] at failed
  cases outcome with
  | continued | read | reported | wrote => exact .inl (unread rfl)
  | ended quiet _ => exact .inl (unread quiet)
  | @accepted frame next state passed =>
      obtain ⟨-, left, -⟩ := sound
      rw [show (LoopLabel.intercept state).stateRead.toList = [state] from rfl,
        (requiredFrames_append text interceptor left state).1, ← interceptFrame_eq,
        passed] at failed
      rcases List.mem_append.mp failed with earlier | here
      · exact .inl earlier
      · cases List.mem_singleton.mp here
  | @refused frame found state refused =>
      obtain ⟨-, left, -⟩ := sound
      rw [show (LoopLabel.intercept state).stateRead.toList = [state] from rfl,
        (requiredFrames_append text interceptor left state).1, ← interceptFrame_eq, refused]
        at failed
      rcases List.mem_append.mp failed with earlier | here
      · exact .inl earlier
      · cases List.mem_singleton.mp here
        exact .inr rfl

theorem Bridge.Tells.step {client upstream : List (Frame Text)} {labels : List BridgeLabel}
    {bridge after : Bridge Text} {label : BridgeLabel}
    (run : (bridgeMachine text interceptor).Reaches (.start client upstream) labels bridge)
    (tells : bridge.Tells text interceptor client upstream labels)
    (moved : (bridgeMachine text interceptor).step bridge label = some after) :
    after.Tells text interceptor client upstream (labels ++ [label]) := by
  intro cause failed
  rw [statesRead_append] at failed
  have unread (quiet : label.stateRead = none) :
      .error cause ∈ requiredFrames text interceptor client (statesRead labels) := by
    rwa [quiet, Option.toList_none, List.append_nil] at failed
  cases label with
  | cancel =>
      cases moved
      rcases tells cause (unread rfl) with told | pending | lost
      · exact .inl told
      · exact .inr (.inl pending)
      · exact .inr (.inr (.later lost trivial))
  | replies label =>
      obtain ⟨effect, -, rfl⟩ := Option.map_eq_some_iff.mp moved
      rcases tells cause (unread rfl) with told | pending | lost
      · exact .inl (List.mem_append_left _ told)
      · exact .inr (.inl pending)
      · exact .inr (.inr (.later lost trivial))
  | requests label =>
      obtain ⟨effect, transition, rfl⟩ := Option.map_eq_some_iff.mp moved
      obtain ⟨first, reported, second, -, -, sound⟩ := sound_of_reaches run
      rcases sound.reporting_of_error (loopStep_outcome text interceptor transition) failed with
        earlier | reporting
      · rcases tells cause earlier with told | pending | lost
        · exact .inl (List.mem_append_left _ told)
        · rw [pending] at transition
          rcases loopStep_reporting transition with written | ⟨failure, rfl⟩
          · exact .inl (List.mem_append_right _ (written ▸ List.mem_singleton_self _))
          · exact .inr (.inr (.now run trivial moved ⟨pending, failure, rfl⟩))
        · exact .inr (.inr (.later lost trivial))
      · exact .inr (.inl reporting)

/-- In every run the client has got the error for a refused frame, or the write of it is the next
step of the request loop, or this write has failed. -/
theorem tells_of_reaches {client upstream : List (Frame Text)} {labels : List BridgeLabel}
    {bridge : Bridge Text}
    (run : (bridgeMachine text interceptor).Reaches (.start client upstream) labels bridge) :
    bridge.Tells text interceptor client upstream labels := by
  refine run.invariantAlong (P := fun labels bridge =>
    bridge.Tells text interceptor client upstream labels) ?_
    fun prior tells _ moved => tells.step prior moved
  intro cause failed
  simp [requiredFrames, statesRead] at failed

end EspressoProxy.WebSocket
