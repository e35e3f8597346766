import EspressoProxy.Verifier.Nitro.Coverage
import EspressoProxy.Verifier.Nitro.FeedConnection
import EspressoProxy.Verifier.Nitro.Sources

/-!
# Where a verified position comes from

The verifier, the goroutine that reads the feed and the delayed message fetcher, together.
The verifier with its fetcher is one machine already; here the connection of the feed client
takes the place of arbitrary broadcasts. Seen through the right projection a run of all of
them is a run of each, so what was proved of each alone holds of the whole: a position that
the tag has passed was found on HotShot, read from a feed of the configured chain, and, if it
is a delayed message, announced and confirmed by the Bridge.
-/

namespace EspressoProxy.Verifier.Nitro

open EspressoProxy.Ethereum EspressoProxy.Semantics EspressoProxy.Store

variable {config : NitroConfig}

/-! ### The process -/

/-- The verifier, and where the goroutine that reads its feed is. -/
structure NitroProcess where
  verifier : NitroState
  reading : ReadPhase
  cancelled : Bool

/-- A step of the verifier or of what runs beside it, or a step of the connection. -/
inductive ProcessLabel where
  | verifier (label : NitroLabel)
  | feed (label : ConnectionLabel)

def NitroProcess.connection (process : NitroProcess) : FeedConnection :=
  ⟨process.verifier.feed, process.reading, process.cancelled⟩

/-- Nothing has been read yet. -/
def NitroProcess.initial (store : EspressoState) (file : StateFile) (finalizedBlock : Nat) :
    NitroProcess :=
  ⟨.initial store file finalizedBlock, .looping, false⟩

/-- Broadcasts come from the connection only, and only the verifier moves the cursor of the
feed client. -/
def NitroProcess.step (config : NitroConfig) (chainID : Nat) (process : NitroProcess) :
    ProcessLabel → Option NitroProcess
  | .verifier (.broadcast _) | .feed .advance | .feed (.advanceTo _) => none
  | .verifier label =>
      (process.verifier.step config label).map fun verifier => { process with verifier }
  | .feed label =>
      (process.connection.step chainID label).map fun connection =>
        { verifier := { process.verifier with feed := connection.client }
          reading := connection.phase
          cancelled := connection.cancelled }

def processMachine (config : NitroConfig) (chainID : Nat) :
    Machine NitroProcess ProcessLabel where
  step := NitroProcess.step config chainID

/-- What a step of the process is to the verifier. -/
def verifierAction (_ : NitroProcess) : ProcessLabel → Option NitroLabel
  | .verifier label => some label
  | .feed (.read (some broadcast)) => some (.broadcast broadcast)
  | .feed _ => none

/-- What a step of the process is to the connection of the feed client. -/
def connectionAction (process : NitroProcess) : ProcessLabel → Option ConnectionLabel
  | .feed label => some label
  | .verifier .proceed =>
      match process.verifier.phase with
      | .advancingFeed _ _ => some .advance
      | .advancingFeedTo _ pos => some (.advanceTo pos)
      | _ => none
  | .verifier _ => none

/-- Answers are bounded, and no chain id is malformed. -/
def ProcessAdmits (process : NitroProcess) : ProcessLabel → Prop
  | .verifier label => AnswersBounded process.verifier label
  | .feed label => NumeralChainId process.connection label

instance (process : NitroProcess) : ∀ label, Decidable (ProcessAdmits process label)
  | .verifier label => inferInstanceAs (Decidable (_ ∧ BridgeBounded label))
  | .feed label => inferInstanceAs (Decidable (NumeralChainId process.connection label))

variable {chainID : Nat}

/-- The steps of a process: one of the verifier, which reads nothing, or one of the
connection, which changes nothing of the verifier but its feed client. -/
inductive ProcessOutcome (config : NitroConfig) (chainID : Nat) (before : NitroProcess) :
    ProcessLabel → NitroProcess → Prop where
  | verifier {label : NitroLabel} {verifier : NitroState}
      (silent : ∀ broadcast, label ≠ .broadcast broadcast)
      (moved : (nitroMachine config).step before.verifier label = some verifier) :
      ProcessOutcome config chainID before (.verifier label) { before with verifier }
  | feed {label : ConnectionLabel} {connection : FeedConnection}
      (still : label ≠ .advance ∧ ∀ seqNum, label ≠ .advanceTo seqNum)
      (moved : (connectionMachine chainID).step before.connection label = some connection) :
      ProcessOutcome config chainID before (.feed label)
        { verifier := { before.verifier with feed := connection.client }
          reading := connection.phase
          cancelled := connection.cancelled }

theorem processStep_outcome {before after : NitroProcess} {label : ProcessLabel}
    (transition : (processMachine config chainID).step before label = some after) :
    ProcessOutcome config chainID before label after := by
  simp only [processMachine, NitroProcess.step] at transition
  split at transition
  · cases transition
  · cases transition
  · cases transition
  · rename_i label silent
    obtain ⟨verifier, moved, rfl⟩ := Option.map_eq_some_iff.mp transition
    exact .verifier silent moved
  · rename_i label notAdvance notAdvanceTo
    obtain ⟨connection, moved, rfl⟩ := Option.map_eq_some_iff.mp transition
    exact .feed ⟨notAdvance, notAdvanceTo⟩ moved

/-- What a step of the connection is to the verifier. -/
theorem verifier_of_connection {before : NitroProcess} {label : ConnectionLabel}
    {connection : FeedConnection}
    (still : label ≠ .advance ∧ ∀ seqNum, label ≠ .advanceTo seqNum)
    (moved : (connectionMachine chainID).step before.connection label = some connection) :
    (verifierAction before (.feed label) = none ∧ connection.client = before.verifier.feed) ∨
      ∃ broadcast, label = .read (some broadcast) ∧
        connection.client = before.verifier.feed.readMessages broadcast := by
  cases label with
  | advance => exact absurd rfl still.1
  | advanceTo seqNum => exact absurd rfl (still.2 seqNum)
  | read broadcast =>
      simp only [connectionMachine, FeedConnection.step] at moved
      split at moved <;> cases moved
      cases broadcast with
      | none => exact .inl ⟨rfl, rfl⟩
      | some broadcast => exact .inr ⟨broadcast, rfl, rfl⟩
  | cancel | proceed | dialed | readFailed =>
      refine .inl ⟨rfl, ?_⟩
      cases connectionStep_outcome moved with
      | _ => rfl

theorem verifier_runs {store : EspressoState} {file : StateFile} {finalizedBlock : Nat}
    {labels : List ProcessLabel} {process : NitroProcess}
    (run : (processMachine config chainID).Runs ProcessAdmits
      (.initial store file finalizedBlock) labels process) :
    (nitroMachine config).Runs AnswersBounded (.initial store file finalizedBlock)
      ((processMachine config chainID).observe verifierAction
        (.initial store file finalizedBlock) labels) process.verifier := by
  refine run.observed NitroProcess.verifier verifierAction ?_ ?_
  · intro before label after transition unseen
    cases processStep_outcome transition with
    | verifier => cases unseen
    | feed still moved =>
        rcases verifier_of_connection still moved with ⟨-, same⟩ | ⟨broadcast, rfl, -⟩
        · rw [same]
        · cases unseen
  · intro before label after action admitted transition seen
    cases processStep_outcome transition with
    | verifier _ moved =>
        cases seen
        exact ⟨admitted, moved⟩
    | feed still moved =>
        rcases verifier_of_connection still moved with ⟨none, -⟩ | ⟨broadcast, rfl, read⟩
        · cases none.symm.trans seen
        · cases seen
          exact ⟨⟨trivial, trivial⟩, by rw [read]; rfl⟩

/-- What a step of the verifier is to the connection. -/
theorem connection_of_verifier {before : NitroProcess} {label : NitroLabel}
    {verifier : NitroState} (silent : ∀ broadcast, label ≠ .broadcast broadcast)
    (moved : (nitroMachine config).step before.verifier label = some verifier) :
    (connectionAction before (.verifier label) = none ∧ verifier.feed = before.verifier.feed) ∨
    (connectionAction before (.verifier label) = some .advance ∧
      verifier.feed = before.verifier.feed.advance) ∨
    ∃ pos, connectionAction before (.verifier label) = some (.advanceTo pos) ∧
      verifier.feed = before.verifier.feed.advanceTo pos := by
  cases nitroStep_outcome moved with
  | broadcast => exact absurd rfl (silent _)
  | advancedFeed phase => exact .inr (.inl ⟨by simp only [connectionAction, phase], rfl⟩)
  | @advancedFeedTo continues pos phase =>
      exact .inr (.inr ⟨pos, by simp only [connectionAction, phase], rfl⟩)
  | found | finalityPoll | cancelled | notAhead | syncFailed | syncStored | nothingVerified
  | finishFailed | finishStored | notGreater => exact .inl ⟨rfl, rfl⟩
  | fetcher kind =>
      rcases kind with ⟨pollLabel, rfl⟩ | ⟨callLabel, rfl⟩
      · exact .inl ⟨rfl, rfl⟩
      · exact .inl ⟨rfl, rfl⟩
  | begin phase | noMessage phase | peeked phase | noFeedMessage phase | feedMessage phase
  | panicked phase | rejected phase | matched phase | lookup phase | fetchFailed phase
  | fetchedMismatch phase | fetchedMatch phase | advanced phase | advancedFetcher phase
  | advancedTo phase => exact .inl ⟨by simp only [connectionAction, phase], rfl⟩

theorem connection_runs {store : EspressoState} {file : StateFile} {finalizedBlock : Nat}
    {labels : List ProcessLabel} {process : NitroProcess}
    (run : (processMachine config chainID).Runs ProcessAdmits
      (.initial store file finalizedBlock) labels process) :
    (connectionMachine chainID).Runs NumeralChainId (.start store.l2BlockNumber)
      ((processMachine config chainID).observe connectionAction
        (.initial store file finalizedBlock) labels) process.connection := by
  refine run.observed NitroProcess.connection connectionAction ?_ ?_
  · intro before label after transition unseen
    cases processStep_outcome transition with
    | feed => cases unseen
    | verifier silent moved =>
        rcases connection_of_verifier silent moved with
          ⟨-, same⟩ | ⟨advance, -⟩ | ⟨pos, advanceTo, -⟩
        · simp only [NitroProcess.connection, same]
        · cases advance.symm.trans unseen
        · cases advanceTo.symm.trans unseen
  · intro before label after action admitted transition seen
    cases processStep_outcome transition with
    | feed _ moved =>
        cases seen
        exact ⟨admitted, moved⟩
    | verifier silent moved =>
        rcases connection_of_verifier silent moved with
          ⟨none, -⟩ | ⟨advance, same⟩ | ⟨pos, advanceTo, same⟩
        · cases none.symm.trans seen
        · cases advance.symm.trans seen
          exact ⟨trivial, by simp only [NitroProcess.connection, same]; rfl⟩
        · cases advanceTo.symm.trans seen
          exact ⟨trivial, by simp only [NitroProcess.connection, same]; rfl⟩

/-! ### The feed -/

/-- The step reads a broadcast with the message, from a connection whose response names the
chain. -/
def ReadsFromChain (chainID : Nat) (message : BroadcastFeedMessage) (before : NitroProcess)
    (label : ProcessLabel) : Prop :=
  ∃ action, label = .feed action ∧ ReadFromChain chainID message before.connection action

theorem feedMessage_read {store : EspressoState} {file : StateFile} {finalizedBlock : Nat}
    {labels : List ProcessLabel} {process : NitroProcess} {seqNum : Nat}
    {message : BroadcastFeedMessage}
    (run : (processMachine config chainID).Runs ProcessAdmits
      (.initial store file finalizedBlock) labels process)
    (cached : process.verifier.feed.getMessage seqNum = some message) :
    (processMachine config chainID).Since ProcessAdmits (.initial store file finalizedBlock)
      (fun _ before label _ => ReadsFromChain chainID message before label) (fun _ => True)
      labels := by
  induction run with
  | refl => simp [NitroProcess.initial, NitroState.initial] at cached
  | @step taken before label after prior admitted transition inductionHypothesis =>
      by_cases old : before.verifier.feed.getMessage seqNum = some message
      · exact .later (inductionHypothesis old) trivial
      · cases processStep_outcome transition with
        | verifier silent moved =>
            -- the verifier only removes messages
            refine absurd ?_ old
            rcases connection_of_verifier silent moved with
              ⟨-, same⟩ | ⟨-, same⟩ | ⟨pos, -, same⟩
            · exact same ▸ cached
            · rw [same, FeedClient.getMessage_advance] at cached
              split at cached
              · cases cached
              · exact cached
            · rw [same, FeedClient.getMessage_advanceTo] at cached
              split at cached
              · cases cached
              · exact cached
        | feed still moved =>
            rcases verifier_of_connection still moved with ⟨-, same⟩ | ⟨broadcast, rfl, read⟩
            · exact absurd (same ▸ cached) old
            · have checked := checked_of_runs (connection_runs prior)
              simp only [connectionMachine, FeedConnection.step] at moved
              split at moved <;> cases moved
              rename_i phase
              rw [phase] at checked
              obtain ⟨header, rfl, names⟩ := checked
              exact .now prior admitted transition ⟨_, rfl, header, broadcast, phase, names, rfl,
                mem_received_of_readMessages cached old⟩

/-! ### The positions -/

/-- What the verifier compares before it passes a position: a message that was found on
HotShot and one that was read from a feed of the chain have the same encoding, the first with
the data of the Bridge if it stands for a delayed message. -/
def PassesAuthentic (config : NitroConfig) (chainID : Nat) (start : NitroProcess) (pos : Nat)
    (labels : List ProcessLabel) (process : NitroProcess) : Prop :=
  ∃ message feedMsg bytes,
    .verifier (.found message) ∈ labels ∧ message.pos = pos ∧
    (processMachine config chainID).Since ProcessAdmits start
      (fun _ before label _ => ReadsFromChain chainID feedMsg before label) (fun _ => True)
      labels ∧
    process.verifier.feed.getMessage pos = some feedMsg ∧
    config.encodeToBytes feedMsg.message = some bytes ∧
    ((message.messageWithMeta.HasData ∧
        config.encodeToBytes message.messageWithMeta = some bytes) ∨
      (message.messageWithMeta.IsDelayed ∧ ∃ data,
        AnnouncedOnBridge config ((processMachine config chainID).observe verifierAction start
          labels) (u64Pred message.messageWithMeta.delayedMessagesRead) data ∧
        config.encodeToBytes (message.messageWithMeta.withL2msg data) = some bytes))

theorem passesAuthentic_of_passes {store : EspressoState} {file : StateFile}
    {finalizedBlock : Nat} {labels : List ProcessLabel} {process : NitroProcess} {pos : Nat}
    (run : (processMachine config chainID).Runs ProcessAdmits
      (.initial store file finalizedBlock) labels process)
    (passes : process.verifier.Passes config pos) :
    PassesAuthentic config chainID (.initial store file finalizedBlock) pos labels process := by
  obtain ⟨tick, feedMsg, held, phase, cached, peeked, located, bytes, encoded, compared⟩ := passes
  have sourced := sourced_of_runs (verifier_runs run)
  have found : .verifier (.found held.delivered) ∈ labels := by
    obtain ⟨_, label, inRun, seen⟩ := Machine.mem_of_mem_observe (sourced.found peeked)
    unfold verifierAction at seen
    split at seen <;> cases seen
    exact inRun
  refine ⟨held.delivered, feedMsg, bytes, found, located, feedMessage_read run cached, cached,
    encoded, ?_⟩
  rcases compared with own | ⟨delayed, data, fetched, same⟩
  · exact .inl own
  · have current : process.verifier.phase.tick? = some tick := by rw [phase]; rfl
    exact .inr ⟨delayed, data, sourced.fetched tick current (_, data) fetched, same⟩

/-- The position was passed in the run as `PassesAuthentic` says, or a finalized block that
was polled in it is at or above it. -/
def AuthenticallyCovered (config : NitroConfig) (chainID : Nat) (start : NitroProcess)
    (labels : List ProcessLabel) (pos : Nat) : Prop :=
  (processMachine config chainID).Since ProcessAdmits start
      (fun taken before label _ => label = .verifier .proceed ∧
        PassesAuthentic config chainID start pos taken before) (fun _ => True) labels ∨
    ∃ block, .verifier (.finalityPoll block) ∈ labels ∧ pos ≤ block

theorem AuthenticallyCovered.later {start : NitroProcess} {labels : List ProcessLabel}
    {pos : Nat} (covered : AuthenticallyCovered config chainID start labels pos)
    (label : ProcessLabel) : AuthenticallyCovered config chainID start (labels ++ [label]) pos := by
  rcases covered with passed | ⟨block, polled, below⟩
  · exact .inl (.later passed trivial)
  · exact .inr ⟨block, List.mem_append_left _ polled, below⟩

/-- In every run of the verifier with the reader of its feed and the delayed message fetcher,
in any interleaving and with any answers: each position above the one it started from that
the store or the streamer's cursor has left behind is at most a finalized block that was
polled, or was passed when a message of HotShot matched one of a verified feed, with the data
that the Bridge announced and confirmed if it is a delayed one. -/
theorem nitro_positions_authentic {store : EspressoState} {file : StateFile}
    {finalizedBlock : Nat} {labels : List ProcessLabel} {process : NitroProcess}
    (target : MovesToTarget config) (room : store.l2BlockNumber + 1 < 2 ^ 64)
    (run : (processMachine config chainID).Runs ProcessAdmits
      (.initial store file finalizedBlock) labels process)
    (pos : Nat) (above : store.l2BlockNumber < pos) (behind : process.verifier.Behind pos) :
    AuthenticallyCovered config chainID (.initial store file finalizedBlock) labels pos := by
  have forward : MovesForward config := fun cursor next => by
    rw [target]
    exact Nat.le_max_left _ _
  refine run.invariantAlong
    (P := fun labels process => process.verifier.Behind pos →
      AuthenticallyCovered config chainID (.initial store file finalizedBlock) labels pos)
    ?_ ?_ behind
  · intro behind
    exact absurd (behind_initial behind) (Nat.not_le.mpr above)
  · intro taken before label after prior inductionHypothesis admitted transition behind
    have safe := safeRun_of_runs forward room ((verifier_runs prior).weaken And.left)
    cases processStep_outcome transition with
    | feed => exact (inductionHypothesis behind).later _
    | verifier _ moved =>
        rcases safe.behind_step target (nitroStep_outcome moved) behind with
          earlier | ⟨rfl, passes⟩ | ⟨block, polled, below⟩
        · exact (inductionHypothesis earlier).later _
        · exact .inl (.now prior admitted transition
            ⟨rfl, passesAuthentic_of_passes prior passes⟩)
        · obtain ⟨_, other, inRun, seen⟩ :=
            Machine.mem_of_mem_observe (safe.polled block polled)
          unfold verifierAction at seen
          split at seen <;> cases seen
          exact .inr ⟨block, List.mem_append_left _ inRun, below⟩

/-- The sample tick, with a connection that its broadcast is read from. -/
def sampleProcessRun : List ProcessLabel :=
  sampleTick.flatMap fun label =>
    match label with
    | .broadcast broadcast =>
        [.feed .proceed, .feed (.dialed (some (some (sampleFeedHeader "0xa4b1")))),
          .feed .proceed, .feed .proceed, .feed (.read (some broadcast))]
    | label => [.verifier label]

/-- A store at 4 has moved to 6, which is a delayed message. -/
theorem nitro_positions_authentic_delayed :
    ∃ process, (processMachine sampleNitroConfig 42161).Runs ProcessAdmits
        (.initial ⟨4, 20, 1⟩ (.holding ⟨4, 20, 1⟩) 10)
        (sampleProcessRun ++ [.verifier (.finish 2 true)]) process ∧
      process.verifier.number = 6 ∧
      AuthenticallyCovered sampleNitroConfig 42161
        (.initial ⟨4, 20, 1⟩ (.holding ⟨4, 20, 1⟩) 10)
        (sampleProcessRun ++ [.verifier (.finish 2 true)]) 6 := by
  obtain ⟨process, computed, number⟩ : ∃ process,
      (processMachine sampleNitroConfig 42161).exec ProcessAdmits
        (.initial ⟨4, 20, 1⟩ (.holding ⟨4, 20, 1⟩) 10)
        (sampleProcessRun ++ [.verifier (.finish 2 true)]) = some process ∧
      process.verifier.number = 6 := ⟨_, rfl, rfl⟩
  have run := Machine.Runs.ofExec computed
  have target : MovesToTarget sampleNitroConfig := fun _ _ => rfl
  refine ⟨process, run, number, ?_⟩
  exact nitro_positions_authentic target (by simp) run 6 (by decide)
    (.inr (by rw [number]))

end EspressoProxy.Verifier.Nitro
