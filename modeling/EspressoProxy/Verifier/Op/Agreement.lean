import EspressoProxy.Verifier.Op.Safety

/-!
# Agreement of tip, store and streamer

The verifier moves three cursors in different places: the number in the store, the
tip hash, and the position of the streamer. `Agreement` relates them at every point
between two steps of a tick. The assumptions are those a chain of blocks gives: the
headers that occur are told apart by their hashes, none of them hashes to the unset
value, a block is numbered one above its parent, a snapshot names the hash of a
block with its number, and a refreshed streamer only peeks above the position it was
refreshed from.
-/

namespace EspressoProxy.Verifier.Op

open EspressoProxy.Ethereum EspressoProxy.Semantics EspressoProxy.Store

variable {codec : BlockCodec} {Known : Header → Prop}

/-- The headers that occur form a chain under their hashes. -/
structure KnownHeaders (codec : BlockCodec) (Known : Header → Prop) : Prop where
  injective : ∀ {first second}, Known first → Known second →
    codec.headerHash first = codec.headerHash second → first = second
  nonzero : ∀ {header}, Known header → codec.headerHash header ≠ 0
  number : ∀ {parent child}, Known parent → Known child →
    child.parentHash = codec.headerHash parent → child.number = parent.number + 1

/-- The environment that the agreement is about: snapshots name known blocks, peeked
batches are known and lie above the last refresh, and no tick is cut by
cancellation. Disk writes may fail. -/
def AdmitsChain (codec : BlockCodec) (Known : Header → Prop) (state : OpState) : Label → Prop
  | .refresh answers => ∀ snapshot, answers.snapshot = some snapshot →
      ∃ header, Known header ∧ codec.headerHash header = snapshot.finalizedL2Hash ∧
        header.number = snapshot.finalizedL2Number
  | .iterate answers => ∀ batch, answers.peek = some batch → Known batch.batchHeader ∧
      ∀ position, (refreshPositions state.calls).getLast? = some position →
        position < batch.number
  | .cancel => False
  | .finish _ _ _ => True

/-- The drain that a phase is in, if any. -/
def Phase.drain : Phase → Option Drain
  | .idle => none
  | .draining drain => some drain
  | .drained drain => some drain

/-- The facts about a drain in progress: the streamer stands at the store, the tip is
the last accepted batch, and on a known tip the accepted numbers are consecutive. -/
structure DrainAgreement (codec : BlockCodec) (Known : Header → Prop) (state : OpState)
    (drain : Drain) : Prop where
  refreshed : (refreshPositions state.calls).getLast? = some state.number
  untouched : drain.accepted = [] → state.verifier.tip = drain.startTip
  last : ∀ last, drain.accepted.getLast? = some last → Known last.batch.batchHeader ∧
    state.verifier.tip = codec.headerHash last.batch.batchHeader ∧
    state.number < last.batch.number
  chain : ∀ header, Known header → codec.headerHash header = drain.startTip →
    drain.accepted.map (·.batch.number) =
      List.range' (header.number + 1) drain.accepted.length

/-- The invariant. The tip is never behind the store, and level with it while nothing
has been accepted and no write has failed; refresh positions never decrease. -/
structure Agreement (codec : BlockCodec) (Known : Header → Prop) (state : OpState) : Prop where
  head : state.verifier.tip ≠ 0 → ∃ header, Known header ∧
    codec.headerHash header = state.verifier.tip ∧ state.number ≤ header.number
  level : state.phase.accepted = [] → state.writeFailed = false → ∀ header, Known header →
    codec.headerHash header = state.verifier.tip → header.number = state.number
  sorted : (refreshPositions state.calls).Pairwise (· ≤ ·)
  bounded : ∀ position ∈ refreshPositions state.calls, position ≤ state.number
  inDrain : ∀ drain, state.phase.drain = some drain → DrainAgreement codec Known state drain

@[simp] theorem refreshPositions_append_refresh (calls : List StreamerCall)
    (finalizedEth : L1BlockRef) (position : Nat) (ethOrigin : BlockID) :
    refreshPositions (calls ++ [.refresh finalizedEth position ethOrigin]) =
      refreshPositions calls ++ [position] := by
  simp [refreshPositions]

@[simp] theorem refreshPositions_append_next (calls : List StreamerCall) :
    refreshPositions (calls ++ [.next]) = refreshPositions calls := by
  simp [refreshPositions]

@[simp] theorem refreshPositions_append_setProperHead (calls : List StreamerCall) (tip : Hash) :
    refreshPositions (calls ++ [.setProperHead tip]) = refreshPositions calls := by
  simp [refreshPositions]

theorem agreement_initial (known : KnownHeaders codec Known) (store : EspressoState)
    (file : StateFile) : Agreement codec Known (.initial store file) where
  head := fun set => absurd rfl set
  level := by
    intro _ _ header isKnown unset
    exact absurd unset (known.nonzero isKnown)
  sorted := List.Pairwise.nil
  bounded := by
    intro position member
    cases member
  inDrain := by
    intro drain inPhase
    cases inPhase

/-- Appending a position that bounds the earlier ones keeps them sorted. -/
theorem sorted_append {positions : List Nat} {position : Nat}
    (sorted : positions.Pairwise (· ≤ ·)) (bounded : ∀ earlier ∈ positions, earlier ≤ position) :
    (positions ++ [position]).Pairwise (· ≤ ·) := by
  refine List.pairwise_append.mpr ⟨sorted, List.pairwise_singleton _ _, ?_⟩
  intro earlier member last lastMember
  rw [List.mem_singleton] at lastMember
  rw [lastMember]
  exact bounded earlier member

theorem bounded_append {positions : List Nat} {position : Nat}
    (bounded : ∀ earlier ∈ positions, earlier ≤ position) :
    ∀ earlier ∈ positions ++ [position], earlier ≤ position := by
  intro earlier member
  rcases List.mem_append.mp member with old | new
  · exact bounded earlier old
  · exact Nat.le_of_eq (List.mem_singleton.mp new)

/-- A drain that has just begun on the tip and the position of its state. -/
theorem drainAgreement_start {state : OpState}
    (refreshed : (refreshPositions state.calls).getLast? = some state.number) :
    DrainAgreement codec Known state ⟨state.verifier.tip, []⟩ where
  refreshed := refreshed
  untouched := fun _ => rfl
  last := by
    intro last found
    cases found
  chain := fun _ _ _ => rfl

/-- Control after a refresh: still idle, or at the start of a drain. -/
theorem inDrain_of_control {state : OpState}
    (refreshed : (refreshPositions state.calls).getLast? = some state.number)
    (control : state.phase = .idle ∨ state.phase = .draining ⟨state.verifier.tip, []⟩) :
    ∀ drain, state.phase.drain = some drain → DrainAgreement codec Known state drain := by
  intro drain inPhase
  rcases control with idle | begun
  · rw [idle] at inPhase
    cases inPhase
  · rw [begun] at inPhase
    cases inPhase
    exact drainAgreement_start refreshed

theorem Agreement.refresh {before after : OpState} {answers : RefreshAnswers}
    (agreement : Agreement codec Known before) (known : KnownHeaders codec Known)
    (idle : before.phase = .idle) (admitted : AdmitsChain codec Known before (.refresh answers))
    (outcome : RefreshOutcome before answers after) : Agreement codec Known after := by
  have nothingAccepted : before.phase.accepted = [] := by
    rw [idle]
    rfl
  cases outcome with
  | noSnapshot => exact agreement
  | writeFailed answered ahead =>
      refine ⟨agreement.head, ?_, agreement.sorted, agreement.bounded, ?_⟩
      · intro _ noFailure
        cases noFailure
      · intro drain inPhase
        rw [idle] at inPhase
        cases inPhase
  | @kept snapshot ethOrigin phase answered notAhead control =>
      rw [idle] at control
      refine ⟨agreement.head, ?_, ?_, ?_, ?_⟩
      · intro _ noFailure
        exact agreement.level nothingAccepted noFailure
      · rw [refreshPositions_append_refresh]
        exact sorted_append agreement.sorted agreement.bounded
      · rw [refreshPositions_append_refresh]
        exact bounded_append agreement.bounded
      · exact inDrain_of_control (by simp [OpState.number]) control
  | @advanced snapshot phase answered ahead control =>
      rw [idle] at control
      obtain ⟨header, isKnown, hashed, numbered⟩ := admitted snapshot answered
      have earlierBounded : ∀ position ∈ refreshPositions before.calls,
          position ≤ snapshot.finalizedL2Number := by
        intro position member
        exact Nat.le_trans (agreement.bounded position member) (Nat.le_of_lt ahead)
      refine ⟨?_, ?_, ?_, ?_, ?_⟩
      · intro _
        exact ⟨header, isKnown, hashed, Nat.le_of_eq numbered.symm⟩
      · intro _ _ other otherKnown otherHashed
        have same : other = header :=
          known.injective otherKnown isKnown (otherHashed.trans hashed.symm)
        rw [same]
        exact numbered
      · rw [refreshPositions_append_refresh]
        exact sorted_append agreement.sorted earlierBounded
      · rw [refreshPositions_append_refresh]
        exact bounded_append earlierBounded
      · exact inDrain_of_control (by simp [OpState.number]) control

/-- A batch that chains onto the tip continues the consecutive numbers. -/
theorem DrainAgreement.chain_append {before : OpState} {drain : Drain} {new : Accepted}
    (agreement : DrainAgreement codec Known before drain) (known : KnownHeaders codec Known)
    (newKnown : Known new.batch.batchHeader)
    (chained : before.verifier.tip ≠ 0 →
      new.batch.batchHeader.parentHash = before.verifier.tip)
    {header : Header} (headerKnown : Known header)
    (started : codec.headerHash header = drain.startTip) :
    (drain.accepted ++ [new]).map (·.batch.number) =
      List.range' (header.number + 1) (drain.accepted ++ [new]).length := by
  have numbers := agreement.chain header headerKnown started
  have next : new.batch.number = header.number + 1 + drain.accepted.length := by
    cases found : drain.accepted.getLast? with
    | none =>
        have nothing : drain.accepted = [] := List.getLast?_eq_none_iff.mp found
        have tipHashed : before.verifier.tip = codec.headerHash header :=
          (agreement.untouched nothing).trans started.symm
        have parent := chained (tipHashed ▸ known.nonzero headerKnown)
        have number := known.number headerKnown newKnown (parent.trans tipHashed)
        rw [nothing]
        exact number
    | some last =>
        obtain ⟨lastKnown, tipHashed, -⟩ := agreement.last last found
        have parent := chained (tipHashed ▸ known.nonzero lastKnown)
        have number := known.number lastKnown newKnown (parent.trans tipHashed)
        -- the last accepted number closes the range the chain describes
        have lastNumber : (drain.accepted.map (·.batch.number)).getLast? =
            some last.batch.number := by
          rw [List.getLast?_map, found]
          rfl
        rw [numbers, List.getLast?_range'] at lastNumber
        have nonempty : drain.accepted.length ≠ 0 := by
          intro zero
          rw [List.length_eq_zero_iff.mp zero] at found
          cases found
        simp only [nonempty, if_false, Option.some.injEq] at lastNumber
        simp only [EspressoBatch.number] at lastNumber number ⊢
        omega
  rw [List.map_append, numbers, List.length_append, List.length_singleton,
    List.range'_1_concat, List.map_singleton, next]

theorem Agreement.iterate {before after : OpState} {drain : Drain} {answers : IterationAnswers}
    (agreement : Agreement codec Known before) (known : KnownHeaders codec Known)
    (draining : before.phase = .draining drain)
    (admitted : AdmitsChain codec Known before (.iterate answers))
    (outcome : DrainOutcome codec before drain answers after) : Agreement codec Known after := by
  have inDrain : DrainAgreement codec Known before drain :=
    agreement.inDrain drain (by rw [draining]; rfl)
  cases outcome with
  | @stopped calls rejected noPop =>
      have samePositions : refreshPositions (before.calls ++ calls) =
          refreshPositions before.calls := by
        rcases noPop with rfl | rfl <;> simp
      refine ⟨agreement.head, ?_, ?_, ?_, ?_⟩
      · intro nothing
        apply agreement.level
        rw [draining]
        exact nothing
      · rw [samePositions]
        exact agreement.sorted
      · rw [samePositions]
        exact agreement.bounded
      · intro other inPhase
        cases inPhase
        exact ⟨samePositions ▸ inDrain.refreshed, inDrain.untouched, inDrain.last, inDrain.chain⟩
  | @accepted batch verified =>
      obtain ⟨peeked, -, chained⟩ := verifyNextBatch_some verified
      obtain ⟨batchKnown, above⟩ := admitted batch peeked
      have greater : before.number < batch.number := above _ inDrain.refreshed
      refine ⟨?_, ?_, ?_, ?_, ?_⟩
      · intro _
        exact ⟨batch.batchHeader, batchKnown, rfl, Nat.le_of_lt greater⟩
      · intro nothing
        simp [Phase.accepted] at nothing
      · rw [refreshPositions_append_next]
        exact agreement.sorted
      · rw [refreshPositions_append_next]
        exact agreement.bounded
      · intro other inPhase
        cases inPhase
        refine ⟨?_, ?_, ?_, ?_⟩
        · rw [refreshPositions_append_next]
          exact inDrain.refreshed
        · intro nothing
          simp at nothing
        · intro last found
          rw [List.getLast?_concat] at found
          cases found
          exact ⟨batchKnown, rfl, greater⟩
        · intro header headerKnown started
          exact inDrain.chain_append known batchKnown chained headerKnown started

theorem Agreement.finish {before after : OpState} {drain : Drain}
    (agreement : Agreement codec Known before) (known : KnownHeaders codec Known)
    (drained : before.phase = .drained drain) (outcome : FinishOutcome before drain after) :
    Agreement codec Known after := by
  have inDrain : DrainAgreement codec Known before drain :=
    agreement.inDrain drain (by rw [drained]; rfl)
  have idleDrain : ∀ state : OpState, state.phase = .idle →
      ∀ other, state.phase.drain = some other → DrainAgreement codec Known state other := by
    intro state idle other inPhase
    rw [idle] at inPhase
    cases inPhase
  cases outcome with
  | unchanged notGreater =>
      have nothing : drain.accepted = [] := by
        cases found : drain.accepted.getLast? with
        | none => exact List.getLast?_eq_none_iff.mp found
        | some last =>
            have greater := (inDrain.last last found).2.2
            have le := notGreater last found
            omega
      refine ⟨agreement.head, ?_, agreement.sorted, agreement.bounded, idleDrain _ rfl⟩
      intro _
      apply agreement.level
      rw [drained]
      exact nothing
  | writeFailed found greater =>
      refine ⟨agreement.head, ?_, agreement.sorted, agreement.bounded, idleDrain _ rfl⟩
      intro _ noFailure
      cases noFailure
  | @stored last store found greater number =>
      obtain ⟨lastKnown, tipHashed, -⟩ := inDrain.last last found
      refine ⟨?_, ?_, agreement.sorted, ?_, idleDrain _ rfl⟩
      · intro _
        exact ⟨_, lastKnown, tipHashed.symm, Nat.le_of_eq number⟩
      · intro _ _ header headerKnown hashed
        have same := known.injective headerKnown lastKnown (hashed.trans tipHashed)
        rw [same]
        exact number.symm
      · intro position member
        have earlier := agreement.bounded position member
        have stored : before.number < store.l2BlockNumber := number ▸ greater
        exact Nat.le_trans earlier (Nat.le_of_lt stored)

theorem Agreement.step {before after : OpState} {label : Label}
    (agreement : Agreement codec Known before) (known : KnownHeaders codec Known)
    (admitted : AdmitsChain codec Known before label)
    (transition : before.step codec label = some after) : Agreement codec Known after := by
  cases step_outcome transition with
  | refresh idle outcome => exact agreement.refresh known idle admitted outcome
  | iterate draining outcome => exact agreement.iterate known draining admitted outcome
  | cancel => exact absurd admitted id
  | finish drained outcome => exact agreement.finish known drained outcome

theorem agreement_of_runs (known : KnownHeaders codec Known) (store : EspressoState)
    (file : StateFile) {labels : List Label} {state : OpState}
    (run : (opMachine codec).Runs (AdmitsChain codec Known) (.initial store file) labels state) :
    Agreement codec Known state :=
  run.invariant (agreement_initial known store file) fun agreement admitted transition =>
    agreement.step known admitted transition

/-- Where the drain started on the block of the store, every number up to its last
batch was accepted on its own. -/
theorem DrainAgreement.exists_accepted {state : OpState} {drain : Drain} {last : Accepted}
    (agreement : DrainAgreement codec Known state drain)
    (found : drain.accepted.getLast? = some last) {header : Header} (headerKnown : Known header)
    (started : codec.headerHash header = drain.startTip) {number : Nat}
    (above : header.number < number) (upTo : number ≤ last.batch.number) :
    ∃ accepted ∈ drain.accepted, accepted.batch.number = number := by
  have numbers := agreement.chain header headerKnown started
  have lastNumber : last.batch.number ∈ drain.accepted.map (·.batch.number) :=
    List.mem_map.mpr ⟨last, List.mem_of_getLast? found, rfl⟩
  rw [numbers, List.mem_range'_1] at lastNumber
  have member : number ∈ drain.accepted.map (·.batch.number) := by
    rw [numbers, List.mem_range'_1]
    omega
  exact List.mem_map.mp member

/-- Every refresh passes the number that the store holds at that moment. -/
theorem step_refresh_position {before after : OpState} {label : Label}
    (transition : before.step codec label = some after) {finalizedEth : L1BlockRef}
    {position : Nat} {ethOrigin : BlockID}
    (called : after.calls = before.calls ++ [.refresh finalizedEth position ethOrigin]) :
    position = after.number := by
  have positions : refreshPositions after.calls = refreshPositions before.calls ++ [position] := by
    rw [called, refreshPositions_append_refresh]
  cases step_outcome transition with
  | refresh idle outcome =>
      cases outcome with
      | noSnapshot | writeFailed => simp at positions
      | kept | advanced =>
          rw [refreshPositions_append_refresh] at positions
          have same := List.append_cancel_left positions
          exact (List.singleton_inj.mp same).symm
  | iterate draining outcome =>
      cases outcome with
      | stopped _ noPop => rcases noPop with rfl | rfl <;> simp at positions
      | accepted => simp at positions
  | cancel => simp at positions
  | finish drained outcome =>
      cases outcome with
      | unchanged | writeFailed | stored => simp at positions

/-- Head/store agreement. In every run that is not cut by cancellation, failed writes
included: a set tip is the hash of a block not behind the store, and level with it
between ticks unless a write has failed since the last successful one; the streamer
is refreshed from the number in the store, which never decreases; and when a drain
that started on the block of the store ends in an update, every number in between was
verified in that drain. The store does not change during a drain, so its number when
the drain ends is the one when it started. -/
theorem op_head_store_agreement (known : KnownHeaders codec Known) (store : EspressoState)
    (file : StateFile) {labels : List Label} {state : OpState}
    (run : (opMachine codec).Runs (AdmitsChain codec Known) (.initial store file)
      labels state) :
    (state.verifier.tip ≠ 0 → ∃ header, Known header ∧
      codec.headerHash header = state.verifier.tip ∧ state.number ≤ header.number ∧
      (state.phase = .idle → state.writeFailed = false → header.number = state.number)) ∧
    (refreshPositions state.calls).Pairwise (· ≤ ·) ∧
    ∀ label after, AdmitsChain codec Known state label →
      (opMachine codec).step state label = some after →
      (∀ finalizedEth position ethOrigin,
        after.calls = state.calls ++ [.refresh finalizedEth position ethOrigin] →
        position = after.number) ∧
      (∀ drain header, state.phase = .drained drain → drain.startTip ≠ 0 → Known header →
        codec.headerHash header = drain.startTip → header.number = state.number →
        after.number ≠ state.number → ∀ number, state.number < number →
        number ≤ after.number → ∃ accepted ∈ drain.accepted,
          accepted.batch.number = number ∧ accepted.Verified codec) := by
  have agreement := agreement_of_runs known store file run
  refine ⟨?_, agreement.sorted, ?_⟩
  · intro set
    obtain ⟨header, isKnown, hashed, notBehind⟩ := agreement.head set
    refine ⟨header, isKnown, hashed, notBehind, ?_⟩
    intro idle noFailure
    exact agreement.level (by rw [idle]; rfl) noFailure header isKnown hashed
  · intro label after _ transition
    refine ⟨?_, ?_⟩
    · intro finalizedEth position ethOrigin called
      exact step_refresh_position transition called
    · intro drain header drained _ headerKnown started onStore changed number above upTo
      have inDrain := agreement.inDrain drain (by rw [drained]; rfl)
      rcases step_number_changed transition changed with
        ⟨-, ⟨answers, snapshot, rfl, -⟩ | ⟨other, last, otherDrained, found, moved⟩⟩
      · -- a refresh is not enabled while a drain is waiting for its update
        simp [opMachine, OpState.step, drained] at transition
      · have same : drain = other := by
          rw [drained] at otherDrained
          exact Phase.drained.inj otherDrained
        subst same
        obtain ⟨accepted, member, numbered⟩ := inDrain.exists_accepted found headerKnown started
          (onStore ▸ above) (moved ▸ upTo)
        have verified := acceptedVerified_of_reaches rfl run.reaches accepted
        rw [drained] at verified
        exact ⟨accepted, member, numbered, verified member⟩

/-- The headers of the first hundred sample blocks. -/
def SampleKnown (header : Header) : Prop := ∃ number < 100, header = (sampleBlock number).header

theorem sampleKnown : KnownHeaders sampleCodec SampleKnown where
  injective := by
    rintro _ _ ⟨first, firstBound, rfl⟩ ⟨second, secondBound, rfl⟩ equal
    have same := congrArg BitVec.toNat equal
    simp only [sampleCodec, sampleBlock, BitVec.toNat_ofNat] at same
    have number : first = second := by omega
    rw [number]
  nonzero := by
    rintro _ ⟨number, bound, rfl⟩ zero
    have same := congrArg BitVec.toNat zero
    simp only [sampleCodec, sampleBlock, BitVec.toNat_ofNat, BitVec.ofNat_eq_ofNat] at same
    omega
  number := by
    rintro _ _ ⟨parent, parentBound, rfl⟩ ⟨child, childBound, rfl⟩ chained
    have same := congrArg BitVec.toNat chained
    simp only [sampleCodec, sampleBlock, BitVec.toNat_ofNat] at same ⊢
    omega

theorem sampleIteration_admitted {state : OpState} (number position : Nat) (bound : number < 100)
    (refreshed : (refreshPositions state.calls).getLast? = some position)
    (above : position < number) :
    AdmitsChain sampleCodec SampleKnown state
      (.iterate (sampleIteration (some (sampleBatch number)))) := by
  intro batch peeked
  cases peeked
  refine ⟨⟨number, bound, rfl⟩, ?_⟩
  intro other same
  rw [refreshed] at same
  cases same
  exact above

theorem sampleIteration_none_admitted (state : OpState) :
    AdmitsChain sampleCodec SampleKnown state (.iterate (sampleIteration none)) := by
  intro batch peeked
  cases peeked

/-- A tick that fast-forwards a store at 4 to block 6 and then verifies the blocks 7
and 8: each of the two was accepted in the drain. -/
theorem op_head_store_agreement_after_fast_forward :
    ∃ labels state after drain,
      (opMachine sampleCodec).Runs (AdmitsChain sampleCodec SampleKnown)
        (.initial ⟨4, 9, 1⟩ (.holding ⟨4, 9, 1⟩)) labels state ∧
      (opMachine sampleCodec).step state (.finish 12 2 true) = some after ∧
      state.phase = .drained drain ∧ state.number = 6 ∧ after.number = 8 ∧
      ∀ number, 6 < number → number ≤ 8 → ∃ accepted ∈ drain.accepted,
        accepted.batch.number = number ∧ accepted.Verified sampleCodec := by
  have admitted : AdmitsChain sampleCodec SampleKnown (.initial ⟨4, 9, 1⟩ (.holding ⟨4, 9, 1⟩))
      (.refresh (sampleRefresh 6)) := by
    intro snapshot answered
    cases answered
    exact ⟨_, ⟨6, by decide, rfl⟩, rfl, rfl⟩
  have refreshed : (opMachine sampleCodec).Runs (AdmitsChain sampleCodec SampleKnown)
      (.initial ⟨4, 9, 1⟩ (.holding ⟨4, 9, 1⟩)) _ _ := .step .refl admitted rfl
  have seventh := refreshed.step
    (sampleIteration_admitted 7 6 (by decide) rfl (by decide)) rfl
  have eighth := seventh.step
    (sampleIteration_admitted 8 6 (by decide) rfl (by decide)) rfl
  have run := eighth.step (sampleIteration_none_admitted _) rfl
  refine ⟨_, _, _, _, run, rfl, rfl, rfl, rfl, ?_⟩
  exact ((op_head_store_agreement sampleKnown _ _ run).2.2 (.finish 12 2 true) _ trivial rfl).2
    _ (sampleBlock 6).header rfl (by decide) ⟨6, by decide, rfl⟩ rfl rfl (by decide)

end EspressoProxy.Verifier.Op
