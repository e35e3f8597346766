import EspressoProxy.Verifier.Op.L1Origin
import EspressoProxy.Verifier.Op.Safety

/-!
# The heads of the OP verifier form a hash chain

The tip is set at two places, by an accepted batch and by a fast-forward to a finalized
block. A batch has to build on the tip, unless there is none: the unset hash switches the
check off. It is switched off only until the first head. `fetchFinalitySnapshot` rejects
unset hashes, so a fast-forward never resets the tip. Hence whatever the streamer and the
full node answer, every accepted batch builds on the head before it.
-/

namespace EspressoProxy.Verifier.Op

open EspressoProxy.Ethereum EspressoProxy.Semantics EspressoProxy.Store

/-! ### The snapshots -/

/-- A header of an L1 block: the fields the verifier reads, and all others as one value. -/
structure L1Header where
  number : Nat
  parentHash : Hash
  time : Nat
  rest : Bytes
deriving DecidableEq, Repr

/-- What `fetchFinalitySnapshot` gets from the L2 execution node and the L1 RPC. -/
structure SnapshotAnswers where
  l2Block : Except String (Option Block)
  l1Header : Except String (Option L1Header)

inductive SnapshotError where
  | l2Block (text : String)
  | l2BlockNotFound
  | l1Origin (cause : L1OriginError)
  | l1Header (text : String)
  | l1HeaderNotFound
  | incomplete (l1Hash l2Hash : Hash)
deriving DecidableEq, Repr

-- The hash of an L1 header, and the selectors that `l1OriginFromL2Block` knows.
variable (l1Hash : L1Header → Hash) (selector : L1InfoFork → SizedBytes functionSelectorLength)
  (codec : BlockCodec)

/-- The origin of a finalized block. The genesis block has no deposit to read it from. -/
def finalizedOrigin (block : Block) : Option (Except L1OriginError BlockID) :=
  if block.header.number ≠ 0 then l1OriginFromL2Block selector block else some (.ok .unset)

/-- `fetchFinalitySnapshot`. The outcome `none` is that of `l1OriginFromL2Block`. -/
def fetchFinalitySnapshot (answers : SnapshotAnswers) :
    Option (Except SnapshotError OpFinalitySnapshot) :=
  match answers.l2Block with
  | .error text => some (.error (.l2Block text))
  | .ok none => some (.error .l2BlockNotFound)
  | .ok (some l2Block) =>
      (finalizedOrigin selector l2Block).map fun derived =>
        match derived with
        | .error cause => .error (.l1Origin cause)
        | .ok ethOrigin =>
            match answers.l1Header with
            | .error text => .error (.l1Header text)
            | .ok none => .error .l1HeaderNotFound
            | .ok (some l1Header) =>
                let finalizedEth : L1BlockRef :=
                  ⟨l1Hash l1Header, l1Header.number, l1Header.parentHash, l1Header.time⟩
                if finalizedEth.hash = 0 ∨ codec.headerHash l2Block.header = 0 then
                  .error (.incomplete finalizedEth.hash (codec.headerHash l2Block.header))
                else
                  .ok ⟨l2Block.header.number, codec.headerHash l2Block.header, ethOrigin,
                    finalizedEth⟩

variable {l1Hash selector codec}

/-- A snapshot is that of one L2 block and one L1 header, both with a hash. -/
theorem fetchFinalitySnapshot_ok {answers : SnapshotAnswers} {snapshot : OpFinalitySnapshot}
    (fetched : fetchFinalitySnapshot l1Hash selector codec answers = some (.ok snapshot)) :
    ∃ l2Block l1Header, answers.l2Block = .ok (some l2Block) ∧
      answers.l1Header = .ok (some l1Header) ∧
      finalizedOrigin selector l2Block = some (.ok snapshot.finalizedEthOrigin) ∧
      snapshot.finalizedL2Number = l2Block.header.number ∧
      snapshot.finalizedL2Hash = codec.headerHash l2Block.header ∧
      snapshot.finalizedEth.hash = l1Hash l1Header ∧
      snapshot.finalizedL2Hash ≠ 0 ∧ snapshot.finalizedEth.hash ≠ 0 := by
  unfold fetchFinalitySnapshot at fetched
  split at fetched
  · cases fetched
  · cases fetched
  · rename_i l2Block answered
    obtain ⟨derived, origin, result⟩ := Option.map_eq_some_iff.mp fetched
    split at result
    · cases result
    · split at result
      · cases result
      · cases result
      · rename_i l1Header found
        simp only at result
        split at result
        · cases result
        · rename_i complete
          cases result
          obtain ⟨l1Set, l2Set⟩ := not_or.mp complete
          exact ⟨l2Block, l1Header, answered, found, origin, rfl, rfl, rfl, l2Set, l1Set⟩

/-! ### The heads -/

/-- What the tip was set to: the block of an accepted batch or a finalized block. -/
inductive Head where
  | accepted (batch : EspressoBatch)
  | finalized (snapshot : OpFinalitySnapshot)
deriving DecidableEq, Repr

def Head.hash (codec : BlockCodec) : Head → Hash
  | .accepted batch => codec.headerHash batch.batchHeader
  | .finalized snapshot => snapshot.finalizedL2Hash

def Head.origin : Head → BlockID
  | .accepted batch => batch.l1Origin
  | .finalized snapshot => snapshot.finalizedEthOrigin

/-- An accepted batch builds on the head before it. A finalized block may be any. -/
def Head.Follows (codec : BlockCodec) (previous : Head) : Head → Prop
  | .accepted batch => batch.batchHeader.parentHash = previous.hash codec
  | .finalized _ => True

/-- The head that a step sets, if any. -/
def headSet (codec : BlockCodec) (state : OpState) : Label → Option Head
  | .refresh answers =>
      answers.snapshot.bind fun snapshot =>
        if state.number < snapshot.finalizedL2Number ∧ answers.written then
          some (.finalized snapshot)
        else none
  | .iterate answers =>
      match verifyNextBatch codec state.verifier.tip answers with
      | .ok (some batch) => some (.accepted batch)
      | _ => none
  | .cancel | .finish _ _ _ => none

/-- The heads of a run, in order. -/
def heads (codec : BlockCodec) (start : OpState) (labels : List Label) : List Head :=
  (opMachine codec).observe (headSet codec) start labels

/-- The origin is that of the head. One that is unset may have been replaced by that of a
snapshot. -/
def OriginOf (head : Head) (ethOrigin : BlockID) : Prop :=
  ethOrigin = head.origin ∨ head.origin = .unset

/-- A refresh sets the tip and the origin to those of the snapshot that is its head, or keeps
the tip. -/
theorem headSet_refresh (before : OpState) (answers : RefreshAnswers) :
    (∃ snapshot, answers.snapshot = some snapshot ∧
      headSet codec before (.refresh answers) = some (.finalized snapshot) ∧
      (refreshStep before answers).verifier.tip = snapshot.finalizedL2Hash ∧
      (refreshStep before answers).verifier.ethOrigin = snapshot.finalizedEthOrigin) ∨
    headSet codec before (.refresh answers) = none ∧
      (refreshStep before answers).verifier.tip = before.verifier.tip ∧
      ∀ head, OriginOf head before.verifier.ethOrigin →
        OriginOf head (refreshStep before answers).verifier.ethOrigin := by
  cases answered : answers.snapshot with
  | none =>
      have unchanged : refreshStep before answers = before := by
        simp [refreshStep, refresh, answered]
      rw [unchanged]
      exact .inr ⟨by simp [headSet, answered], rfl, fun _ => id⟩
  | some snapshot =>
      rcases syncEspressoStateWithEthereumFinality_cases before.verifier snapshot answers with
        ⟨notAhead, synced⟩ | ⟨ahead, failed, synced⟩ | ⟨ahead, succeeded, synced⟩
      · have kept : (refreshStep before answers).verifier = { before.verifier with
            ethOrigin := if before.verifier.ethOrigin = .unset then
              snapshot.finalizedEthOrigin else before.verifier.ethOrigin } := by
          cases refreshed : answers.refreshed with
          | error => simp [refreshStep, refresh, answered, synced, refreshed]
          | ok => simp [refreshStep, refresh, answered, synced, refreshed]
        rw [kept]
        refine .inr ⟨?_, rfl, fun head origin => ?_⟩
        · simp [headSet, answered, OpState.number, Nat.not_lt.mpr notAhead]
        · simp only
          split
          · rename_i unset
            rcases origin with same | free
            · exact .inr (same ▸ unset)
            · exact .inr free
          · exact origin
      · have unchanged : (refreshStep before answers).verifier = before.verifier := by
          simp [refreshStep, refresh, answered, synced]
        rw [unchanged]
        exact .inr ⟨by simp [headSet, answered, failed], rfl, fun _ => id⟩
      · refine .inl ⟨snapshot, rfl, ?_, ?_⟩
        · simp [headSet, answered, OpState.number, ahead, succeeded]
        · cases refreshed : answers.refreshed with
          | error => simp [refreshStep, refresh, answered, synced, refreshed]
          | ok => simp [refreshStep, refresh, answered, synced, refreshed]

/-- Snapshots come from `fetchFinalitySnapshot`, and no peeked header has the unset hash. -/
def HashesSet (l1Hash : L1Header → Hash)
    (selector : L1InfoFork → SizedBytes functionSelectorLength) (codec : BlockCodec)
    (_ : OpState) : Label → Prop
  | .refresh answers => ∀ snapshot, answers.snapshot = some snapshot →
      ∃ fetch, fetchFinalitySnapshot l1Hash selector codec fetch = some (.ok snapshot)
  | .iterate answers => ∀ batch, answers.peek = some batch →
      codec.headerHash batch.batchHeader ≠ 0
  | .cancel | .finish _ _ _ => True

/-- What a step does to the tip: it keeps it, or it sets it to the hash of a head that builds
on it. -/
theorem head_step {before after : OpState} {label : Label}
    (admitted : HashesSet l1Hash selector codec before label)
    (transition : before.step codec label = some after) :
    (∃ head, headSet codec before label = some head ∧ head.hash codec ≠ 0 ∧
      after.verifier.tip = head.hash codec ∧ after.verifier.ethOrigin = head.origin ∧
      ∀ previous : Head, before.verifier.tip = previous.hash codec →
        before.verifier.tip ≠ 0 → previous.Follows codec head) ∨
    headSet codec before label = none ∧ after.verifier.tip = before.verifier.tip ∧
      ∀ head, OriginOf head before.verifier.ethOrigin →
        OriginOf head after.verifier.ethOrigin := by
  cases label with
  | refresh answers =>
      have step : after = refreshStep before answers := by
        cases phase : before.phase <;> simp [OpState.step, phase] at transition
        exact transition.symm
      rw [step]
      rcases headSet_refresh before answers with ⟨snapshot, answered, set, tip, origin⟩ | kept
      · obtain ⟨fetch, fetched⟩ := admitted snapshot answered
        obtain ⟨-, -, -, -, -, -, -, -, nonzero, -⟩ := fetchFinalitySnapshot_ok fetched
        exact .inl ⟨_, set, nonzero, tip, origin, fun _ _ _ => trivial⟩
      · exact .inr kept
  | iterate answers =>
      cases step_outcome transition with
      | iterate draining outcome =>
          cases outcome with
          | stopped rejected =>
              exact .inr ⟨by simp only [headSet], rfl, fun _ => id⟩
          | @accepted batch verified =>
              obtain ⟨peeked, -, chained⟩ := verifyNextBatch_some verified
              refine .inl ⟨.accepted batch, by simp only [headSet, verified], admitted batch peeked,
                rfl, rfl, fun previous same set => ?_⟩
              exact (chained set).trans same
  | cancel =>
      cases step_outcome transition with
      | cancel => exact .inr ⟨rfl, rfl, fun _ => id⟩
  | finish =>
      cases step_outcome transition with
      | finish _ outcome =>
          cases outcome with
          | unchanged | writeFailed | stored => exact .inr ⟨rfl, rfl, fun _ => id⟩

/-- The heads so far form a chain that ends in the tip. -/
structure HeadsChained (codec : BlockCodec) (heads : List Head) (state : OpState) : Prop where
  chain : heads.IsChain (Head.Follows codec)
  unset : state.verifier.tip = 0 ↔ heads = []
  last : ∀ head, heads.getLast? = some head →
    state.verifier.tip = head.hash codec ∧ OriginOf head state.verifier.ethOrigin

theorem headsChained_of_runs {store : EspressoState} {file : StateFile}
    {labels : List Label} {state : OpState}
    (run : (opMachine codec).Runs (HashesSet l1Hash selector codec) (.initial store file) labels
      state) : HeadsChained codec (heads codec (.initial store file) labels) state := by
  refine run.invariantAlong
    (P := fun labels state => HeadsChained codec (heads codec (.initial store file) labels) state)
    ⟨List.isChain_nil, ⟨fun _ => rfl, fun _ => rfl⟩, by rintro head ⟨⟩⟩ ?_
  intro taken before label after prior chained admitted transition
  have extended : heads codec (.initial store file) (taken ++ [label]) =
      heads codec (.initial store file) taken ++ (headSet codec before label).toList :=
    prior.observe_next _ transition
  rw [extended]
  rcases head_step admitted transition with
    ⟨head, set, nonzero, tip, origin, follows⟩ | ⟨none, tip, origin⟩
  · rw [set, Option.toList_some]
    refine ⟨?_, ?_, ?_⟩
    · refine List.isChain_append.mpr ⟨chained.chain, List.isChain_singleton _, ?_⟩
      intro previous found next isNext
      obtain rfl : head = next := by simpa using isNext
      obtain ⟨same, -⟩ := chained.last previous found
      refine follows previous same fun zero => ?_
      rw [chained.unset.mp zero] at found
      cases found
    · refine ⟨fun zero => absurd (tip.symm.trans zero) nonzero, fun empty => ?_⟩
      simp at empty
    · intro last found
      rw [List.getLast?_concat] at found
      cases found
      exact ⟨tip, .inl origin⟩
  · rw [none, Option.toList_none, List.append_nil]
    refine ⟨chained.chain, tip ▸ chained.unset, fun head found => ?_⟩
    obtain ⟨same, kept⟩ := chained.last head found
    exact ⟨tip.trans same, origin head kept⟩

/-- What the streamer is told: `Refresh` gets the origin that the verifier then has, and
`SetProperHead` the tip. -/
theorem step_call {before after : OpState} {label : Label} {call : StreamerCall}
    (transition : before.step codec label = some after)
    (called : after.calls = before.calls ++ [call]) :
    (∀ finalizedEth position ethOrigin, call = .refresh finalizedEth position ethOrigin →
      ethOrigin = after.verifier.ethOrigin) ∧
    ∀ tip, call = .setProperHead tip → tip = after.verifier.tip := by
  cases step_outcome transition with
  | refresh idle outcome =>
      cases outcome with
      | noSnapshot | writeFailed => simp at called
      | kept | advanced =>
          obtain rfl := List.singleton_inj.mp (List.append_cancel_left called)
          exact ⟨by rintro _ _ _ ⟨⟩; rfl, by rintro _ ⟨⟩⟩
  | iterate draining outcome =>
      cases outcome with
      | stopped _ noPop =>
          rcases noPop with rfl | rfl
          · simp at called
          · obtain rfl := List.singleton_inj.mp (List.append_cancel_left called)
            exact ⟨by rintro _ _ _ ⟨⟩, by rintro _ ⟨⟩; rfl⟩
      | accepted =>
          obtain rfl := List.singleton_inj.mp (List.append_cancel_left called)
          exact ⟨by rintro _ _ _ ⟨⟩, by rintro _ ⟨⟩⟩
  | cancel => simp at called
  | finish drained outcome =>
      cases outcome with
      | unchanged | writeFailed | stored => simp at called

/-- In every run of the OP verifier, whatever the streamer, the full node and the disk
answer, with cancelled ticks: each accepted batch builds on the block that was the head
before it, from the first head on; a head stays set; and with every step, `Refresh` is given
the origin of the last head, unless that one has none, and `SetProperHead` its hash. -/
theorem op_heads_form_hash_chain {store : EspressoState} {file : StateFile}
    {labels : List Label} {state : OpState}
    (run : (opMachine codec).Runs (HashesSet l1Hash selector codec) (.initial store file) labels
      state) :
    HeadsChained codec (heads codec (.initial store file) labels) state ∧
    ∀ label after call, HashesSet l1Hash selector codec state label →
      (opMachine codec).step state label = some after → after.calls = state.calls ++ [call] →
      ∀ head, (heads codec (.initial store file) (labels ++ [label])).getLast? = some head →
        (∀ finalizedEth position ethOrigin, call = .refresh finalizedEth position ethOrigin →
          OriginOf head ethOrigin) ∧
        ∀ tip, call = .setProperHead tip → tip = head.hash codec := by
  refine ⟨headsChained_of_runs run, ?_⟩
  intro label after call admitted transition called head found
  obtain ⟨tip, origin⟩ :=
    (headsChained_of_runs (run.next label admitted transition)).last head found
  obtain ⟨refreshed, sought⟩ := step_call transition called
  exact ⟨fun finalizedEth position ethOrigin isRefresh =>
      refreshed finalizedEth position ethOrigin isRefresh ▸ origin,
    fun proper isSeek => (sought proper isSeek).trans tip⟩

def sampleL1Hash (header : L1Header) : Hash := BitVec.ofNat 256 (header.number + 1)

/-- The snapshot of block 123, whose origin is read from its calldata. -/
def sampleSnapshot : OpFinalitySnapshot :=
  ⟨123, BitVec.ofNat 256 124, ⟨0xaabbccdd, 2000⟩, ⟨BitVec.ofNat 256 2101, 2100, 0, 9⟩⟩

theorem fetchFinalitySnapshot_sample :
    fetchFinalitySnapshot sampleL1Hash sampleSelector sampleCodec
      ⟨.ok (some sampleL1InfoBlock), .ok (some ⟨2100, 0, 9, []⟩)⟩ =
        some (.ok sampleSnapshot) := by
  have head : sampleL1InfoBlock.transactions.head? = some ⟨depositTxType,
      bedrockCalldata sampleSelector ⟨0xaabbccdd, 2000⟩ sampleBedrockFields, []⟩ := rfl
  obtain ⟨info, same⟩ := L1InfoCalldata.hasL1Info head rfl (by decide)
    (.bedrock sampleBedrockFields)
  have origin : finalizedOrigin sampleSelector sampleL1InfoBlock =
      some (.ok ⟨0xaabbccdd, 2000⟩) := by
    rw [finalizedOrigin, if_pos (by decide), l1OriginFromL2Block_of_hasL1Info info, same]
  simp only [fetchFinalitySnapshot, origin]
  rfl

/-- A fast-forward to block 123 and two batches on top of it: three heads. -/
theorem op_heads_form_hash_chain_after_finality :
    ∃ state, (opMachine sampleCodec).Runs (HashesSet sampleL1Hash sampleSelector sampleCodec)
        (.initial ⟨4, 9, 1⟩ (.holding ⟨4, 9, 1⟩))
        [.refresh { sampleRefresh 123 with snapshot := some sampleSnapshot },
          .iterate (sampleIteration (some (sampleBatch 124))),
          .iterate (sampleIteration (some (sampleBatch 125)))] state ∧
      state.verifier.tip = BitVec.ofNat 256 126 ∧
      HeadsChained sampleCodec
        [.finalized sampleSnapshot, .accepted (sampleBatch 124), .accepted (sampleBatch 125)]
        state := by
  have snapshots : HashesSet sampleL1Hash sampleSelector sampleCodec
      (.initial ⟨4, 9, 1⟩ (.holding ⟨4, 9, 1⟩))
      (.refresh { sampleRefresh 123 with snapshot := some sampleSnapshot }) := by
    rintro snapshot ⟨⟩
    exact ⟨_, fetchFinalitySnapshot_sample⟩
  have batches (state : OpState) (number : Nat) (small : number < 200) :
      HashesSet sampleL1Hash sampleSelector sampleCodec state
        (.iterate (sampleIteration (some (sampleBatch number)))) := by
    rintro batch ⟨⟩ zero
    have := congrArg BitVec.toNat zero
    simp [sampleCodec, sampleBatch, sampleBlock] at this
    omega
  have finalized : (opMachine sampleCodec).Runs _ _ _ _ := Machine.Runs.refl.next _ snapshots rfl
  have run := (finalized.next _ (batches _ 124 (by decide)) rfl).next _
    (batches _ 125 (by decide)) rfl
  exact ⟨_, run, rfl, (op_heads_form_hash_chain run).1⟩

end EspressoProxy.Verifier.Op
