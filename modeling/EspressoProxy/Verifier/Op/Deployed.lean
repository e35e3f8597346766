import EspressoProxy.Proxy.Deployment
import EspressoProxy.Verifier.Op.Agreement

/-!
# A deployed OP proxy serves verified blocks only

The tip is not stored: each process starts without one, and its first batch need not build
on anything. If that batch is the one after the number in the store, the hash chain does the
rest. Every block up to a number that a client is given was then compared with the block of
the full node by some process, is finalized on Ethereum, or was in the file to begin with.
After a failed write or a cancelled tick the tip is ahead of the store, and the blocks
between are those that were compared before.
-/

namespace EspressoProxy.Verifier.Op

open EspressoProxy.Ethereum EspressoProxy.Proxy EspressoProxy.Semantics EspressoProxy.Store

variable {codec : BlockCodec} {Known : Header → Prop}

/-! ### One process -/

/-- Snapshots and batches are those of known headers, and where there is no tip the streamer
delivers the batch after the number in the store. -/
def AdmitsNext (codec : BlockCodec) (Known : Header → Prop) (state : OpState) : Label → Prop
  | .refresh answers => ∀ snapshot, answers.snapshot = some snapshot →
      ∃ header, Known header ∧ codec.headerHash header = snapshot.finalizedL2Hash ∧
        header.number = snapshot.finalizedL2Number
  | .iterate answers => ∀ batch, answers.peek = some batch →
      Known batch.batchHeader ∧ (state.verifier.tip = 0 → batch.number = state.number + 1)
  | .cancel | .finish _ _ _ => True

/-- The tip is unset or that of a known header, which is the last accepted one while a drain
has accepted any. -/
structure TipKnown (codec : BlockCodec) (Known : Header → Prop) (state : OpState) : Prop where
  header : state.verifier.tip ≠ 0 → ∃ header, Known header ∧
    codec.headerHash header = state.verifier.tip
  last : ∀ last, state.phase.accepted.getLast? = some last →
    Known last.batch.batchHeader ∧ codec.headerHash last.batch.batchHeader = state.verifier.tip

/-- The number is at most the one in the store or that of the tip. -/
def OpState.Behind (codec : BlockCodec) (Known : Header → Prop) (state : OpState)
    (number : Nat) : Prop :=
  number ≤ state.number ∨ ∃ header, Known header ∧
    codec.headerHash header = state.verifier.tip ∧ number ≤ header.number

/-- The step accepts a batch of the given number: `VerifyNextBatch` returns it. -/
def OpState.Accepts (codec : BlockCodec) (state : OpState) (label : Label) (number : Nat) :
    Prop :=
  ∃ answers batch, label = .iterate answers ∧ batch.number = number ∧
    verifyNextBatch codec state.verifier.tip answers = .ok (some batch)

theorem tipKnown_initial (store : EspressoState) (file : StateFile) :
    TipKnown codec Known (.initial store file) where
  header set := absurd rfl set
  last := by rintro last ⟨⟩

theorem behind_initial (known : KnownHeaders codec Known) {store : EspressoState}
    {file : StateFile} {number : Nat}
    (behind : (OpState.initial store file).Behind codec Known number) :
    number ≤ store.l2BlockNumber := by
  rcases behind with stored | ⟨header, isKnown, unset, -⟩
  · exact stored
  · exact absurd unset (known.nonzero isKnown)

theorem tipKnown_step {before after : OpState} {label : Label}
    (tipKnown : TipKnown codec Known before) (admitted : AdmitsNext codec Known before label)
    (outcome : StepOutcome codec before label after) : TipKnown codec Known after := by
  cases outcome with
  | refresh idle outcome =>
      have nothing := outcome.accepted_nil idle
      refine ⟨?_, ?_⟩
      · cases outcome with
        | noSnapshot | writeFailed | kept => exact tipKnown.header
        | advanced answered =>
            intro _
            obtain ⟨header, isKnown, hashed, -⟩ := admitted _ answered
            exact ⟨header, isKnown, hashed⟩
      · intro last found
        rw [nothing] at found
        cases found
  | iterate draining outcome =>
      cases outcome with
      | stopped =>
          refine ⟨tipKnown.header, fun last found => tipKnown.last last ?_⟩
          rw [draining]
          exact found
      | @accepted batch verified =>
          obtain ⟨isKnown, -⟩ := admitted batch (verifyNextBatch_some verified).1
          refine ⟨fun _ => ⟨_, isKnown, rfl⟩, fun last found => ?_⟩
          simp only [Phase.accepted, List.getLast?_concat] at found
          cases found
          exact ⟨isKnown, rfl⟩
  | cancel => exact ⟨tipKnown.header, by rintro last ⟨⟩⟩
  | finish _ outcome =>
      cases outcome with
      | unchanged | writeFailed | stored => exact ⟨tipKnown.header, by rintro last ⟨⟩⟩

/-- A step leaves a number behind only by accepting its batch, or under a finalized block. -/
theorem behind_step (known : KnownHeaders codec Known) {before after : OpState} {label : Label}
    {number : Nat} (tipKnown : TipKnown codec Known before)
    (admitted : AdmitsNext codec Known before label)
    (outcome : StepOutcome codec before label after)
    (behind : after.Behind codec Known number) :
    before.Behind codec Known number ∨ before.Accepts codec label number ∨
      ∃ answers snapshot, label = .refresh answers ∧ answers.snapshot = some snapshot ∧
        number ≤ snapshot.finalizedL2Number := by
  cases outcome with
  | refresh idle outcome =>
      cases outcome with
      | noSnapshot | writeFailed | kept => exact .inl behind
      | advanced answered =>
          refine .inr (.inr ⟨_, _, rfl, answered, ?_⟩)
          rcases behind with stored | ⟨header, isKnown, hashed, upTo⟩
          · exact stored
          · obtain ⟨finalized, finalizedKnown, same, numbered⟩ := admitted _ answered
            obtain rfl := known.injective isKnown finalizedKnown (hashed.trans same.symm)
            exact numbered ▸ upTo
  | iterate draining outcome =>
      cases outcome with
      | stopped => exact .inl behind
      | @accepted batch verified =>
          obtain ⟨peeked, checked⟩ := verifyNextBatch_some verified
          obtain ⟨batchKnown, first⟩ := admitted batch peeked
          rcases behind with stored | ⟨header, isKnown, hashed, upTo⟩
          · exact .inl (.inl stored)
          · obtain rfl := known.injective isKnown batchKnown hashed
            rcases Nat.eq_or_lt_of_le upTo with rfl | below
            · exact .inr (.inl ⟨_, batch, rfl, rfl, verified⟩)
            · by_cases unset : before.verifier.tip = 0
              · have next : batch.batchHeader.number = before.number + 1 := first unset
                exact .inl (.inl (by omega))
              · obtain ⟨parent, parentKnown, isTip⟩ := tipKnown.header unset
                have next := known.number parentKnown batchKnown
                  ((checked.2 unset).trans isTip.symm)
                exact .inl (.inr ⟨parent, parentKnown, isTip, by omega⟩)
  | cancel => exact .inl behind
  | finish drained outcome =>
      cases outcome with
      | unchanged | writeFailed => exact .inl behind
      | @stored last store found greater numbered =>
          rcases behind with stored | tip
          · obtain ⟨lastKnown, isTip⟩ := tipKnown.last last (by rw [drained]; exact found)
            exact .inl (.inr ⟨_, lastKnown, isTip, Nat.le_trans stored (Nat.le_of_eq numbered)⟩)
          · exact .inl (.inr tip)

/-! ### The deployment -/

/-- The OP verifier in the place that `main` has for it. -/
def opWriter (codec : BlockCodec) : StoreWriter Unit OpState Label where
  machine := opMachine codec
  create _ store file := .initial store file
  store state := state.verifier.store
  file state := state.verifier.file
  create_store _ _ _ := rfl
  writes := by
    intro before label after transition
    have outcome : StepOutcome codec before label after := step_outcome transition
    cases outcome with
    | refresh _ outcome =>
        cases outcome with
        | noSnapshot | writeFailed | kept => exact .inl rfl
        | advanced _ ahead => exact .inr ⟨ahead, rfl⟩
    | iterate _ outcome =>
        cases outcome with
        | stopped | accepted => exact .inl rfl
    | cancel => exact .inl rfl
    | finish _ outcome =>
        cases outcome with
        | unchanged | writeFailed => exact .inl rfl
        | stored _ greater number => exact .inr ⟨number ▸ greater, rfl⟩

variable {interceptor : Interceptor}

/-- The answers that the running verifier gets are admitted. -/
def AdmitsDeployed (codec : BlockCodec) (Known : Header → Prop)
    (deployment : Deployment OpState) : DeploymentLabel Unit Label → Prop
  | .verifier label => ∀ verifier, deployment.process = some (.settled verifier) →
      AdmitsNext codec Known verifier label
  | _ => True

/-- A step at which the running process accepts the batch of a number. -/
def AcceptsNumber (codec : BlockCodec) (number : Nat) (_ : List (DeploymentLabel Unit Label))
    (before : Deployment OpState) (label : DeploymentLabel Unit Label)
    (_ : Deployment OpState) : Prop :=
  ∃ verifier step, label = .verifier step ∧ before.process = some (.settled verifier) ∧
    verifier.Accepts codec step number

/-- The batch of the number was accepted by some process of the run, or a finalized block
that a process was given in it is at or above it. -/
def CoveredByDeployment (codec : BlockCodec) (Known : Header → Prop) (interceptor : Interceptor)
    (file : StateFile) (labels : List (DeploymentLabel Unit Label)) (number : Nat) : Prop :=
  (deploymentMachine (opWriter codec) interceptor).Since (AdmitsDeployed codec Known)
      (.initial file) (AcceptsNumber codec number) (fun _ => True) labels ∨
    ∃ answers snapshot, .verifier (.refresh answers) ∈ labels ∧
      answers.snapshot = some snapshot ∧ number ≤ snapshot.finalizedL2Number

theorem CoveredByDeployment.later {file : StateFile}
    {labels : List (DeploymentLabel Unit Label)} {number : Nat}
    (covered : CoveredByDeployment codec Known interceptor file labels number)
    (label : DeploymentLabel Unit Label) :
    CoveredByDeployment codec Known interceptor file (labels ++ [label]) number := by
  rcases covered with accepted | ⟨answers, snapshot, given, answered, upTo⟩
  · exact .inl (.later accepted trivial)
  · exact .inr ⟨answers, snapshot, List.mem_append_left _ given, answered, upTo⟩

/-- What a verifier keeps in its process: its tip is known, and everything behind it is
covered. -/
structure Life (codec : BlockCodec) (Known : Header → Prop) (interceptor : Interceptor)
    (file : StateFile) (labels : List (DeploymentLabel Unit Label)) (verifier : OpState) :
    Prop where
  tipKnown : TipKnown codec Known verifier
  covers : ∀ number, file.number < number → verifier.Behind codec Known number →
    CoveredByDeployment codec Known interceptor file labels number

theorem opAccount (known : KnownHeaders codec Known) (interceptor : Interceptor)
    (file : StateFile) :
    Account (opWriter codec) interceptor (AdmitsDeployed codec Known) file
      (CoveredByDeployment codec Known interceptor file)
      (Life codec Known interceptor file) where
  later label covered := covered.later label
  holds_later label life :=
    ⟨life.tipKnown, fun number above behind => (life.covers number above behind).later label⟩
  numbers life number above below := life.covers number above (.inl below)
  created := by
    intro labels before store _ _ _ _ _ onDisk _ _ covered
    exact ⟨tipKnown_initial store onDisk, fun number above behind =>
      covered number above (behind_initial known behind)⟩
  step := by
    intro labels before verifier label next after life run running admitted transition moved
    have outcome : StepOutcome codec verifier label after := step_outcome moved
    have answers := admitted verifier running
    refine ⟨tipKnown_step life.tipKnown answers outcome, fun number above behind => ?_⟩
    rcases behind_step known life.tipKnown answers outcome behind with
      earlier | accepts | ⟨given, snapshot, rfl, answered, upTo⟩
    · exact (life.covers number above earlier).later _
    · exact .inl (.now run admitted transition ⟨verifier, label, rfl, running, accepts⟩)
    · exact .inr ⟨given, snapshot, List.mem_append_right _ (List.mem_singleton_self _), answered,
        upTo⟩

/-- In every run of a deployed OP proxy with its clients, with failed writes, cancelled
ticks, crashes at any point and restarts: the numbers served for the tag never decrease, and
the block of each number up to a served one was accepted by one of the processes, is at most
a finalized block that was polled, or is at most the number in the file at first. -/
theorem op_deployment_serves_covered_blocks (known : KnownHeaders codec Known)
    {file : StateFile} {labels : List (DeploymentLabel Unit Label)}
    {deployment : Deployment OpState}
    (run : (deploymentMachine (opWriter codec) interceptor).Runs (AdmitsDeployed codec Known)
      (.initial file) labels deployment) :
    deployment.served.Pairwise (· ≤ ·) ∧
      ∀ served ∈ deployment.served, ∀ number, file.number < number → number ≤ served →
        CoveredByDeployment codec Known interceptor file labels number := by
  refine ⟨(deployment_consistent run).sorted, fun served member number above below => ?_⟩
  exact (opAccount known interceptor file).served run member number above below

/-- The process that verified block 5 crashes. The next one serves it. -/
theorem op_deployment_serves_covered_blocks_across_crash :
    let interceptor : Interceptor := ⟨"espresso", 10⟩
    let start : DeploymentLabel Unit Label := .start () 5 9 false true
    let labels := [start, .verifier (.refresh (sampleRefresh 3)),
      .verifier (.iterate (sampleIteration (some (sampleBatch 5)))),
      .verifier (.iterate (sampleIteration none)), .verifier (.finish 12 2 true), .crash, start,
      .request ⟨.null, "eth_getBlockByNumber", .array [.string "espresso"], []⟩]
    ∃ deployment, (deploymentMachine (opWriter sampleCodec) interceptor).Runs
        (AdmitsDeployed sampleCodec SampleKnown) (.initial (.holding ⟨4, 9, 1⟩)) labels
        deployment ∧
      deployment.served = [5] ∧
      CoveredByDeployment sampleCodec SampleKnown interceptor (.holding ⟨4, 9, 1⟩) labels 5 := by
  intro interceptor start labels
  have refreshed (deployment : Deployment OpState) :
      AdmitsDeployed sampleCodec SampleKnown deployment
        (.verifier (.refresh (sampleRefresh 3))) := by
    rintro verifier - snapshot ⟨⟩
    exact ⟨_, ⟨3, by decide, rfl⟩, rfl, rfl⟩
  have nothing (deployment : Deployment OpState) :
      AdmitsDeployed sampleCodec SampleKnown deployment
        (.verifier (.iterate (sampleIteration none))) := by
    rintro verifier - batch ⟨⟩
  have started : (deploymentMachine (opWriter sampleCodec) interceptor).Runs
      (AdmitsDeployed sampleCodec SampleKnown) (.initial (.holding ⟨4, 9, 1⟩)) [start] _ :=
    .step .refl trivial rfl
  have draining := started.next _ (refreshed _) rfl
  have accepted := draining.next (.verifier (.iterate (sampleIteration (some (sampleBatch 5))))) (by
    rintro verifier ⟨⟩ batch ⟨⟩
    exact ⟨⟨5, by decide, rfl⟩, fun _ => rfl⟩) rfl
  have stored := (accepted.next _ (nothing _) rfl).next (.verifier (.finish 12 2 true))
    (by rintro verifier -; trivial) rfl
  have run := ((stored.next .crash trivial rfl).next start trivial rfl).next
    (.request ⟨.null, "eth_getBlockByNumber", .array [.string "espresso"], []⟩) trivial rfl
  exact ⟨_, run, rfl, (op_deployment_serves_covered_blocks sampleKnown run).2 5
    (by decide) 5 (by decide) (by decide)⟩

end EspressoProxy.Verifier.Op
