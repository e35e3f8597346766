import EspressoProxy.Http.Serving
import EspressoProxy.Proxy.TagSubstitution
import EspressoProxy.Verifier.Op.Deployed

/-!
# The readiness of a deployed proxy

`newReadinessHandler` answers `/ready` from the store until it has found a number other than 0
there, and from then on without it. The interceptor decides by itself whether it trusts the
state, with a condition of its own: without a number, or in a state that lacks the HotShot
height or the time of the update, it forwards requests as they came, with the tag in them.

Here probes run between all steps of a deployment. A call reads `current` and the store in one
step; the assignment of `readyFn` comes later, if ever, and is lost with the process. As long as
the verifier writes complete states, the two conditions agree.
-/

namespace EspressoProxy.Proxy

open EspressoProxy.JsonRpc EspressoProxy.Store EspressoProxy.Semantics
open EspressoProxy.Http (newReadinessHandler statusOK)

/-- A deployment and its `/ready` endpoint: whether a call of the running process is past the
check of the store, whether `current` is `readyFn`, and the answers so far. -/
structure Probed (State : Type) where
  deployment : Deployment State
  passed : Bool
  swapped : Bool
  statuses : List Nat

inductive ProbedLabel (Environment Label : Type) where
  | deployment (label : DeploymentLabel Environment Label)
  | probe
  | swap

variable {Environment State Label : Type}

def Probed.initial (file : StateFile) : Probed State := ⟨.initial file, false, false, []⟩

variable (writer : StoreWriter Environment State Label) (interceptor : Interceptor)

def Probed.step (probed : Probed State) : ProbedLabel Environment Label → Option (Probed State)
  | .deployment label =>
      ((deploymentMachine writer interceptor).step probed.deployment label).map fun deployment =>
        -- The handler is one of the process.
        { probed with
          deployment
          passed := deployment.process.isSome && probed.passed
          swapped := deployment.process.isSome && probed.swapped }
  | .probe =>
      probed.deployment.process.map fun process =>
        let (status, passes) := newReadinessHandler probed.swapped (process.memory writer)
        { probed with
          passed := probed.passed || passes
          statuses := probed.statuses ++ [status] }
  | .swap => if probed.passed then some { probed with swapped := true } else none

def probedMachine : Machine (Probed State) (ProbedLabel Environment Label) where
  step := Probed.step writer interceptor

/-- A state with a number has everything else that the interceptor asks for. -/
def Complete (state : EspressoState) : Prop :=
  state.l2BlockNumber ≠ 0 → state.fallbackHotshotHeight ≠ 0 ∧ state.updatedAt ≠ 0

/-- The verifier writes complete states only. -/
def WritesComplete (probed : Probed State) : ProbedLabel Environment Label → Prop
  | .deployment (.verifier label) => ∀ verifier after,
      probed.deployment.process = some (.settled verifier) →
      writer.machine.step verifier label = some after → Complete (writer.store after)
  | _ => True

/-- Somebody outside has been told that there is a number. -/
def Probed.Announced (probed : Probed State) : Prop :=
  statusOK ∈ probed.statuses ∨ probed.deployment.served ≠ []

/-! ### What the process keeps -/

/-- What was announced is in memory and on disk, and what the process holds is complete. -/
structure Attested (writer : StoreWriter Environment State Label) (probed : Probed State) :
    Prop where
  handler : probed.passed ∨ probed.swapped → statusOK ∈ probed.statuses
  onDisk : probed.Announced → probed.deployment.file.number ≠ 0
  inMemory : ∀ process, probed.deployment.process = some process →
    Complete (process.memory writer) ∧
      (process.memory writer).l2BlockNumber ≤ probed.deployment.file.number ∧
      (probed.Announced → (process.memory writer).l2BlockNumber ≠ 0)
  committing : ∀ before after, probed.deployment.process = some (.committing before after) →
    Complete (writer.store after) ∧
      (writer.store after).l2BlockNumber ≤ probed.deployment.file.number ∧
      (writer.store before).l2BlockNumber < (writer.store after).l2BlockNumber

theorem attested_initial (file : StateFile) :
    Attested writer (Probed.initial file : Probed State) where
  handler := by rintro (⟨⟨⟩⟩ | ⟨⟨⟩⟩)
  onDisk := by
    rintro (⟨⟨⟩⟩ | served)
    exact absurd rfl served
  inMemory := by rintro process ⟨⟩
  committing := by rintro before after ⟨⟩

variable {writer interceptor}

theorem complete_of_opened {file after : StateFile} {hotshotHeight now : Nat}
    {statFails written : Bool} {state : EspressoState}
    (opened : newEspressoStore file hotshotHeight now statFails written = (after, .ok state)) :
    Complete state ∧ after = .holding state ∧ state.l2BlockNumber = file.number := by
  obtain ⟨held, rfl | ⟨rfl, rfl⟩⟩ := newEspressoStore_ok opened
  · refine ⟨fun _ => ?_, held, rfl⟩
    cases statFails with
    | true => simp [newEspressoStore] at opened
    | false =>
        rw [newEspressoStore_holding] at opened
        by_contra incomplete
        rw [if_pos (by omega)] at opened
        cases opened
  · exact ⟨fun numbered => absurd rfl numbered, held, rfl⟩

theorem nonzero_of_known {state : EspressoState} {number : Nat}
    (known : Interceptor.getCurrentEspressoFinalizedBlockNumber state = some number) :
    state.l2BlockNumber ≠ 0 := by
  intro zero
  rw [Interceptor.getCurrentEspressoFinalizedBlockNumber, if_pos (.inr (.inl zero))] at known
  cases known

theorem nonzero_of_servedToRequest {state : EspressoState} {request : Request} {number : Nat}
    (served : number ∈ interceptor.servedToRequest state request) : state.l2BlockNumber ≠ 0 := by
  unfold Interceptor.servedToRequest at served
  split at served
  · cases served
  · rename_i known
    exact nonzero_of_known known

theorem nonzero_of_servedToBatch {state : EspressoState} {requests : List Request} {number : Nat}
    (served : number ∈ interceptor.servedToBatch state requests) : state.l2BlockNumber ≠ 0 := by
  unfold Interceptor.servedToBatch at served
  split at served
  · cases served
  · obtain ⟨request, -, member⟩ := List.mem_flatMap.mp served
    exact nonzero_of_servedToRequest member

/-- Where nothing is announced, the file and the process may become any that hold what was
announced before. -/
theorem Attested.withDeployment {before : Probed State} {deployment : Deployment State}
    (attested : Attested writer before) (same : deployment.served = before.deployment.served)
    (onDisk : before.Announced → deployment.file.number ≠ 0)
    (inMemory : ∀ process, deployment.process = some process →
      Complete (process.memory writer) ∧
        (process.memory writer).l2BlockNumber ≤ deployment.file.number ∧
        (before.Announced → (process.memory writer).l2BlockNumber ≠ 0))
    (committing : ∀ verifier after, deployment.process = some (.committing verifier after) →
      Complete (writer.store after) ∧
        (writer.store after).l2BlockNumber ≤ deployment.file.number ∧
        (writer.store verifier).l2BlockNumber < (writer.store after).l2BlockNumber) :
    Attested writer { before with deployment } := by
  have announced : ({ before with deployment } : Probed State).Announced ↔ before.Announced := by
    simp only [Probed.Announced, same]
  refine ⟨attested.handler, fun told => onDisk (announced.mp told), ?_, committing⟩
  intro process running
  obtain ⟨complete, atMost, nonzero⟩ := inMemory process running
  exact ⟨complete, atMost, fun told => nonzero (announced.mp told)⟩

/-- Something is announced that is in memory. -/
theorem Attested.announce {before after : Probed State} {process : Running State}
    (attested : Attested writer before) (running : before.deployment.process = some process)
    (sameFile : after.deployment.file = before.deployment.file)
    (sameProcess : after.deployment.process = before.deployment.process)
    (handler : after.passed ∨ after.swapped → statusOK ∈ after.statuses)
    (nonzero : after.Announced → (process.memory writer).l2BlockNumber ≠ 0) :
    Attested writer after := by
  obtain ⟨complete, atMost, -⟩ := attested.inMemory process running
  refine ⟨handler, fun told => ?_, fun other isRunning => ?_, fun verifier next isCommitting => ?_⟩
  · have positive := nonzero told
    rw [sameFile]
    omega
  · obtain rfl : process = other :=
      Option.some.inj (running.symm.trans (sameProcess ▸ isRunning))
    rw [sameFile]
    exact ⟨complete, atMost, nonzero⟩
  · rw [sameFile]
    exact attested.committing verifier next (sameProcess ▸ isCommitting)

/-- Numbers are served that are in memory. -/
theorem Attested.serve {before : Probed State} {process : Running State} {numbers : List Nat}
    (attested : Attested writer before) (running : before.deployment.process = some process)
    (current : ∀ number ∈ numbers, (process.memory writer).l2BlockNumber ≠ 0) :
    Attested writer { before with
      deployment := { before.deployment with served := before.deployment.served ++ numbers } } := by
  refine attested.announce running rfl rfl attested.handler ?_
  have earlier := (attested.inMemory process running).2.2
  rintro (answered | served)
  · exact earlier (.inl answered)
  · obtain ⟨number, member⟩ := List.exists_mem_of_ne_nil _ served
    rcases List.mem_append.mp member with old | new
    · exact earlier (.inr (List.ne_nil_of_mem old))
    · exact current number new

theorem Attested.deploymentStep {before : Probed State} {deployment : Deployment State}
    {label : DeploymentLabel Environment Label} (attested : Attested writer before)
    (admitted : WritesComplete writer before (.deployment label))
    (outcome : DeploymentOutcome writer interceptor before.deployment label deployment) :
    Attested writer { before with deployment } := by
  cases outcome with
  | @started environment hotshotHeight now statFails written file state down opened =>
      obtain ⟨complete, rfl, number⟩ := complete_of_opened opened
      have kept : before.Announced → state.l2BlockNumber ≠ 0 := fun told =>
        number ▸ attested.onDisk told
      refine attested.withDeployment rfl kept ?_ ?_
      · rintro process ⟨⟩
        simp only [Running.memory, writer.create_store]
        exact ⟨complete, Nat.le_refl _, kept⟩
      · rintro verifier after ⟨⟩
  | exited => exact attested
  | @worked label verifier after running moved same =>
      have kept := attested.inMemory _ running
      refine attested.withDeployment rfl attested.onDisk ?_ ?_
      · rintro process ⟨⟩
        simp only [Running.memory] at kept ⊢
        rw [same]
        exact kept
      · rintro other next ⟨⟩
  | @written label verifier after running moved greater =>
      obtain ⟨complete, -, nonzero⟩ := attested.inMemory _ running
      refine attested.withDeployment rfl (fun _ => Nat.ne_of_gt (Nat.zero_lt_of_lt greater)) ?_ ?_
      · rintro process ⟨⟩
        exact ⟨complete, Nat.le_of_lt greater, nonzero⟩
      · rintro other next ⟨⟩
        exact ⟨admitted verifier after running moved, Nat.le_refl _, greater⟩
  | @committed verifier after running =>
      obtain ⟨complete, atMost, greater⟩ := attested.committing verifier after running
      refine attested.withDeployment rfl attested.onDisk ?_ ?_
      · rintro process ⟨⟩
        exact ⟨complete, atMost, fun _ => Nat.ne_of_gt (Nat.zero_lt_of_lt greater)⟩
      · rintro other next ⟨⟩
  | requested running => exact attested.serve running fun _ => nonzero_of_servedToRequest
  | batched running => exact attested.serve running fun _ => nonzero_of_servedToBatch
  | crashed =>
      refine attested.withDeployment rfl attested.onDisk ?_ ?_
      · rintro process ⟨⟩
      · rintro verifier after ⟨⟩

/-- A call that is answered 200 found a number, or relies on one that did. -/
theorem Attested.nonzero_of_statusOK {probed : Probed State} {process : Running State}
    (attested : Attested writer probed) (running : probed.deployment.process = some process)
    (answered : (newReadinessHandler probed.swapped (process.memory writer)).1 = statusOK) :
    (process.memory writer).l2BlockNumber ≠ 0 := by
  unfold newReadinessHandler at answered
  split at answered
  · rename_i swapped
    exact (attested.inMemory process running).2.2 (.inl (attested.handler (.inr swapped)))
  · split at answered
    · cases answered
    · assumption

theorem statusOK_of_nonzero {swapped : Bool} {state : EspressoState}
    (nonzero : state.l2BlockNumber ≠ 0) : (newReadinessHandler swapped state).1 = statusOK := by
  cases swapped with
  | true => rfl
  | false => simp [newReadinessHandler, nonzero]

theorem statusOK_of_passes {swapped : Bool} {state : EspressoState}
    (passes : (newReadinessHandler swapped state).2) :
    (newReadinessHandler swapped state).1 = statusOK := by
  refine statusOK_of_nonzero fun zero => ?_
  cases swapped <;> simp [newReadinessHandler, zero] at passes

/-- A call of the handler. -/
theorem Attested.probe {before : Probed State} {process : Running State}
    (attested : Attested writer before) (running : before.deployment.process = some process) :
    Attested writer { before with
      passed := before.passed || (newReadinessHandler before.swapped (process.memory writer)).2
      statuses := before.statuses ++
        [(newReadinessHandler before.swapped (process.memory writer)).1] } := by
  refine attested.announce running rfl rfl ?_ ?_
  · rintro (passed | swapped)
    · rcases (Bool.or_eq_true _ _).mp passed with earlier | passes
      · exact List.mem_append_left _ (attested.handler (.inl earlier))
      · exact List.mem_append_right _ (List.mem_singleton.mpr (statusOK_of_passes passes).symm)
    · exact List.mem_append_left _ (attested.handler (.inr swapped))
  · have earlier := (attested.inMemory process running).2.2
    rintro (answered | served)
    · rcases List.mem_append.mp answered with old | new
      · exact earlier (.inl old)
      · exact attested.nonzero_of_statusOK running (List.mem_singleton.mp new).symm
    · exact earlier (.inr served)

theorem Attested.step {before after : Probed State} {label : ProbedLabel Environment Label}
    (attested : Attested writer before) (admitted : WritesComplete writer before label)
    (transition : (probedMachine writer interceptor).step before label = some after) :
    Attested writer after := by
  cases label with
  | deployment label =>
      obtain ⟨deployment, moved, rfl⟩ := Option.map_eq_some_iff.mp transition
      have kept := attested.deploymentStep admitted (deploymentStep_outcome moved)
      refine ⟨?_, kept.onDisk, kept.inMemory, kept.committing⟩
      rintro (passed | swapped)
      · exact kept.handler (.inl ((Bool.and_eq_true _ _).mp passed).2)
      · exact kept.handler (.inr ((Bool.and_eq_true _ _).mp swapped).2)
  | probe =>
      obtain ⟨process, running, rfl⟩ := Option.map_eq_some_iff.mp transition
      exact attested.probe running
  | swap =>
      simp only [probedMachine, Probed.step] at transition
      split at transition
      · rename_i passed
        cases transition
        exact ⟨fun _ => attested.handler (.inl passed), attested.onDisk, attested.inMemory,
          attested.committing⟩
      · cases transition

theorem attested_of_run {file : StateFile} {labels : List (ProbedLabel Environment Label)}
    {probed : Probed State}
    (run : (probedMachine writer interceptor).Runs (WritesComplete writer) (.initial file) labels
      probed) : Attested writer probed :=
  run.invariant (attested_initial writer file) fun attested admitted transition =>
    attested.step admitted transition

/-! ### Probes and requests -/

theorem served_of_outcome {before after : Deployment State}
    {label : DeploymentLabel Environment Label}
    (outcome : DeploymentOutcome writer interceptor before label after) :
    before.served <+: after.served := by
  cases outcome with
  | requested | batched => exact List.prefix_append _ _
  | _ => exact List.prefix_rfl

/-- Once something has been announced, all answers are positive. -/
theorem announced_step {before after : Probed State} {label : ProbedLabel Environment Label}
    (attested : Attested writer before) (announced : before.Announced)
    (transition : (probedMachine writer interceptor).step before label = some after) :
    after.Announced ∧
      ∃ count, after.statuses = before.statuses ++ List.replicate count statusOK := by
  cases label with
  | deployment label =>
      obtain ⟨deployment, moved, rfl⟩ := Option.map_eq_some_iff.mp transition
      have grows := served_of_outcome (deploymentStep_outcome moved)
      refine ⟨?_, 0, (List.append_nil _).symm⟩
      rcases announced with answered | served
      · exact .inl answered
      · exact .inr fun none => served (List.prefix_nil.mp (none ▸ grows))
  | probe =>
      obtain ⟨process, running, rfl⟩ := Option.map_eq_some_iff.mp transition
      have nonzero := (attested.inMemory process running).2.2 announced
      refine ⟨?_, 1, congrArg (before.statuses ++ [·]) (statusOK_of_nonzero nonzero)⟩
      rcases announced with answered | served
      · exact .inl (List.mem_append_left _ answered)
      · exact .inr served
  | swap =>
      simp only [probedMachine, Probed.step] at transition
      split at transition
      · cases transition
        exact ⟨announced, 0, (List.append_nil _).symm⟩
      · cases transition

/-- The interceptor trusts a complete state exactly if it has a number. -/
theorem known_iff_of_complete {state : EspressoState} (complete : Complete state) :
    Interceptor.getCurrentEspressoFinalizedBlockNumber state =
      if state.l2BlockNumber = 0 then none else some state.l2BlockNumber := by
  unfold Interceptor.getCurrentEspressoFinalizedBlockNumber
  by_cases zero : state.l2BlockNumber = 0
  · rw [if_pos (.inr (.inl zero)), if_pos zero]
  · obtain ⟨height, updated⟩ := complete zero
    rw [if_neg (by simp [zero, height, updated]), if_neg zero]

/-- Readiness follows the tag. In every run of a deployment whose verifier writes complete
states, with probes at any point, also in the gap of an update and before a swap that comes
late, with crashes and restarts:
once a probe was answered 200 or a client was served a number, every later probe of any process
is answered 200. At any time a probe would be answered 200 exactly if a request has the tag
replaced, and otherwise the request is forwarded with the tag in it. -/
theorem readiness_follows_tag {file : StateFile}
    {labels more : List (ProbedLabel Environment Label)} {before after : Probed State}
    (run : (probedMachine writer interceptor).Runs (WritesComplete writer) (.initial file) labels
      before)
    (later : (probedMachine writer interceptor).Runs (WritesComplete writer) before more after) :
    (before.Announced →
      ∃ count, after.statuses = before.statuses ++ List.replicate count statusOK) ∧
    ∀ process, after.deployment.process = some process → ∀ request : Request,
      request.params.distinctNames → request.params.height ≤ maxJSONDepth →
      interceptor.interceptRequest (process.memory writer) request =
        if (newReadinessHandler after.swapped (process.memory writer)).1 = statusOK then
          .ok { request with
            params := request.params.replaceString interceptor.espressoTag
              (hexBlockNumber (process.memory writer).l2BlockNumber) }
        else .ok request := by
  have attested := attested_of_run (run.trans later)
  refine ⟨fun announced => ?_, fun process running request distinct within => ?_⟩
  · have kept := later.invariant (P := fun probed => Attested writer probed ∧ probed.Announced ∧
        ∃ count, probed.statuses = before.statuses ++ List.replicate count statusOK)
      ⟨attested_of_run run, announced, 0, (List.append_nil _).symm⟩ fun kept admitted moved => by
        obtain ⟨attested, announced, count, answered⟩ := kept
        obtain ⟨announcedAfter, more, answeredAfter⟩ := announced_step attested announced moved
        refine ⟨attested.step admitted moved, announcedAfter, count + more, ?_⟩
        rw [answeredAfter, answered, List.append_assoc, List.replicate_append_replicate]
    exact kept.2.2
  · have known := known_iff_of_complete (attested.inMemory process running).1
    split
    · rename_i answered
      rw [if_neg (attested.nonzero_of_statusOK running answered)] at known
      exact Interceptor.interceptRequest_eq known distinct within
    · rename_i refused
      rw [if_pos (by_contra fun nonzero => refused (statusOK_of_nonzero nonzero))] at known
      rw [Interceptor.interceptRequest, known]

/-- A fresh OP proxy is probed before its first update, in its gap and after it, and again by
the next process. -/
theorem readiness_follows_tag_across_crash :
    let machine := probedMachine (Verifier.Op.opWriter Verifier.Op.sampleCodec) ⟨"espresso", 10⟩
    let start : DeploymentLabel Unit Verifier.Op.Label := .start () 9 1 false true
    ∃ before after, machine.Runs (WritesComplete (Verifier.Op.opWriter Verifier.Op.sampleCodec))
        (.initial .missing) [.deployment start, .probe,
          .deployment (.verifier (.refresh (Verifier.Op.sampleRefresh 3))), .probe,
          .deployment .commit, .probe] before ∧
      machine.Runs (WritesComplete (Verifier.Op.opWriter Verifier.Op.sampleCodec)) before
        [.swap, .deployment .crash, .deployment start, .probe] after ∧
      before.statuses = [503, 503, 200] ∧ before.swapped = false ∧
      ∃ count, after.statuses = before.statuses ++ List.replicate count statusOK := by
  intro machine start
  let admits := WritesComplete (Verifier.Op.opWriter Verifier.Op.sampleCodec)
  have started : machine.Runs admits (.initial .missing) [.deployment start] _ :=
    .step .refl trivial rfl
  have updating := (started.next .probe trivial rfl).next
    (.deployment (.verifier (.refresh (Verifier.Op.sampleRefresh 3)))) (by
      rintro verifier after ⟨⟩ ⟨⟩ -
      decide) rfl
  have run := ((updating.next .probe trivial rfl).next (.deployment .commit) trivial rfl).next
    .probe trivial rfl
  -- The second run starts where the first one ends.
  have onward {labels before label after}
      (_ : machine.Runs admits (.initial .missing) labels before)
      (admitted : admits before label) (moved : machine.step before label = some after) :
      machine.Runs admits before [label] after := .step .refl admitted moved
  have swapped : machine.Runs admits _ [.swap] _ := onward run trivial rfl
  have later := ((swapped.next (.deployment .crash) trivial rfl).next (.deployment start) trivial
    rfl).next .probe trivial rfl
  exact ⟨_, _, run, later, rfl, rfl, (readiness_follows_tag run later).1 (.inl (by decide))⟩

end EspressoProxy.Proxy
