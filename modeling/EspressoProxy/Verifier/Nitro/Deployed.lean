import EspressoProxy.Proxy.Deployment
import EspressoProxy.Verifier.Nitro.Coverage

/-!
# A deployed Nitro proxy serves verified positions only

The Nitro verifier in its process, with clients and restarts. The verifier of each process
starts from what the one before it left on disk, so the positions covered by the earlier
processes and by this one add up: whatever number a client is given, every position up to
it was verified by some process, is at most a finalized block that was polled, or was in
the file to begin with.
-/

namespace EspressoProxy.Verifier.Nitro

open EspressoProxy.Proxy EspressoProxy.Semantics EspressoProxy.Store

/-- The Nitro verifier in the place that `main` has for it. The height at which the parent
chain is finalized is read when it is created. -/
def nitroWriter (config : NitroConfig) : StoreWriter Nat NitroState NitroLabel where
  machine := nitroMachine config
  create finalizedBlock store file := .initial store file finalizedBlock
  store := NitroState.store
  file := NitroState.file
  create_store _ _ _ := rfl
  writes := by
    intro before label after transition
    cases nitroStep_outcome transition with
    | syncStored _ _ ahead => exact .inr ⟨ahead, rfl⟩
    | finishStored _ _ greater => exact .inr ⟨greater, rfl⟩
    | _ => exact .inl rfl

variable {config : NitroConfig} {interceptor : Interceptor}

/-- Block numbers that are loaded or polled can be increased. -/
def NumbersBounded (deployment : Deployment NitroState) : DeploymentLabel Nat NitroLabel → Prop
  | .start _ _ _ _ _ => deployment.file.number + 1 < 2 ^ 64
  | .verifier (.finalityPoll block) => block + 1 < 2 ^ 64
  | _ => True

instance (deployment : Deployment NitroState) :
    ∀ label, Decidable (NumbersBounded deployment label)
  | .start _ _ _ _ _ => inferInstanceAs (Decidable (deployment.file.number + 1 < 2 ^ 64))
  | .verifier (.finalityPoll block) => inferInstanceAs (Decidable (block + 1 < 2 ^ 64))
  | .verifier (.found _) | .verifier (.broadcast _) | .verifier (.fetcherPoll _)
  | .verifier .proceed | .verifier (.fetcherCall _) | .verifier .cancel
  | .verifier (.sync _ _ _) | .verifier (.finish _ _) | .commit | .request _ | .batch _
  | .crash => isTrue trivial

theorem NumbersBounded.finalityBounded {deployment : Deployment NitroState}
    {state : NitroState} {label : NitroLabel}
    (bounded : NumbersBounded deployment (.verifier label)) : FinalityBounded state label := by
  cases label with
  | finalityPoll block => exact bounded
  | _ => trivial

/-- A step at which the running process passes the message of a position. -/
def PassesPosition (config : NitroConfig) (pos : Nat)
    (_ : List (DeploymentLabel Nat NitroLabel)) (before : Deployment NitroState)
    (label : DeploymentLabel Nat NitroLabel) (_ : Deployment NitroState) : Prop :=
  label = .verifier .proceed ∧
    ∃ verifier, before.process = some (.settled verifier) ∧ verifier.Passes config pos

/-- The position was passed by some process of the run, or a finalized block that was
polled in it is at or above it. -/
def CoveredByDeployment (config : NitroConfig) (interceptor : Interceptor) (file : StateFile)
    (labels : List (DeploymentLabel Nat NitroLabel)) (pos : Nat) : Prop :=
  (deploymentMachine (nitroWriter config) interceptor).Since NumbersBounded (.initial file)
      (PassesPosition config pos) (fun _ => True) labels ∨
    ∃ block, .verifier (.finalityPoll block) ∈ labels ∧ pos ≤ block

theorem CoveredByDeployment.later {file : StateFile}
    {labels : List (DeploymentLabel Nat NitroLabel)} {pos : Nat}
    (covered : CoveredByDeployment config interceptor file labels pos)
    (label : DeploymentLabel Nat NitroLabel) :
    CoveredByDeployment config interceptor file (labels ++ [label]) pos := by
  rcases covered with passed | ⟨block, polled, below⟩
  · exact .inl (.later passed trivial)
  · exact .inr ⟨block, List.mem_append_left _ polled, below⟩

/-- A verifier with the run of its own that led to it, all of whose steps are in the run of
the deployment, and with everything behind it covered. -/
structure Life (config : NitroConfig) (interceptor : Interceptor) (file : StateFile)
    (labels : List (DeploymentLabel Nat NitroLabel)) (verifier : NitroState) : Prop where
  own : ∃ store onDisk finalizedBlock taken, store.l2BlockNumber + 1 < 2 ^ 64 ∧
    (nitroMachine config).Runs FinalityBounded (.initial store onDisk finalizedBlock) taken
      verifier ∧
    ∀ label ∈ taken, .verifier label ∈ labels
  covers : ∀ pos, file.number < pos → verifier.Behind pos →
    CoveredByDeployment config interceptor file labels pos

theorem Life.later {file : StateFile} {labels : List (DeploymentLabel Nat NitroLabel)}
    {verifier : NitroState} (life : Life config interceptor file labels verifier)
    (label : DeploymentLabel Nat NitroLabel) :
    Life config interceptor file (labels ++ [label]) verifier := by
  obtain ⟨⟨store, onDisk, finalizedBlock, taken, room, run, included⟩, covers⟩ := life
  refine ⟨⟨store, onDisk, finalizedBlock, taken, room, run, fun other member => ?_⟩,
    fun pos above behind => ?_⟩
  · exact List.mem_append_left _ (included other member)
  · exact (covers pos above behind).later label

/-- A step of the verifier in a deployment. -/
theorem Life.step {file : StateFile} {labels : List (DeploymentLabel Nat NitroLabel)}
    {before next : Deployment NitroState} {verifier after : NitroState} {label : NitroLabel}
    (life : Life config interceptor file labels verifier) (target : MovesToTarget config)
    (run : (deploymentMachine (nitroWriter config) interceptor).Runs NumbersBounded
      (.initial file) labels before)
    (running : before.process = some (.settled verifier))
    (bounded : NumbersBounded before (.verifier label))
    (transition : (deploymentMachine (nitroWriter config) interceptor).step before
      (.verifier label) = some next)
    (moved : (nitroMachine config).step verifier label = some after) :
    Life config interceptor file (labels ++ [.verifier label]) after := by
  obtain ⟨⟨store, onDisk, finalizedBlock, taken, room, own, included⟩, covers⟩ := life
  have forward : MovesForward config := fun cursor next => by
    rw [target]
    exact Nat.le_max_left _ _
  have safe := safeRun_of_runs forward room own
  have inRun : ∀ other ∈ taken ++ [label],
      DeploymentLabel.verifier other ∈ labels ++ [.verifier label] := by
    intro other member
    rcases List.mem_append.mp member with earlier | last
    · exact List.mem_append_left _ (included other earlier)
    · obtain rfl := List.mem_singleton.mp last
      exact List.mem_append_right _ (List.mem_singleton_self _)
  refine ⟨⟨store, onDisk, finalizedBlock, _, room, .step own bounded.finalityBounded moved,
    inRun⟩, fun pos above behind => ?_⟩
  rcases safe.behind_step target (nitroStep_outcome moved) behind with
    earlier | ⟨rfl, passes⟩ | ⟨block, polled, below⟩
  · exact (covers pos above earlier).later _
  · exact .inl (.now run bounded transition ⟨rfl, verifier, running, passes⟩)
  · exact .inr ⟨block, List.mem_append_left _ (included _ (safe.polled block polled)), below⟩

theorem nitroAccount (target : MovesToTarget config) (interceptor : Interceptor)
    (file : StateFile) :
    Account (nitroWriter config) interceptor NumbersBounded file
      (CoveredByDeployment config interceptor file) (Life config interceptor file) where
  later label covered := covered.later label
  holds_later label life := life.later label
  numbers life number above below := life.covers number above (.inr below)
  created := by
    intro labels before store finalizedBlock _ _ _ _ onDisk bounded number covered
    refine ⟨⟨store, onDisk, finalizedBlock, [], number ▸ bounded, .refl, by simp⟩,
      fun pos above behind => ?_⟩
    exact covered pos above (behind_initial behind)
  step life run running bounded transition moved :=
    life.step target run running bounded transition moved

/-- In every run of a deployed Nitro proxy with its clients, with failed writes, crashes at
any point and restarts: the numbers served for the tag never decrease, and each position
up to a served number was verified against the feed by one of the processes, is at most a
finalized block that was polled, or is at most the number in the file at first. -/
theorem nitro_deployment_serves_covered_positions {file : StateFile}
    {labels : List (DeploymentLabel Nat NitroLabel)} {deployment : Deployment NitroState}
    (target : MovesToTarget config)
    (run : (deploymentMachine (nitroWriter config) interceptor).Runs NumbersBounded
      (.initial file) labels deployment) :
    deployment.served.Pairwise (· ≤ ·) ∧
      ∀ number ∈ deployment.served, ∀ pos, file.number < pos → pos ≤ number →
        CoveredByDeployment config interceptor file labels pos := by
  refine ⟨(deployment_consistent run).sorted, fun number member pos above below => ?_⟩
  exact (nitroAccount target interceptor file).served run member pos above below

/-- A process moves to the finalized block 12 and crashes between the write and the commit
of the update. The next one serves 12. -/
theorem nitro_deployment_serves_covered_positions_across_crash :
    let interceptor : Interceptor := ⟨"espresso", 10⟩
    let start : DeploymentLabel Nat NitroLabel := .start 10 5 9 false true
    let labels := [start, .verifier (.finalityPoll 12), .verifier .proceed, .verifier .proceed,
      .verifier (.sync 30 3 true), .crash, start,
      .request ⟨.null, "eth_getBlockByNumber", .array [.string "espresso"], []⟩]
    ∃ deployment, (deploymentMachine (nitroWriter sampleNitroConfig) interceptor).Runs
        NumbersBounded (.initial (.holding ⟨4, 20, 1⟩)) labels deployment ∧
      deployment.served = [12] ∧
      CoveredByDeployment sampleNitroConfig interceptor (.holding ⟨4, 20, 1⟩) labels 9 := by
  intro interceptor start labels
  obtain ⟨deployment, computed, served⟩ : ∃ deployment,
      (deploymentMachine (nitroWriter sampleNitroConfig) interceptor).exec NumbersBounded
        (.initial (.holding ⟨4, 20, 1⟩)) labels = some deployment ∧
      deployment.served = [12] := ⟨_, rfl, rfl⟩
  have run := Machine.Runs.ofExec computed
  have target : MovesToTarget sampleNitroConfig := fun _ _ => rfl
  have covered := (nitro_deployment_serves_covered_positions target run).2 12
    (by rw [served]; simp) 9 (by decide) (by decide)
  exact ⟨deployment, run, served, covered⟩

end EspressoProxy.Verifier.Nitro
