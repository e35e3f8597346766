import EspressoProxy.Proxy.TagMonotonicity
import EspressoProxy.Store.Reload

/-!
# A deployed proxy

`main` opens the store, creates one of the two verifiers on it and serves clients from
the same store. `Deployment` runs a verifier in that place: its own steps change the
store, and a step that does is cut between the disk write and the assignment in memory,
where clients may still read the old state and the process may crash. Steps of other
goroutines in that gap touch neither copy of the state, so they are taken before or
after it.

A verifier enters only as a `StoreWriter`: every step leaves the store alone or raises
its number and writes it to the file. So a deployment refines the proxy whose updates
have arbitrary arguments.
-/

namespace EspressoProxy.Proxy

open EspressoProxy.JsonRpc EspressoProxy.Store EspressoProxy.Semantics

/-- A verifier as the process around it sees it. `Environment` is what its constructor
reads from outside. -/
structure StoreWriter (Environment State Label : Type) where
  machine : Machine State Label
  create : Environment → EspressoState → StateFile → State
  store : State → EspressoState
  file : State → StateFile
  create_store : ∀ environment opened onDisk, store (create environment opened onDisk) = opened
  writes : ∀ {before label after}, machine.step before label = some after →
    store after = store before ∨
      (store before).l2BlockNumber < (store after).l2BlockNumber ∧
        file after = .holding (store after)

/-- The process of a deployed proxy. In `committing` the update that leads to `after` is
on disk, and the state in memory is still that of `before`. -/
inductive Running (State : Type) where
  | settled (verifier : State)
  | committing (before after : State)

/-- The state file, the running process if there is one, and the numbers that clients
have been given for the tag. -/
structure Deployment (State : Type) where
  file : StateFile
  process : Option (Running State)
  served : List Nat

inductive DeploymentLabel (Environment Label : Type) where
  | start (environment : Environment) (hotshotHeight now : Nat) (statFails written : Bool)
  | verifier (label : Label)
  | commit
  | request (request : Request)
  | batch (requests : List Request)
  | crash

variable {Environment State Label : Type}

def Deployment.initial (file : StateFile) : Deployment State := ⟨file, none, []⟩

variable (writer : StoreWriter Environment State Label) (interceptor : Interceptor)

/-- What a client's request reads. -/
def Running.memory : Running State → EspressoState
  | .settled verifier => writer.store verifier
  | .committing before _ => writer.store before

def Deployment.step (deployment : Deployment State) :
    DeploymentLabel Environment Label → Option (Deployment State)
  | .start environment hotshotHeight now statFails written =>
      match deployment.process with
      | some _ => none
      | none =>
          match mustCreateEspressoStore deployment.file hotshotHeight now statFails written with
          | (file, some state) =>
              some { deployment with
                file
                process := some (.settled (writer.create environment state file)) }
          | (file, none) => some { deployment with file }
  | .verifier label =>
      match deployment.process with
      | some (.settled before) =>
          (writer.machine.step before label).map fun after =>
            if writer.store after = writer.store before then
              { deployment with process := some (.settled after) }
            else
              { deployment with
                file := writer.file after
                process := some (.committing before after) }
      | _ => none
  | .commit =>
      match deployment.process with
      | some (.committing _ after) => some { deployment with process := some (.settled after) }
      | _ => none
  | .request request =>
      deployment.process.map fun process =>
        { deployment with
          served := deployment.served ++
            interceptor.servedToRequest (process.memory writer) request }
  | .batch requests =>
      deployment.process.map fun process =>
        { deployment with
          served := deployment.served ++
            interceptor.servedToBatch (process.memory writer) requests }
  | .crash => some { deployment with process := none }

def deploymentMachine : Machine (Deployment State) (DeploymentLabel Environment Label) where
  step := Deployment.step writer interceptor

/-! ### What each step can do -/

inductive DeploymentOutcome (before : Deployment State) :
    DeploymentLabel Environment Label → Deployment State → Prop where
  | started {environment : Environment} {hotshotHeight now : Nat} {statFails written : Bool}
      {file : StateFile} {state : EspressoState} (down : before.process = none)
      (opened : newEspressoStore before.file hotshotHeight now statFails written =
        (file, .ok state)) :
      DeploymentOutcome before (.start environment hotshotHeight now statFails written)
        { before with file, process := some (.settled (writer.create environment state file)) }
  | exited {environment : Environment} {hotshotHeight now : Nat} {statFails written : Bool} :
      DeploymentOutcome before (.start environment hotshotHeight now statFails written) before
  | worked {label : Label} {verifier after : State}
      (running : before.process = some (.settled verifier))
      (moved : writer.machine.step verifier label = some after)
      (same : writer.store after = writer.store verifier) :
      DeploymentOutcome before (.verifier label)
        { before with process := some (.settled after) }
  | written {label : Label} {verifier after : State}
      (running : before.process = some (.settled verifier))
      (moved : writer.machine.step verifier label = some after)
      (greater : (writer.store verifier).l2BlockNumber < (writer.store after).l2BlockNumber) :
      DeploymentOutcome before (.verifier label)
        { before with
          file := .holding (writer.store after)
          process := some (.committing verifier after) }
  | committed {verifier after : State}
      (running : before.process = some (.committing verifier after)) :
      DeploymentOutcome before .commit { before with process := some (.settled after) }
  | requested {process : Running State} {request : Request}
      (running : before.process = some process) :
      DeploymentOutcome before (.request request)
        { before with
          served := before.served ++ interceptor.servedToRequest (process.memory writer) request }
  | batched {process : Running State} {requests : List Request}
      (running : before.process = some process) :
      DeploymentOutcome before (.batch requests)
        { before with
          served := before.served ++ interceptor.servedToBatch (process.memory writer) requests }
  | crashed : DeploymentOutcome before .crash { before with process := none }

theorem mustCreateEspressoStore_some {file after : StateFile} {hotshotHeight now : Nat}
    {statFails written : Bool} {state : EspressoState}
    (created : mustCreateEspressoStore file hotshotHeight now statFails written =
      (after, some state)) :
    newEspressoStore file hotshotHeight now statFails written = (after, .ok state) := by
  unfold mustCreateEspressoStore at created
  split at created
  · cases created
  · split at created
    · rename_i opened
      cases created
      exact opened
    · cases created

/-- A store that does not open leaves its file alone. -/
theorem mustCreateEspressoStore_none {file after : StateFile} {hotshotHeight now : Nat}
    {statFails written : Bool}
    (failed : mustCreateEspressoStore file hotshotHeight now statFails written = (after, none)) :
    after = file := by
  unfold mustCreateEspressoStore at failed
  split at failed
  · cases failed
    rfl
  · split at failed
    · cases failed
    · rename_i other cause result
      cases failed
      rcases newEspressoStore_file file hotshotHeight now statFails written with
        same | ⟨rfl, fresh⟩
      · rw [result] at same
        exact same
      · -- A fresh file is written only together with a store that opens.
        cases statFails <;> cases written <;>
          simp [newEspressoStore, writeToDisk] at result fresh

variable {writer interceptor}

theorem deploymentStep_outcome {before after : Deployment State}
    {label : DeploymentLabel Environment Label}
    (transition : (deploymentMachine writer interceptor).step before label = some after) :
    DeploymentOutcome writer interceptor before label after := by
  obtain ⟨file, process, served⟩ := before
  simp only [deploymentMachine] at transition
  cases label with
  | start environment hotshotHeight now statFails written =>
      simp only [Deployment.step] at transition
      split at transition
      · cases transition
      · split at transition
        · rename_i created
          cases transition
          exact .started rfl (mustCreateEspressoStore_some created)
        · rename_i failed
          cases transition
          obtain rfl := mustCreateEspressoStore_none failed
          exact .exited
  | verifier label =>
      simp only [Deployment.step] at transition
      split at transition
      · rename_i verifier
        obtain ⟨next, moved, rfl⟩ := Option.map_eq_some_iff.mp transition
        split
        · rename_i same
          exact .worked rfl moved same
        · rename_i different
          rcases writer.writes moved with same | ⟨greater, onDisk⟩
          · exact absurd same different
          · rw [onDisk]
            exact .written rfl moved greater
      · cases transition
  | commit =>
      simp only [Deployment.step] at transition
      split at transition <;> cases transition
      exact .committed rfl
  | request request =>
      obtain ⟨running, present, rfl⟩ := Option.map_eq_some_iff.mp transition
      exact .requested present
  | batch requests =>
      obtain ⟨running, present, rfl⟩ := Option.map_eq_some_iff.mp transition
      exact .batched present
  | crash =>
      cases transition
      exact .crashed

/-! ### The refinement -/

/-- How far the update of a process is. -/
def Running.update (writer : StoreWriter Environment State Label) : Running State → UpdatePhase
  | .settled _ => .idle
  | .committing _ after => .committing (writer.store after)

/-- A deployment as the proxy with arbitrary updates sees it. -/
def Deployment.view (writer : StoreWriter Environment State Label)
    (deployment : Deployment State) : World where
  file := deployment.file
  process := deployment.process.map fun process =>
    ⟨process.memory writer, process.update writer⟩
  served := deployment.served

/-- A step of a deployment is a run of the proxy. Only a step of the verifier that changes
the store is more than one action: the comparison and the write. -/
theorem DeploymentOutcome.simulated {before after : Deployment State}
    {label : DeploymentLabel Environment Label}
    (outcome : DeploymentOutcome writer interceptor before label after) :
    ∃ actions, (proxyMachine interceptor).Reaches (before.view writer) actions
      (after.view writer) := by
  obtain ⟨file, process, served⟩ := before
  cases outcome with
  | @started environment hotshotHeight now statFails written opened state down created =>
      obtain rfl : process = none := down
      refine ⟨[.start hotshotHeight now statFails written], Machine.Runs.next .refl _ trivial ?_⟩
      have created : newEspressoStore file hotshotHeight now statFails written =
        (opened, .ok state) := created
      simp [proxyMachine, World.step, Deployment.view, created, Running.memory, Running.update,
        writer.create_store]
  | exited => exact ⟨[], .refl⟩
  | worked running _ same =>
      obtain rfl : process = _ := running
      refine ⟨[], ?_⟩
      simp only [Deployment.view, Option.map_some, Running.memory, Running.update, same]
      exact .refl
  | @written label verifier after running _ greater =>
      obtain rfl : process = _ := running
      have prepared : prepareUpdate (writer.store verifier) (writer.store after).l2BlockNumber
          (writer.store after).fallbackHotshotHeight (writer.store after).updatedAt =
          some (writer.store after) := prepareUpdate_eq_some.mpr ⟨greater, rfl⟩
      have begun : (proxyMachine interceptor).step
          ⟨file, some ⟨writer.store verifier, .idle⟩, served⟩
          (.beginUpdate (writer.store after).l2BlockNumber
            (writer.store after).fallbackHotshotHeight (writer.store after).updatedAt) =
          some ⟨file, some ⟨writer.store verifier, .writing (writer.store after)⟩, served⟩ := by
        simp [proxyMachine, World.step, prepared]
      have started : (proxyMachine interceptor).Reaches _ _ _ := .step .refl trivial begun
      exact ⟨_, started.next (.write true) trivial rfl⟩
  | committed running =>
      obtain rfl : process = _ := running
      exact ⟨[.commit], Machine.Runs.next .refl _ trivial rfl⟩
  | requested running =>
      obtain rfl : process = _ := running
      exact ⟨[.request _], Machine.Runs.next .refl _ trivial rfl⟩
  | batched running =>
      obtain rfl : process = _ := running
      exact ⟨[.batch _], Machine.Runs.next .refl _ trivial rfl⟩
  | crashed => exact ⟨[.crash], Machine.Runs.next .refl _ trivial rfl⟩

theorem deployment_reaches {admits : Deployment State → DeploymentLabel Environment Label → Prop}
    {file : StateFile} {labels : List (DeploymentLabel Environment Label)}
    {deployment : Deployment State}
    (run : (deploymentMachine writer interceptor).Runs admits (.initial file) labels
      deployment) :
    ∃ actions, (proxyMachine interceptor).Reaches (World.initial file) actions
      (deployment.view writer) := by
  have matched : ∃ actions world, (proxyMachine interceptor).Reaches (World.initial file)
      actions world ∧ deployment.view writer = world := by
    refine run.simulate (fun deployment world => deployment.view writer = world) rfl ?_
    rintro before label after _ rfl - transition
    obtain ⟨actions, reached⟩ := (deploymentStep_outcome transition).simulated
    exact ⟨actions, _, reached, rfl⟩
  obtain ⟨actions, _, reached, rfl⟩ := matched
  exact ⟨actions, reached⟩

theorem deployment_consistent
    {admits : Deployment State → DeploymentLabel Environment Label → Prop} {file : StateFile}
    {labels : List (DeploymentLabel Environment Label)} {deployment : Deployment State}
    (run : (deploymentMachine writer interceptor).Runs admits (.initial file) labels
      deployment) : Consistent (deployment.view writer) := by
  obtain ⟨actions, reached⟩ := deployment_reaches run
  exact consistent_of_reaches reached

/-! ### What the processes of a run add up to -/

/-- An account of block numbers along the runs of a deployment: `covered` says which
numbers are accounted for, and `holds` is what a verifier keeps from its creation on, so
that the number in its store is. -/
structure Account (writer : StoreWriter Environment State Label) (interceptor : Interceptor)
    (admits : Deployment State → DeploymentLabel Environment Label → Prop) (file : StateFile)
    (covered : List (DeploymentLabel Environment Label) → Nat → Prop)
    (holds : List (DeploymentLabel Environment Label) → State → Prop) : Prop where
  later : ∀ {labels number} label, covered labels number → covered (labels ++ [label]) number
  holds_later : ∀ {labels verifier} label, holds labels verifier →
    holds (labels ++ [label]) verifier
  numbers : ∀ {labels verifier}, holds labels verifier → ∀ number, file.number < number →
    number ≤ (writer.store verifier).l2BlockNumber → covered labels number
  created : ∀ {labels before store environment hotshotHeight now statFails written} onDisk,
    admits before (.start environment hotshotHeight now statFails written) →
    store.l2BlockNumber = before.file.number →
    (∀ number, file.number < number → number ≤ store.l2BlockNumber → covered labels number) →
    holds labels (writer.create environment store onDisk)
  step : ∀ {labels before verifier label next after}, holds labels verifier →
    (deploymentMachine writer interceptor).Runs admits (.initial file) labels before →
    before.process = some (.settled verifier) → admits before (.verifier label) →
    (deploymentMachine writer interceptor).step before (.verifier label) = some next →
    writer.machine.step verifier label = some after →
    holds (labels ++ [.verifier label]) after

namespace Account

variable {admits : Deployment State → DeploymentLabel Environment Label → Prop}
  {file : StateFile} {covered : List (DeploymentLabel Environment Label) → Nat → Prop}
  {holds : List (DeploymentLabel Environment Label) → State → Prop}
  {labels : List (DeploymentLabel Environment Label)} {deployment : Deployment State}

/-- The number on disk is accounted for, and the running verifier keeps the account. In the
gap of an update the file is that of the verifier after it. -/
structure Kept (file : StateFile)
    (covered : List (DeploymentLabel Environment Label) → Nat → Prop)
    (holds : List (DeploymentLabel Environment Label) → State → Prop)
    (labels : List (DeploymentLabel Environment Label)) (deployment : Deployment State) :
    Prop where
  onDisk : ∀ number, file.number < number → number ≤ deployment.file.number →
    covered labels number
  settled : ∀ verifier, deployment.process = some (.settled verifier) → holds labels verifier
  committing : ∀ before after, deployment.process = some (.committing before after) →
    holds labels after

theorem keptLater (account : Account writer interceptor admits file covered holds)
    (kept : Kept file covered holds labels deployment)
    (label : DeploymentLabel Environment Label) :
    Kept file covered holds (labels ++ [label]) deployment where
  onDisk number above below := account.later label (kept.onDisk number above below)
  settled verifier running := account.holds_later label (kept.settled verifier running)
  committing before after running :=
    account.holds_later label (kept.committing before after running)

theorem keptStep {before after : Deployment State} {label : DeploymentLabel Environment Label}
    (account : Account writer interceptor admits file covered holds)
    (kept : Kept file covered holds labels before)
    (run : (deploymentMachine writer interceptor).Runs admits (.initial file) labels before)
    (admitted : admits before label)
    (transition : (deploymentMachine writer interceptor).step before label = some after) :
    Kept file covered holds (labels ++ [label]) after := by
  have later := account.keptLater kept label
  cases deploymentStep_outcome transition with
  | @started environment hotshotHeight now statFails written opened state down created =>
      obtain ⟨held, origin⟩ := newEspressoStore_ok created
      have number : state.l2BlockNumber = before.file.number := by
        rcases origin with loaded | ⟨missing, rfl⟩
        · rw [loaded]
          rfl
        · rw [missing]
          rfl
      refine ⟨?_, ?_, ?_⟩
      · rw [held]
        exact fun other above below => later.onDisk other above (number ▸ below)
      · rintro verifier ⟨⟩
        exact account.created opened admitted number fun other above below =>
          later.onDisk other above (number ▸ below)
      · rintro verifier next ⟨⟩
  | exited => exact later
  | worked running moved =>
      refine ⟨later.onDisk, ?_, ?_⟩
      · rintro next ⟨⟩
        exact account.step (kept.settled _ running) run running admitted transition moved
      · rintro other next ⟨⟩
  | written running moved =>
      have holdsAfter := account.step (kept.settled _ running) run running admitted transition
        moved
      refine ⟨account.numbers holdsAfter, ?_, ?_⟩
      · rintro next ⟨⟩
      · rintro other next ⟨⟩
        exact holdsAfter
  | committed running =>
      refine ⟨later.onDisk, ?_, ?_⟩
      · rintro next ⟨⟩
        exact later.committing _ _ running
      · rintro other next ⟨⟩
  | requested | batched => exact ⟨later.onDisk, later.settled, later.committing⟩
  | crashed =>
      refine ⟨later.onDisk, ?_, ?_⟩
      · rintro next ⟨⟩
      · rintro other next ⟨⟩

/-- Every number up to one that was served is accounted for, or was in the file to begin
with. -/
theorem served (account : Account writer interceptor admits file covered holds)
    (run : (deploymentMachine writer interceptor).Runs admits (.initial file) labels
      deployment) {served : Nat} (member : served ∈ deployment.served) (number : Nat)
    (above : file.number < number) (below : number ≤ served) : covered labels number := by
  have initially : Kept file covered holds [] (.initial file) := by
    refine ⟨fun number above below => absurd below (Nat.not_le.mpr above), ?_, ?_⟩
    · rintro verifier ⟨⟩
    · rintro before after ⟨⟩
  have kept : Kept file covered holds labels deployment :=
    run.invariantAlong initially fun prior kept admitted transition =>
      account.keptStep kept prior admitted transition
  have onDisk := (deployment_consistent run).onDisk served member
  exact kept.onDisk number above (Nat.le_trans below onDisk)

end Account
end EspressoProxy.Proxy
