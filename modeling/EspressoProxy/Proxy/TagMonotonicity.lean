import EspressoProxy.Proxy.Interceptor
import EspressoProxy.Semantics.Machine

/-!
# The number behind the tag never moves backwards

The proxy as a whole: clients whose requests read the store, one verifier goroutine
that is the only caller of `UpdateIfGreater`, a state file that outlives the
process, crashes and restarts. An update is three steps (compare under the read
lock, replace the file, assign under the write lock), and every other action may
fall between any two of them.

`Consistent` relates memory, disk and every number served so far. It is kept by
each action, so it holds in every run, whatever the file held at first.
-/

namespace EspressoProxy.Proxy

open EspressoProxy.JsonRpc EspressoProxy.Store EspressoProxy.Semantics

/-- How far the verifier goroutine is inside `UpdateIfGreater`. -/
inductive UpdatePhase where
  | idle
  | writing (newState : EspressoState)
  | committing (newState : EspressoState)
deriving DecidableEq, Repr

/-- The memory of a running proxy. -/
structure Process where
  state : EspressoState
  update : UpdatePhase
deriving DecidableEq, Repr

/-- The state file, the running process if there is one, and the numbers that
clients have been given for the tag, in the order in which their requests read the
store. -/
structure World where
  file : StateFile
  process : Option Process
  served : List Nat
deriving DecidableEq, Repr

/-- The actions of the environment. Arguments of an update, clock readings and the
outcomes of file operations are arbitrary. -/
inductive Action where
  | start (hotshotHeight now : Nat) (statFails written : Bool)
  | beginUpdate (l2BlockNumber fallbackHotshotHeight now : Nat)
  | write (written : Bool)
  | commit
  | request (request : Request)
  | batch (requests : List Request)
  | crash

/-- A machine on which no proxy has run yet. -/
def World.initial (file : StateFile) : World := ⟨file, none, []⟩

/-- One action of the proxy or its environment. A request is one action because
only its single read of the store touches shared state. -/
def World.step (interceptor : Interceptor) (world : World) : Action → Option World
  | .start hotshotHeight now statFails written =>
      match world.process with
      | some _ => none
      | none =>
          match newEspressoStore world.file hotshotHeight now statFails written with
          | (file, .ok state) => some { world with file, process := some ⟨state, .idle⟩ }
          | (file, .error _) => some { world with file }
  | .beginUpdate l2BlockNumber fallbackHotshotHeight now =>
      match world.process with
      | some ⟨state, .idle⟩ =>
          match prepareUpdate state l2BlockNumber fallbackHotshotHeight now with
          | none => some world
          | some newState => some { world with process := some ⟨state, .writing newState⟩ }
      | _ => none
  | .write written =>
      match world.process with
      | some ⟨state, .writing newState⟩ =>
          match writeToDisk world.file newState written with
          | (file, .ok ()) =>
              some { world with file, process := some ⟨state, .committing newState⟩ }
          | (file, .error _) => some { world with file, process := some ⟨state, .idle⟩ }
      | _ => none
  | .commit =>
      match world.process with
      | some ⟨_, .committing newState⟩ =>
          some { world with process := some ⟨newState, .idle⟩ }
      | _ => none
  | .request request =>
      match world.process with
      | some process => some { world with
          served := world.served ++ interceptor.servedToRequest process.state request }
      | none => none
  | .batch requests =>
      match world.process with
      | some process => some { world with
          served := world.served ++ interceptor.servedToBatch process.state requests }
      | none => none
  | .crash => some { world with process := none }

/-- The proxy with its clients, its verifier and its disk. -/
def proxyMachine (interceptor : Interceptor) : Machine World Action where
  step := World.step interceptor

/-- An uninterrupted `updateIfGreater` is a run of the separate steps. -/
theorem updateIfGreater_reaches (interceptor : Interceptor) (file : StateFile)
    (state : EspressoState) (served : List Nat) (number height now : Nat) (written : Bool) :
    ∃ actions, (proxyMachine interceptor).Reaches ⟨file, some ⟨state, .idle⟩, served⟩ actions
      ⟨(updateIfGreater state file number height now written).2.1,
        some ⟨(updateIfGreater state file number height now written).1, .idle⟩, served⟩ := by
  rcases updateIfGreater_cases state file number height now written with
    ⟨_, outcome⟩ | ⟨greater, rfl, outcome⟩ | ⟨greater, rfl, outcome⟩
  · rw [outcome]
    exact ⟨[], .refl⟩
  all_goals
    rw [outcome]
    have prepared : prepareUpdate state number height now = some ⟨number, height, now⟩ :=
      prepareUpdate_eq_some.mpr ⟨greater, rfl⟩
    have begun : (proxyMachine interceptor).step ⟨file, some ⟨state, .idle⟩, served⟩
        (.beginUpdate number height now) =
          some ⟨file, some ⟨state, .writing ⟨number, height, now⟩⟩, served⟩ := by
      simp [proxyMachine, World.step, prepared]
    have started : (proxyMachine interceptor).Reaches _ _ _ := .step .refl trivial begun
  · exact ⟨_, started.next (.write false) trivial rfl⟩
  · exact ⟨_, (started.next (.write true) trivial rfl).next .commit trivial rfl⟩

/-- How the file and the memory of a running process are related in each phase of
an update. -/
def Process.AgreesWith (process : Process) (file : StateFile) : Prop :=
  match process.update with
  | .idle => file = .holding process.state
  | .writing newState =>
      file = .holding process.state ∧ process.state.l2BlockNumber < newState.l2BlockNumber
  | .committing newState =>
      file = .holding newState ∧ process.state.l2BlockNumber < newState.l2BlockNumber

/-- The invariant that relates memory, disk and all numbers ever served. -/
structure Consistent (world : World) : Prop where
  sorted : world.served.Pairwise (· ≤ ·)
  onDisk : ∀ number ∈ world.served, number ≤ world.file.number
  inMemory : ∀ process, world.process = some process →
    process.AgreesWith world.file ∧
      ∀ number ∈ world.served, number ≤ process.state.l2BlockNumber

theorem consistent_initial (file : StateFile) : Consistent (World.initial file) where
  sorted := List.Pairwise.nil
  onDisk := by
    intro number member
    cases member
  inMemory := by
    intro process running
    cases running

/-- Memory never runs ahead of the disk. -/
theorem Process.AgreesWith.le {process : Process} {file : StateFile}
    (agrees : process.AgreesWith file) :
    process.state.l2BlockNumber ≤ file.number := by
  obtain ⟨state, update⟩ := process
  cases update with
  | idle =>
      have held : file = .holding state := agrees
      rw [held]
      exact Nat.le_refl _
  | writing newState =>
      rw [agrees.1]
      exact Nat.le_refl _
  | committing newState =>
      rw [agrees.1]
      exact Nat.le_of_lt agrees.2

/-- Serving only numbers equal to the one in memory keeps the invariant: that
number bounds all earlier ones. -/
theorem Consistent.serve {world : World} (consistent : Consistent world) {process : Process}
    (running : world.process = some process) {numbers : List Nat}
    (current : ∀ number ∈ numbers, number = process.state.l2BlockNumber) :
    Consistent { world with served := world.served ++ numbers } := by
  obtain ⟨agrees, bounded⟩ := consistent.inMemory process running
  have allBounded : ∀ number ∈ world.served ++ numbers,
      number ≤ process.state.l2BlockNumber := by
    intro number member
    rcases List.mem_append.mp member with earlier | new
    · exact bounded number earlier
    · exact Nat.le_of_eq (current number new)
  refine ⟨?_, ?_, ?_⟩
  · refine List.pairwise_append.mpr ⟨consistent.sorted, ?_, ?_⟩
    · refine List.pairwise_of_forall_mem_list ?_
      intro first firstMember second secondMember
      rw [current first firstMember, current second secondMember]
    · intro earlier earlierMember new newMember
      rw [current new newMember]
      exact bounded earlier earlierMember
  · intro number member
    exact Nat.le_trans (allBounded number member) agrees.le
  · intro other same
    have equal : process = other := Option.some.inj (running.symm.trans same)
    subst equal
    exact ⟨agrees, allBounded⟩

/-- A process whose memory and file agree, and whose number bounds everything
served, is consistent. -/
theorem Consistent.withProcess {world : World} (consistent : Consistent world)
    {file : StateFile} (process : Process) (agrees : process.AgreesWith file)
    (bounded : ∀ number ∈ world.served, number ≤ process.state.l2BlockNumber) :
    Consistent { world with file, process := some process } where
  sorted := consistent.sorted
  onDisk := by
    intro number member
    exact Nat.le_trans (bounded number member) agrees.le
  inMemory := by
    intro other same
    have equal : process = other := Option.some.inj same
    subst equal
    exact ⟨agrees, bounded⟩

/-- Without a running process only the bound on the file is left to keep. -/
theorem Consistent.withoutProcess {world : World} (consistent : Consistent world)
    {file : StateFile}
    (bounded : ∀ number ∈ world.served, number ≤ file.number) :
    Consistent { world with file, process := none } where
  sorted := consistent.sorted
  onDisk := bounded
  inMemory := by
    intro process running
    cases running

/-- Opening the store, successfully or not, keeps the invariant: an existing file
is loaded as it is and a new one starts where nothing was served. -/
theorem Consistent.start {world next : World} (consistent : Consistent world)
    {interceptor : Interceptor} {hotshotHeight now : Nat} {statFails written : Bool}
    (transition : world.step interceptor (.start hotshotHeight now statFails written) =
      some next) : Consistent next := by
  obtain ⟨file, process, served⟩ := world
  simp only [World.step] at transition
  cases process with
  | some process => cases transition
  | none =>
      have bound := consistent.onDisk
      have fileAfter := newEspressoStore_file file hotshotHeight now statFails written
      cases opened : newEspressoStore file hotshotHeight now statFails written with
      | mk after result =>
          rw [opened] at transition fileAfter
          cases result with
          | ok state =>
              obtain ⟨held, origin⟩ := newEspressoStore_ok opened
              cases transition
              apply consistent.withProcess ⟨state, .idle⟩ held
              intro number member
              have onDisk := bound number member
              rcases origin with loaded | ⟨missing, fresh⟩
              · simpa [loaded, StateFile.number] using onDisk
              · simpa [missing, fresh, StateFile.number] using onDisk
          | error cause =>
              cases transition
              apply consistent.withoutProcess
              intro number member
              have onDisk := bound number member
              rcases fileAfter with same | ⟨missing, created⟩
              · have unchanged : after = file := same
                rw [unchanged]
                exact onDisk
              · simp only [missing, StateFile.number] at onDisk
                exact Nat.le_trans onDisk (Nat.zero_le _)

/-- Preparing an update changes neither copy: what is prepared is greater than the number
in memory. -/
theorem Consistent.beginUpdate {world next : World} (consistent : Consistent world)
    {interceptor : Interceptor} {number height now : Nat}
    (transition : world.step interceptor (.beginUpdate number height now) = some next) :
    Consistent next := by
  obtain ⟨file, process, served⟩ := world
  simp only [World.step] at transition
  split at transition
  · rename_i state
    obtain ⟨agrees, bounded⟩ := consistent.inMemory _ rfl
    split at transition
    · cases transition
      exact consistent
    · rename_i newState prepared
      cases transition
      obtain ⟨greater, rfl⟩ := prepareUpdate_eq_some.mp prepared
      exact consistent.withProcess ⟨state, .writing _⟩ ⟨agrees, greater⟩ bounded
  · cases transition

/-- A write puts the greater number on disk first, or leaves the file as it was. -/
theorem Consistent.write {world next : World} (consistent : Consistent world)
    {interceptor : Interceptor} {written : Bool}
    (transition : world.step interceptor (.write written) = some next) : Consistent next := by
  obtain ⟨file, process, served⟩ := world
  simp only [World.step] at transition
  split at transition
  · rename_i state newState
    obtain ⟨⟨held, greater⟩, bounded⟩ := consistent.inMemory _ rfl
    cases written with
    | true =>
        cases transition
        exact consistent.withProcess ⟨state, .committing newState⟩ ⟨rfl, greater⟩ bounded
    | false =>
        cases transition
        exact consistent.withProcess ⟨state, .idle⟩ held bounded
  · cases transition

/-- A commit brings into memory what the file already holds. -/
theorem Consistent.commit {world next : World} (consistent : Consistent world)
    {interceptor : Interceptor} (transition : world.step interceptor .commit = some next) :
    Consistent next := by
  obtain ⟨file, process, served⟩ := world
  simp only [World.step] at transition
  split at transition
  · rename_i state newState
    obtain ⟨⟨held, greater⟩, bounded⟩ := consistent.inMemory _ rfl
    cases transition
    apply consistent.withProcess ⟨newState, .idle⟩ held
    intro number member
    exact Nat.le_trans (bounded number member) (Nat.le_of_lt greater)
  · cases transition

/-- Every action keeps the invariant. -/
theorem Consistent.step {world next : World} (consistent : Consistent world)
    {interceptor : Interceptor} {action : Action}
    (transition : world.step interceptor action = some next) : Consistent next := by
  cases action with
  | start hotshotHeight now statFails written => exact consistent.start transition
  | beginUpdate number height now => exact consistent.beginUpdate transition
  | write written => exact consistent.write transition
  | commit => exact consistent.commit transition
  | request request =>
      obtain ⟨file, process, served⟩ := world
      cases process with
      | none => cases transition
      | some process =>
          cases transition
          refine consistent.serve rfl ?_
          intro number member
          exact Interceptor.servedToRequest_eq member
  | batch requests =>
      obtain ⟨file, process, served⟩ := world
      cases process with
      | none => cases transition
      | some process =>
          cases transition
          refine consistent.serve rfl ?_
          intro number member
          exact Interceptor.servedToBatch_eq member
  | crash =>
      cases transition
      exact consistent.withoutProcess consistent.onDisk

/-- In every run the invariant holds, whatever the state file held at first. -/
theorem consistent_of_reaches {interceptor : Interceptor} {file : StateFile}
    {actions : List Action} {world : World}
    (run : (proxyMachine interceptor).Reaches (World.initial file) actions world) :
    Consistent world :=
  run.invariant (consistent_initial file) fun consistent _ transition =>
    consistent.step transition

/-- A running proxy serves a request and a batch what the interceptor puts into them. -/
theorem step_substitutes (interceptor : Interceptor) {world : World} {process : Process}
    (running : world.process = some process) :
    (∀ request, ∃ numbers, (proxyMachine interceptor).step world (.request request) =
        some { world with served := world.served ++ numbers } ∧
      interceptor.Substitutes [request] numbers
        ((interceptor.interceptRequest process.state request).map ([·]))) ∧
    ∀ requests, ∃ numbers, (proxyMachine interceptor).step world (.batch requests) =
        some { world with served := world.served ++ numbers } ∧
      interceptor.Substitutes requests numbers
        (interceptor.interceptBatchRequests process.state requests) := by
  constructor
  · intro request
    refine ⟨_, ?_, Interceptor.servedToRequest_substitutes process.state request⟩
    simp only [proxyMachine, World.step, running]
  · intro requests
    refine ⟨_, ?_, Interceptor.servedToBatch_substitutes process.state requests⟩
    simp only [proxyMachine, World.step, running]

/-- Whole-system monotonicity. In every interleaving of requests, updates, failed
writes, crashes and restarts the numbers served for the tag never decrease in the
order of the reads, and memory is never ahead of the disk; they differ only between
the write and the commit of an update. At every moment of the run, what a request or a
batch would add to the numbers is what the interceptor puts into it. -/
theorem espressoTag_monotone (interceptor : Interceptor) (file : StateFile)
    {actions : List Action} {world : World}
    (run : (proxyMachine interceptor).Reaches (World.initial file) actions world) :
    world.served.Pairwise (· ≤ ·) ∧
      ∀ process, world.process = some process →
        (∃ stored, world.file = .holding stored ∧
          process.state.l2BlockNumber ≤ stored.l2BlockNumber ∧
          (process.state.l2BlockNumber ≠ stored.l2BlockNumber →
            process.update = .committing stored)) ∧
        (∀ request, ∃ numbers, (proxyMachine interceptor).step world (.request request) =
            some { world with served := world.served ++ numbers } ∧
          interceptor.Substitutes [request] numbers
            ((interceptor.interceptRequest process.state request).map ([·]))) ∧
        ∀ requests, ∃ numbers, (proxyMachine interceptor).step world (.batch requests) =
            some { world with served := world.served ++ numbers } ∧
          interceptor.Substitutes requests numbers
            (interceptor.interceptBatchRequests process.state requests) := by
  have consistent := consistent_of_reaches run
  refine ⟨consistent.sorted, fun process running => ⟨?_, step_substitutes interceptor running⟩⟩
  have agrees := (consistent.inMemory process running).1
  obtain ⟨state, update⟩ := process
  cases update with
  | idle => exact ⟨state, agrees, Nat.le_refl _, fun different => absurd rfl different⟩
  | writing newState =>
      exact ⟨state, agrees.1, Nat.le_refl _, fun different => absurd rfl different⟩
  | committing newState => exact ⟨newState, agrees.1, Nat.le_of_lt agrees.2, fun _ => rfl⟩

/-- A run with two updates, a crash between the write and the commit of the second,
and a restart that serves the number that only the disk had. -/
theorem espressoTag_monotone_across_crash :
    let interceptor : Interceptor := ⟨"espresso", 10⟩
    let tagged : Request := ⟨.null, "eth_getBlockByNumber", .array [.string "espresso"], []⟩
    let actions : List Action :=
      [.start 5 1 false true, .beginUpdate 3 6 2, .write true, .request tagged, .commit,
        .request tagged, .beginUpdate 7 8 3, .write true, .crash, .start 5 4 false true,
        .batch [tagged, tagged]]
    ∃ world, (proxyMachine interceptor).Reaches (World.initial .missing) actions world ∧
      world.served = [3, 7, 7] ∧ world.served.Pairwise (· ≤ ·) := by
  intro interceptor tagged actions
  have run : (proxyMachine interceptor).Reaches (World.initial .missing) actions
      ⟨.holding ⟨7, 8, 3⟩, some ⟨⟨7, 8, 3⟩, .idle⟩, [3, 7, 7]⟩ := Machine.Runs.ofExec rfl
  exact ⟨_, run, rfl, (espressoTag_monotone interceptor .missing run).1⟩

end EspressoProxy.Proxy
