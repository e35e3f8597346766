import EspressoProxy.Semantics.Machine
import EspressoProxy.Store.EspressoStore

/-!
# Reopening the state file

A proxy that restarts has only the file. What `UpdateIfGreater` writes and what
`loadFromDisk` accepts are decided in different places: the loader requires a HotShot
height, the update takes any. So the file can be opened again exactly if the last
successful update had a height other than 0.
-/

namespace EspressoProxy.Store

open EspressoProxy.Semantics

/-- `mustCreateEspressoStore`, where `none` is the exit of the process. A missing file
requires an initial HotShot height. -/
def mustCreateEspressoStore (file : StateFile) (initialHotshotHeight now : Nat)
    (statFails written : Bool) : StateFile × Option EspressoState :=
  if statFails = false ∧ file = .missing ∧ initialHotshotHeight = 0 then (file, none)
  else
    match newEspressoStore file initialHotshotHeight now statFails written with
    | (file, .ok state) => (file, some state)
    | (file, .error _) => (file, none)

/-- The arguments of a call of `UpdateIfGreater`, the clock and the outcome of the write. -/
structure Update where
  l2BlockNumber : Nat
  fallbackHotshotHeight : Nat
  now : Nat
  written : Bool
deriving DecidableEq, Repr

/-- A store with its file, and the arguments of the last update that succeeded. -/
structure StoreHistory where
  state : EspressoState
  file : StateFile
  lastNumber : Nat
  lastHeight : Nat
deriving DecidableEq, Repr

/-- A store as it was created. -/
def StoreHistory.created (file : StateFile) (state : EspressoState) : StoreHistory :=
  ⟨state, file, state.l2BlockNumber, state.fallbackHotshotHeight⟩

/-- One call of `UpdateIfGreater`, to its completion. -/
def StoreHistory.update (history : StoreHistory) (update : Update) : StoreHistory :=
  match updateIfGreater history.state history.file update.l2BlockNumber
      update.fallbackHotshotHeight update.now update.written with
  | (state, file, .ok true) =>
      ⟨state, file, update.l2BlockNumber, update.fallbackHotshotHeight⟩
  | (state, file, _) => { history with state, file }

def storeMachine : Machine StoreHistory Update where
  step history update := some (history.update update)

/-- The clock of the machine does not show Go's zero time. -/
def ClockRuns (_ : StoreHistory) (update : Update) : Prop := update.now ≠ 0

instance (history : StoreHistory) (update : Update) : Decidable (ClockRuns history update) :=
  inferInstanceAs (Decidable (update.now ≠ 0))

/-- The file holds the state in memory, which is that of the last successful update. -/
structure StoreHistory.Persisted (history : StoreHistory) : Prop where
  onDisk : history.file = .holding history.state
  number : history.state.l2BlockNumber = history.lastNumber
  height : history.state.fallbackHotshotHeight = history.lastHeight
  dated : history.state.updatedAt ≠ 0

theorem StoreHistory.Persisted.step {history after : StoreHistory} {update : Update}
    (persisted : history.Persisted) (clock : ClockRuns history update)
    (moved : storeMachine.step history update = some after) : after.Persisted := by
  obtain rfl : history.update update = after := Option.some.inj moved
  rcases updateIfGreater_cases history.state history.file update.l2BlockNumber
      update.fallbackHotshotHeight update.now update.written with
    ⟨-, outcome⟩ | ⟨-, -, outcome⟩ | ⟨-, -, outcome⟩
  · rw [StoreHistory.update, outcome]
    exact persisted
  · rw [StoreHistory.update, outcome]
    exact persisted
  · rw [StoreHistory.update, outcome]
    exact ⟨rfl, rfl, rfl, clock⟩

theorem persisted_created {file : StateFile} {state : EspressoState}
    {initialHotshotHeight now : Nat} {statFails written : Bool} (clock : now ≠ 0)
    (created : mustCreateEspressoStore .missing initialHotshotHeight now statFails written =
      (file, some state)) :
    (StoreHistory.created file state).Persisted := by
  unfold mustCreateEspressoStore at created
  split at created
  · cases created
  · split at created
    · rename_i opened
      cases created
      obtain ⟨onDisk, loaded | ⟨-, rfl⟩⟩ := newEspressoStore_ok opened
      · cases loaded
      · exact ⟨onDisk, rfl, rfl, clock⟩
    · cases created

/-- What opening an existing file gives. -/
theorem newEspressoStore_holding (state : EspressoState) (hotshotHeight now : Nat)
    (written : Bool) :
    newEspressoStore (.holding state) hotshotHeight now false written =
      (.holding state, if state.fallbackHotshotHeight = 0 ∨ state.updatedAt = 0 then
        .error (.loadFailed .missingRequiredFields) else .ok state) := by
  by_cases rejected : state.fallbackHotshotHeight = 0 ∨ state.updatedAt = 0
  · simp [newEspressoStore, loadFromDisk, rejected]
  · simp [newEspressoStore, loadFromDisk, rejected]

/-- After any calls of `UpdateIfGreater` on a fresh store, the file opens again and gives
the number and the height of the last successful update, or of the creation, exactly if
that height is not 0. -/
theorem reopened_store_holds_last_update {file : StateFile} {state : EspressoState}
    {initialHotshotHeight now : Nat} {statFails written : Bool} {updates : List Update}
    {after : StoreHistory} (clock : now ≠ 0)
    (created : mustCreateEspressoStore .missing initialHotshotHeight now statFails written =
      (file, some state))
    (run : storeMachine.Runs ClockRuns (.created file state) updates after)
    (hotshotHeight later : Nat) (rewritten : Bool) :
    (∃ reopened, newEspressoStore after.file hotshotHeight later false rewritten =
        (after.file, .ok reopened) ∧
      reopened.l2BlockNumber = after.lastNumber ∧
      reopened.fallbackHotshotHeight = after.lastHeight) ↔
    after.lastHeight ≠ 0 := by
  have persisted : after.Persisted := run.invariant (persisted_created clock created)
    fun persisted clock moved => persisted.step clock moved
  rw [persisted.onDisk, newEspressoStore_holding, ← persisted.height, ← persisted.number]
  by_cases missing : after.state.fallbackHotshotHeight = 0
  · simp [missing]
  · simp [missing, persisted.dated]

/-- Two updates succeed and the write of a third one fails. -/
theorem reopened_store_holds_second_update :
    ∃ after, storeMachine.Runs ClockRuns (.created (.holding ⟨0, 3, 1⟩) ⟨0, 3, 1⟩)
        [⟨5, 4, 2, true⟩, ⟨9, 6, 3, true⟩, ⟨12, 8, 4, false⟩] after ∧
      ∃ reopened, newEspressoStore after.file 3 9 false true = (after.file, .ok reopened) ∧
        reopened.l2BlockNumber = 9 ∧ reopened.fallbackHotshotHeight = 6 := by
  obtain ⟨after, computed, number, height⟩ : ∃ after,
      storeMachine.exec ClockRuns (.created (.holding ⟨0, 3, 1⟩) ⟨0, 3, 1⟩)
        [⟨5, 4, 2, true⟩, ⟨9, 6, 3, true⟩, ⟨12, 8, 4, false⟩] = some after ∧
      after.lastNumber = 9 ∧ after.lastHeight = 6 := ⟨_, rfl, rfl, rfl⟩
  have run := Machine.Runs.ofExec computed
  have created : mustCreateEspressoStore .missing 3 1 false true =
      (.holding ⟨0, 3, 1⟩, some ⟨0, 3, 1⟩) := by decide
  have reopens := (reopened_store_holds_last_update (by decide) created run 3 9 true).mpr
    (by rw [height]; decide)
  rw [number, height] at reopens
  exact ⟨after, run, reopens⟩

/-- An update with the height 0 succeeds, and the file it leaves is rejected when the store
is opened again. -/
theorem reopened_store_rejected :
    mustCreateEspressoStore .missing 3 1 false true =
      (.holding ⟨0, 3, 1⟩, some ⟨0, 3, 1⟩) ∧
    ∃ after, storeMachine.Runs ClockRuns (.created (.holding ⟨0, 3, 1⟩) ⟨0, 3, 1⟩)
        [⟨5, 0, 2, true⟩] after ∧
      newEspressoStore after.file 3 9 false true =
        (after.file, .error (.loadFailed .missingRequiredFields)) := by
  obtain ⟨after, computed, rejected⟩ : ∃ after,
      storeMachine.exec ClockRuns (.created (.holding ⟨0, 3, 1⟩) ⟨0, 3, 1⟩)
        [⟨5, 0, 2, true⟩] = some after ∧
      newEspressoStore after.file 3 9 false true =
        (after.file, .error (.loadFailed .missingRequiredFields)) := ⟨_, rfl, rfl⟩
  exact ⟨by decide, after, Machine.Runs.ofExec computed, rejected⟩

end EspressoProxy.Store
