import Mathlib.Data.Nat.Basic

/-!
# The persisted state of the proxy

`EspressoStore` keeps one `EspressoState` in memory and one copy of it in a file.
The file is only ever replaced as a whole, and `encoding/json` is taken to give
back the state it was given, so the contents of the file are a state. What the
clock and the file system answer are arguments.
-/

namespace EspressoProxy.Store

/-- The metadata of the proxy. `updatedAt` is a time stamp whose value `0` stands
for Go's zero time. -/
structure EspressoState where
  l2BlockNumber : Nat
  fallbackHotshotHeight : Nat
  updatedAt : Nat
deriving DecidableEq, Repr

/-- What is found at the path of the store. -/
inductive StateFile where
  | missing
  | malformed
  | holding (state : EspressoState)
deriving DecidableEq, Repr

/-- The block number in a file, `0` where there is no state. -/
def StateFile.number : StateFile → Nat
  | .holding state => state.l2BlockNumber
  | _ => 0

/-- The error returns of the store, from the innermost cause outwards. -/
inductive StoreError where
  | statFailed
  | readFailed
  | malformedState
  | missingRequiredFields
  | writeFailed
  | loadFailed (cause : StoreError)
  | initialWriteFailed (cause : StoreError)
  | updateWriteFailed (cause : StoreError)
deriving DecidableEq, Repr

/-- Read the state file and reject a state whose required fields are missing. -/
def loadFromDisk : StateFile → Except StoreError EspressoState
  | .missing => .error .readFailed
  | .malformed => .error .malformedState
  | .holding state =>
      if state.fallbackHotshotHeight = 0 ∨ state.updatedAt = 0 then
        .error .missingRequiredFields
      else .ok state

/-- Replace the file. `written` is the outcome of creating, encoding, syncing and
renaming the temporary file; a failure leaves the file as it was. -/
def writeToDisk (file : StateFile) (newState : EspressoState) (written : Bool) :
    StateFile × Except StoreError Unit :=
  if written then (.holding newState, .ok ()) else (file, .error .writeFailed)

/-- Open the store: load an existing file, or create it with the given HotShot
height. `statFails` is a failure of `os.Stat` other than a missing file. -/
def newEspressoStore (file : StateFile) (hotshotHeight now : Nat) (statFails written : Bool) :
    StateFile × Except StoreError EspressoState :=
  if statFails then (file, .error .statFailed)
  else
    match file with
    | .missing =>
        let state : EspressoState := ⟨0, hotshotHeight, now⟩
        match writeToDisk file state written with
        | (file, .ok ()) => (file, .ok state)
        | (file, .error cause) => (file, .error (.initialWriteFailed cause))
    | _ =>
        match loadFromDisk file with
        | .ok state => (file, .ok state)
        | .error cause => (file, .error (.loadFailed cause))

/-- The first part of `UpdateIfGreater`: compare with the state in memory and
prepare the state to be written, or nothing when the number is not greater. -/
def prepareUpdate (state : EspressoState) (l2BlockNumber fallbackHotshotHeight now : Nat) :
    Option EspressoState :=
  if state.l2BlockNumber ≥ l2BlockNumber then none
  else some ⟨l2BlockNumber, fallbackHotshotHeight, now⟩

/-- `UpdateIfGreater` run without interruption, on the state in memory and the
file. -/
def updateIfGreater (state : EspressoState) (file : StateFile)
    (l2BlockNumber fallbackHotshotHeight now : Nat) (written : Bool) :
    EspressoState × StateFile × Except StoreError Bool :=
  match prepareUpdate state l2BlockNumber fallbackHotshotHeight now with
  | none => (state, file, .ok false)
  | some newState =>
      match writeToDisk file newState written with
      | (file, .ok ()) => (newState, file, .ok true)
      | (file, .error cause) => (state, file, .error (.updateWriteFailed cause))

variable {state newState : EspressoState} {number height now : Nat}

/-- A prepared update carries the arguments and moves the number forward. -/
theorem prepareUpdate_eq_some :
    prepareUpdate state number height now = some newState ↔
      state.l2BlockNumber < number ∧ newState = ⟨number, height, now⟩ := by
  unfold prepareUpdate
  split <;> rename_i compared
  · simp only [reduceCtorEq, false_iff, not_and]
    intro greater
    omega
  · simp only [Option.some.injEq]
    constructor
    · rintro rfl
      exact ⟨by omega, rfl⟩
    · rintro ⟨-, rfl⟩
      rfl

/-- The three outcomes of an uninterrupted update: nothing to do, a failed write
that changes nothing, or a write that both copies then hold. -/
theorem updateIfGreater_cases (state : EspressoState) (file : StateFile)
    (number height now : Nat) (written : Bool) :
    (number ≤ state.l2BlockNumber ∧
      updateIfGreater state file number height now written = (state, file, .ok false)) ∨
    (state.l2BlockNumber < number ∧ written = false ∧
      updateIfGreater state file number height now written =
        (state, file, .error (.updateWriteFailed .writeFailed))) ∨
    (state.l2BlockNumber < number ∧ written = true ∧
      updateIfGreater state file number height now written =
        (⟨number, height, now⟩, .holding ⟨number, height, now⟩, .ok true)) := by
  by_cases greater : state.l2BlockNumber < number
  · have prepared : prepareUpdate state number height now = some ⟨number, height, now⟩ :=
      prepareUpdate_eq_some.mpr ⟨greater, rfl⟩
    cases written with
    | false => exact .inr (.inl ⟨greater, rfl, by simp [updateIfGreater, prepared, writeToDisk]⟩)
    | true => exact .inr (.inr ⟨greater, rfl, by simp [updateIfGreater, prepared, writeToDisk]⟩)
  · have nothing : prepareUpdate state number height now = none :=
      Option.eq_none_iff_forall_ne_some.mpr fun _ prepared =>
        greater (prepareUpdate_eq_some.mp prepared).1
    exact .inl ⟨by omega, by simp [updateIfGreater, nothing]⟩

/-- A store that opens holds what the file holds afterwards. -/
theorem newEspressoStore_ok {file after : StateFile} {hotshotHeight : Nat}
    {statFails written : Bool}
    (opened : newEspressoStore file hotshotHeight now statFails written = (after, .ok state)) :
    after = .holding state ∧
      (file = .holding state ∨ file = .missing ∧ state = ⟨0, hotshotHeight, now⟩) := by
  unfold newEspressoStore at opened
  cases statFails with
  | true => simp at opened
  | false =>
      cases file with
      | missing =>
          cases written with
          | false => simp [writeToDisk] at opened
          | true =>
              simp only [Bool.false_eq_true, if_false, writeToDisk, if_true, Prod.mk.injEq,
                Except.ok.injEq] at opened
              obtain ⟨rfl, rfl⟩ := opened
              exact ⟨rfl, .inr ⟨rfl, rfl⟩⟩
      | malformed => simp [loadFromDisk] at opened
      | holding stored =>
          by_cases rejected : stored.fallbackHotshotHeight = 0 ∨ stored.updatedAt = 0
          · simp [loadFromDisk, rejected] at opened
          · simp only [Bool.false_eq_true, if_false, loadFromDisk, rejected, Prod.mk.injEq,
              Except.ok.injEq] at opened
            obtain ⟨rfl, rfl⟩ := opened
            exact ⟨rfl, .inl rfl⟩

/-- Opening a store never replaces an existing file. -/
theorem newEspressoStore_file (file : StateFile) (hotshotHeight now : Nat)
    (statFails written : Bool) :
    (newEspressoStore file hotshotHeight now statFails written).1 = file ∨
      file = .missing ∧ (newEspressoStore file hotshotHeight now statFails written).1 =
        .holding ⟨0, hotshotHeight, now⟩ := by
  unfold newEspressoStore
  cases statFails with
  | true => exact .inl rfl
  | false =>
      cases file with
      | missing => cases written <;> simp [writeToDisk]
      | malformed => exact .inl rfl
      | holding stored =>
          by_cases rejected : stored.fallbackHotshotHeight = 0 ∨ stored.updatedAt = 0 <;>
            simp [loadFromDisk, rejected]

end EspressoProxy.Store
