import EspressoProxy.JsonRpc.Types
import EspressoProxy.Semantics.Traversal
import EspressoProxy.Store.EspressoStore

/-!
# Interception of JSON-RPC requests

The interceptor reads the store once per call and replaces every string equal to
the configured tag in the parameters of the requests by the block number it read.
-/

namespace EspressoProxy.Proxy

open EspressoProxy.JsonRpc EspressoProxy.Semantics EspressoProxy.Store

def maxJSONDepth : Nat := 32

/-- The configuration of an interceptor; the store is an argument of the calls. -/
structure Interceptor where
  espressoTag : String
  maxBatchSize : Nat

/-- The errors of an interception, with the error object they carry to the client
and the context each level of the walk adds. -/
inductive InterceptError where
  | maxJSONDepthExceeded (error : Error)
  | maxBatchSizeExceeded (error : Error)
  | wrapped (context : String) (cause : InterceptError)
deriving DecidableEq, Repr

/-- The error that the contexts of the walk are wrapped around. -/
def InterceptError.root : InterceptError → InterceptError
  | .wrapped _ cause => cause.root
  | cause => cause

/-- The text `fmt.Sprintf("0x%x", number)`. -/
def hexBlockNumber (number : Nat) : String := "0x" ++ String.ofList (Nat.toDigits 16 number)

def depthError : InterceptError :=
  .maxJSONDepthExceeded
    ⟨codeInternalError, s!"JSON nesting depth exceeds limit of {maxJSONDepth}"⟩

/-- The assignment `nextParams[key] = next` on a copy of the ranged object. -/
def assignMember (members : List (String × Json)) (key : String) (next : Json) :
    List (String × Json) :=
  members.map fun member => if member.1 = key then (key, next) else member

mutual

/-- Walk a value and replace the strings equal to the tag. The flag says whether
anything was replaced; a value that was not changed is returned as it came. -/
def replaceTagInParams (tag : String) (number : Nat) (params : Json) (depth : Nat) :
    Except InterceptError (Json × Bool) :=
  if depth > maxJSONDepth then .error depthError
  else
    match params with
    | .string text =>
        if text = tag then .ok (.string (hexBlockNumber number), true)
        else .ok (.string text, false)
    | .object members =>
        match replaceTagInMembers tag number members members none (depth + 1) with
        | .error cause => .error cause
        | .ok (some nextParams) => .ok (.object nextParams, true)
        | .ok none => .ok (.object members, false)
    | .array items =>
        match replaceTagInItems tag number items items 0 none (depth + 1) with
        | .error cause => .error cause
        | .ok (some nextParams) => .ok (.array nextParams, true)
        | .ok none => .ok (.array items, false)
    | .null => .ok (.null, false)
    | .bool value => .ok (.bool value, false)
    | .number literal => .ok (.number literal, false)

/-- The loop over the members of the object `cast`, which is copied at the first
member that changes. `nextParams` is the copy, once there is one. -/
def replaceTagInMembers (tag : String) (number : Nat) (cast : List (String × Json)) :
    List (String × Json) → Option (List (String × Json)) → Nat →
      Except InterceptError (Option (List (String × Json)))
  | [], nextParams, _ => .ok nextParams
  | (key, value) :: rest, nextParams, depth =>
      match replaceTagInParams tag number value depth with
      | .error cause => .error (.wrapped "failed to replace espresso tag in object" cause)
      | .ok (_, false) => replaceTagInMembers tag number cast rest nextParams depth
      | .ok (next, true) =>
          replaceTagInMembers tag number cast rest
            (some (assignMember (nextParams.getD cast) key next)) depth

/-- The loop over the elements of the array `cast` from index `index` on. The copy
starts as a slice of `nil`s of the same length that holds the elements already
passed, and every later element is written into it. -/
def replaceTagInItems (tag : String) (number : Nat) (cast : List Json) :
    List Json → Nat → Option (List Json) → Nat → Except InterceptError (Option (List Json))
  | [], _, nextParams, _ => .ok nextParams
  | value :: rest, index, nextParams, depth =>
      match replaceTagInParams tag number value depth with
      | .error cause => .error (.wrapped "failed to replace espresso tag in array" cause)
      | .ok (_, false) =>
          replaceTagInItems tag number cast rest (index + 1)
            (nextParams.map fun copied => copied.set index value) depth
      | .ok (next, true) =>
          let copied := nextParams.getD
            (cast.take index ++ List.replicate (cast.length - index) .null)
          replaceTagInItems tag number cast rest (index + 1) (some (copied.set index next)) depth

end

namespace Interceptor

variable (interceptor : Interceptor)

/-- The finalized block number of a state that is complete enough to be trusted. -/
def getCurrentEspressoFinalizedBlockNumber (state : EspressoState) : Option Nat :=
  if state.fallbackHotshotHeight = 0 ∨ state.l2BlockNumber = 0 ∨ state.updatedAt = 0 then none
  else some state.l2BlockNumber

/-- Replace the tag in one request; the request is rebuilt only if it changed. -/
def interceptRequestWithNumber (request : Request) (number : Nat) : Except InterceptError Request :=
  match replaceTagInParams interceptor.espressoTag number request.params 0 with
  | .error cause => .error cause
  | .ok (_, false) => .ok request
  | .ok (nextParams, true) => .ok { request with params := nextParams }

/-- `InterceptRequest` on the state it reads from the store. Without a trusted
number the request passes unchanged. -/
def interceptRequest (state : EspressoState) (request : Request) :
    Except InterceptError Request :=
  match getCurrentEspressoFinalizedBlockNumber state with
  | none => .ok request
  | some number => interceptor.interceptRequestWithNumber request number

def batchSizeError (count : Nat) : InterceptError :=
  .maxBatchSizeExceeded ⟨codeInvalidRequest,
    s!"batch size {count} exceeds maximum batch size of {interceptor.maxBatchSize}"⟩

/-- `InterceptBatchRequests` on the state it reads from the store. The first
request that fails makes the whole batch fail. -/
def interceptBatchRequests (state : EspressoState) (requests : List Request) :
    Except InterceptError (List Request) :=
  if requests.length > interceptor.maxBatchSize then
    .error (interceptor.batchSizeError requests.length)
  else
    match getCurrentEspressoFinalizedBlockNumber state with
    | none => .ok requests
    | some number =>
        requests.mapM fun request => interceptor.interceptRequestWithNumber request number

/-- Whether rewriting a request with `number` replaces some occurrence of the tag. -/
def substitutes (request : Request) (number : Nat) : Bool :=
  match replaceTagInParams interceptor.espressoTag number request.params 0 with
  | .ok (_, changed) => changed
  | .error _ => false

/-- The numbers that a single request of a client gets in place of the tag. -/
def servedToRequest (state : EspressoState) (request : Request) : List Nat :=
  match getCurrentEspressoFinalizedBlockNumber state with
  | none => []
  | some number => if interceptor.substitutes request number then [number] else []

/-- The numbers that the requests of a batch get in place of the tag. A batch that
fails is not forwarded and gets none. -/
def servedToBatch (state : EspressoState) (requests : List Request) : List Nat :=
  match interceptor.interceptBatchRequests state requests with
  | .error _ => []
  | .ok _ => requests.flatMap (interceptor.servedToRequest state)

variable {interceptor}

theorem getCurrentEspressoFinalizedBlockNumber_eq {state : EspressoState} {number : Nat}
    (known : getCurrentEspressoFinalizedBlockNumber state = some number) :
    number = state.l2BlockNumber := by
  unfold getCurrentEspressoFinalizedBlockNumber at known
  split at known
  · cases known
  · exact (Option.some.inj known).symm

/-- What a request is forwarded as, with the numbers that it got in place of the tag. -/
inductive Puts (interceptor : Interceptor) (request : Request) : Request → List Nat → Prop where
  | unchanged : Puts interceptor request request []
  | replaced {number : Nat} {nextParams : Json}
      (replaced : replaceTagInParams interceptor.espressoTag number request.params 0 =
        .ok (nextParams, true)) :
      Puts interceptor request { request with params := nextParams } [number]

/-- The same for requests that are forwarded together, in their order. -/
inductive PutsAll (interceptor : Interceptor) :
    List Request → List Request → List Nat → Prop where
  | nil : PutsAll interceptor [] [] []
  | cons {request forwarded : Request} {rest restForwarded : List Request}
      {numbers restNumbers : List Nat} (first : Puts interceptor request forwarded numbers)
      (others : PutsAll interceptor rest restForwarded restNumbers) :
      PutsAll interceptor (request :: rest) (forwarded :: restForwarded)
        (numbers ++ restNumbers)

/-- The numbers are those that went out in place of the tag: none if the requests are
refused. -/
def Substitutes (interceptor : Interceptor) (requests : List Request) (numbers : List Nat) :
    Except InterceptError (List Request) → Prop
  | .error _ => numbers = []
  | .ok forwarded => PutsAll interceptor requests forwarded numbers

/-- What a request is served is what `InterceptRequest` puts into it, and nothing if that
refuses it. -/
theorem interceptRequest_served (interceptor : Interceptor) (state : EspressoState)
    (request : Request) :
    (∃ forwarded, interceptor.interceptRequest state request = .ok forwarded ∧
      Puts interceptor request forwarded (interceptor.servedToRequest state request)) ∨
    ∃ cause, interceptor.interceptRequest state request = .error cause ∧
      interceptor.servedToRequest state request = [] := by
  cases known : getCurrentEspressoFinalizedBlockNumber state with
  | none =>
      simp only [interceptRequest, servedToRequest, known]
      exact .inl ⟨request, rfl, .unchanged⟩
  | some number =>
      cases replaced : replaceTagInParams interceptor.espressoTag number request.params 0 with
      | error cause =>
          simp only [interceptRequest, servedToRequest, known, interceptRequestWithNumber,
            substitutes, replaced]
          exact .inr ⟨cause, rfl, rfl⟩
      | ok outcome =>
          obtain ⟨nextParams, changed⟩ := outcome
          cases changed with
          | false =>
              simp only [interceptRequest, servedToRequest, known, interceptRequestWithNumber,
                substitutes, replaced]
              exact .inl ⟨request, rfl, .unchanged⟩
          | true =>
              simp only [interceptRequest, servedToRequest, known, interceptRequestWithNumber,
                substitutes, replaced]
              exact .inl ⟨_, rfl, .replaced replaced⟩

theorem servedToRequest_substitutes (state : EspressoState) (request : Request) :
    Substitutes interceptor [request] (interceptor.servedToRequest state request)
      ((interceptor.interceptRequest state request).map ([·])) := by
  rcases interceptor.interceptRequest_served state request with
    ⟨forwarded, intercepted, puts⟩ | ⟨cause, refused, nothing⟩
  · rw [intercepted, ← List.append_nil (interceptor.servedToRequest state request)]
    exact .cons puts .nil
  · rw [refused]
    exact nothing

/-- A batch within the limit is intercepted request by request, all on the one state
that was read. -/
theorem interceptBatchRequests_eq_mapM (state : EspressoState) {requests : List Request}
    (within : requests.length ≤ interceptor.maxBatchSize) :
    interceptor.interceptBatchRequests state requests =
      requests.mapM (interceptor.interceptRequest state) := by
  unfold interceptBatchRequests
  rw [if_neg (Nat.not_lt.mpr within)]
  cases known : getCurrentEspressoFinalizedBlockNumber state with
  | none =>
      have unchanged : interceptor.interceptRequest state = fun request => pure request := by
        funext request
        simp [interceptRequest, known, pure, Except.pure]
      rw [unchanged, List.mapM_pure, List.map_id']
      rfl
  | some number =>
      have rewritten : interceptor.interceptRequest state =
          fun request => interceptor.interceptRequestWithNumber request number := by
        funext request
        simp [interceptRequest, known]
      rw [rewritten]

theorem putsAll_of_forall₂ {state : EspressoState} {requests forwarded : List Request}
    (each : List.Forall₂ (fun request result =>
      interceptor.interceptRequest state request = .ok result) requests forwarded) :
    PutsAll interceptor requests forwarded
      (requests.flatMap (interceptor.servedToRequest state)) := by
  induction each with
  | nil => exact .nil
  | @cons request result _ _ intercepted _ inductionHypothesis =>
      rcases interceptor.interceptRequest_served state request with
        ⟨_, same, puts⟩ | ⟨cause, refused, -⟩
      · obtain rfl := Except.ok.inj (same.symm.trans intercepted)
        exact .cons puts inductionHypothesis
      · rw [refused] at intercepted
        cases intercepted

/-- What a batch is served goes out in place of the tag, and nothing else. -/
theorem servedToBatch_substitutes (state : EspressoState) (requests : List Request) :
    Substitutes interceptor requests (interceptor.servedToBatch state requests)
      (interceptor.interceptBatchRequests state requests) := by
  unfold servedToBatch
  cases intercepted : interceptor.interceptBatchRequests state requests with
  | error cause => rfl
  | ok forwarded =>
      have within : requests.length ≤ interceptor.maxBatchSize := by
        by_contra tooMany
        rw [interceptBatchRequests, if_pos (Nat.lt_of_not_le tooMany)] at intercepted
        cases intercepted
      rw [interceptBatchRequests_eq_mapM state within] at intercepted
      rcases mapM_cases requests with ⟨results, whole, each⟩ | ⟨cause, failed, -⟩
      · obtain rfl := Except.ok.inj (whole.symm.trans intercepted)
        exact putsAll_of_forall₂ each
      · rw [failed] at intercepted
        cases intercepted

/-- A request is only ever served the number in the state that was read. -/
theorem servedToRequest_eq {state : EspressoState} {request : Request} {number : Nat}
    (served : number ∈ interceptor.servedToRequest state request) :
    number = state.l2BlockNumber := by
  unfold servedToRequest at served
  split at served
  · cases served
  · rename_i current known
    split at served
    · rw [List.mem_singleton] at served
      rw [served]
      exact getCurrentEspressoFinalizedBlockNumber_eq known
    · cases served

/-- All requests of a batch are served the number in the one state that was read. -/
theorem servedToBatch_eq {state : EspressoState} {requests : List Request} {number : Nat}
    (served : number ∈ interceptor.servedToBatch state requests) :
    number = state.l2BlockNumber := by
  unfold servedToBatch at served
  split at served
  · cases served
  · obtain ⟨request, -, member⟩ := List.mem_flatMap.mp served
    exact servedToRequest_eq member

end Interceptor
end EspressoProxy.Proxy
