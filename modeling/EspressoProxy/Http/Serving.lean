import EspressoProxy.Http.Middlewares
import Mathlib.Algebra.GroupWithZero.Nat

/-!
# What is written to a client

The server of `createHttpServer` routes a request by its path and logs it. The replies of
`Middlewares` are written through an `http.ResponseWriter`, inside two wrappers of the proxy:
`statusResponseWriter` notes the last code for the log, and `trackingResponseWriter` whether
anything was written, so that `RecoveryMiddleware` can still answer after a panic.

A handler is the calls it makes on the writer and how it ends. The writer of the server is that
of `net/http`: the first final code is the status, codes from 100 to 199 are sent at once and
leave it open, a later code is ignored, an impossible one panics, and a write without a code
means 200. A body is sent unless the request is a `HEAD` request or the status allows none, and
only as long as it does not exceed the length that the header declares.
-/

namespace EspressoProxy.Http

open EspressoProxy.Adapters EspressoProxy.JsonRpc EspressoProxy.Proxy EspressoProxy.Store

def methodHead : String := "HEAD"
def statusOK : Nat := 200
def statusInternalServerError : Nat := 500
def statusServiceUnavailable : Nat := 503

/-- A piece of a body: a line of `http.Error`, an encoded value, or bytes from upstream. -/
inductive Chunk (Text : Type) where
  | line (message : String)
  | json (value : Json)
  | copied (data : Text)

inductive WriterCall (Text : Type) where
  | set (key value : String)
  | add (key value : String)
  | del (key : String)
  | writeHeader (code : Nat)
  | write (chunk : Chunk Text)

/-- What a handler does: its calls in their order, and whether it panics after them. -/
structure Behaviour (Text : Type) where
  calls : List (WriterCall Text)
  panics : Bool

/-- A response to a request with the method, in the making: what `net/http` keeps of it, and the
notes of the two wrappers. -/
structure Exchange (Text : Type) where
  method : String
  header : Header
  informational : List Nat
  committed : Option (Nat × Header)
  contentLength : Option Nat
  written : Nat
  body : List (Chunk Text)
  wroteHeader : Bool
  statusCode : Nat

variable {Text : Type} (bytes : Chunk Text → Nat)

def Exchange.initial (method : String) : Exchange Text :=
  ⟨method, ∅, [], none, none, 0, [], false, statusOK⟩

def isInformational (code : Nat) : Bool := 100 ≤ code ∧ code ≤ 199 ∧ code ≠ 101

def bodyAllowedForStatus (status : Nat) : Bool :=
  ¬ (100 ≤ status ∧ status ≤ 199) ∧ status ≠ 204 ∧ status ≠ 304

/-- The decimal number below `2 ^ 63` that is written without a sign. -/
def parseLength (digits : List Char) : Option Nat :=
  if digits ≠ [] ∧ digits.all Char.isDigit then
    some (Nat.ofDigitChars 10 digits 0) |>.filter (· < 0x8000000000000000)
  else none

/-- The length that a header declares, as `strconv.ParseInt` reads it. A negative one is none. -/
def declaredLength (header : Header) : Option Nat :=
  match (header.get "Content-Length").toList with
  | '+' :: digits => parseLength digits
  | '-' :: digits => (parseLength digits).filter (· = 0)
  | digits => parseLength digits

/-- Whether a body is sent at all. -/
def sendsBody (method : String) (status : Nat) : Bool :=
  method ≠ methodHead ∧ bodyAllowedForStatus status

namespace Exchange

/-- Decide on the status, and on the length of the body. -/
def commit (exchange : Exchange Text) (status : Nat) : Exchange Text :=
  { exchange with
    committed := some (status, exchange.header)
    contentLength := declaredLength exchange.header }

/-- `WriteHeader` through both wrappers, and whether it panics. They take note of the code
first. -/
def writeHeader (exchange : Exchange Text) (code : Nat) : Exchange Text × Bool :=
  let noted := { exchange with wroteHeader := true, statusCode := code }
  if exchange.committed.isSome then (noted, false)
  else if code < 100 ∨ 999 < code then (noted, true)
  else if isInformational code then
    ({ noted with informational := exchange.informational ++ [code] }, false)
  else (noted.commit code, false)

/-- The rest of `Write` once there is a status. A piece that does not fit into the declared
length counts, so that none fits after it. -/
def append (exchange : Exchange Text) (status : Nat) (chunk : Chunk Text) : Exchange Text :=
  if bodyAllowedForStatus status then
    let written := exchange.written + bytes chunk
    { exchange with
      written
      body := if exchange.method ≠ methodHead ∧ exchange.contentLength.all (written ≤ ·) then
          exchange.body ++ [chunk]
        else exchange.body }
  else exchange

/-- `Write`, which `statusResponseWriter` does not see. -/
def write (exchange : Exchange Text) (chunk : Chunk Text) : Exchange Text :=
  let noted := { exchange with wroteHeader := true }
  match exchange.committed with
  | some (status, _) => noted.append bytes status chunk
  | none => (noted.commit statusOK).append bytes statusOK chunk

def call (exchange : Exchange Text) : WriterCall Text → Exchange Text × Bool
  | .set key value => ({ exchange with header := exchange.header.set key value }, false)
  | .add key value => ({ exchange with header := exchange.header.add key value }, false)
  | .del key => ({ exchange with header := exchange.header.del key }, false)
  | .writeHeader code => exchange.writeHeader code
  | .write chunk => (exchange.write bytes chunk, false)

/-- The calls of a handler, up to one that panics. -/
def run : Exchange Text → List (WriterCall Text) → Exchange Text × Bool
  | exchange, [] => (exchange, false)
  | exchange, call :: rest =>
      if (exchange.call bytes call).2 then exchange.call bytes call
      else (exchange.call bytes call).1.run rest

/-- What is sent once the handler has returned. -/
def status (exchange : Exchange Text) : Nat := (exchange.committed.map Prod.fst).getD statusOK

end Exchange

/-- A handler on the writer it is given, and whether a panic leaves it. -/
abbrev WriterHandler (Text : Type) := Exchange Text → Exchange Text × Bool

def Behaviour.handle (behaviour : Behaviour Text) : WriterHandler Text := fun exchange =>
  let served := exchange.run bytes behaviour.calls
  (served.1, served.2 || behaviour.panics)

/-- `http.Error`. -/
def httpError (message : String) (code : Nat) : List (WriterCall Text) :=
  [.del "Content-Length", .set "Content-Type" "text/plain; charset=utf-8",
    .set "X-Content-Type-Options" "nosniff", .writeHeader code, .write (.line message)]

/-- `httpPanicRecoveryMiddleware.ServeHTTP`. -/
def recoveryMiddleware (next : WriterHandler Text) : WriterHandler Text := fun exchange =>
  let handled := next exchange
  if handled.2 = true ∧ handled.1.wroteHeader = false then
    handled.1.run bytes (httpError "internal server error" statusInternalServerError)
  else (handled.1, false)

/-- `httpRequestLoggingMiddleware.ServeHTTP`: what is sent, and the status in the log, unless a
panic prevents the log. -/
def requestLoggingMiddleware (next : WriterHandler Text) (method : String) :
    Exchange Text × Option Nat :=
  let served := next (.initial method)
  (served.1, if served.2 then none else some served.1.statusCode)

/-! ### One response -/

/-- The status that calls commit to, if they do: the first final code, or 200 if something is
written before. -/
def firstStatus : List (WriterCall Text) → Option Nat
  | [] => none
  | .set _ _ :: rest | .add _ _ :: rest | .del _ :: rest => firstStatus rest
  | .writeHeader code :: rest =>
      if code < 100 ∨ 999 < code then none
      else if isInformational code then firstStatus rest
      else some code
  | .write _ :: _ => some statusOK

/-- The header at the call that decides on the status. -/
def headerAtStatus : Header → List (WriterCall Text) → Header
  | header, [] => header
  | header, .set key value :: rest => headerAtStatus (header.set key value) rest
  | header, .add key value :: rest => headerAtStatus (header.add key value) rest
  | header, .del key :: rest => headerAtStatus (header.del key) rest
  | header, .writeHeader code :: rest =>
      if isInformational code then headerAtStatus header rest else header
  | header, .write _ :: _ => header

/-- The call is one that `trackingResponseWriter` takes note of. -/
def WriterCall.isWrite : WriterCall Text → Bool
  | .writeHeader _ | .write _ => true
  | .set _ _ | .add _ _ | .del _ => false

def WriterCall.chunk? : WriterCall Text → Option (Chunk Text)
  | .write chunk => some chunk
  | _ => none

/-- The code that a call notes. -/
def WriterCall.code? : WriterCall Text → Option Nat
  | .writeHeader code => some code
  | _ => none

/-- The pieces up to the one that does not fit into the length, after some bytes. -/
def within (length : Option Nat) : Nat → List (Chunk Text) → List (Chunk Text)
  | _, [] => []
  | written, chunk :: rest =>
      if length.all (written + bytes chunk ≤ ·) then
        chunk :: within length (written + bytes chunk) rest
      else []

/-- Everything that is written, where a body is sent, up to the declared length. -/
def bodyOf (method : String) (status : Nat) (length : Option Nat) (written : Nat)
    (calls : List (WriterCall Text)) : List (Chunk Text) :=
  if sendsBody method status then within bytes length written (calls.filterMap WriterCall.chunk?)
  else []

/-- Nothing fits any more once the length is exceeded. -/
theorem within_of_exceeded {bytes : Chunk Text → Nat} {length : Option Nat} {written : Nat}
    (exceeded : length.all (written ≤ ·) = false) (chunks : List (Chunk Text)) :
    within bytes length written chunks = [] := by
  cases chunks with
  | nil => rfl
  | cons chunk rest =>
      obtain ⟨limit, rfl, beyond⟩ : ∃ limit, length = some limit ∧ limit < written := by
        cases length with
        | none => cases exceeded
        | some limit => exact ⟨limit, rfl, by simpa using exceeded⟩
      rw [within, if_neg]
      simp only [Option.all_some, decide_eq_true_eq]
      omega

theorem within_none (written : Nat) (chunks : List (Chunk Text)) :
    within bytes none written chunks = chunks := by
  induction chunks generalizing written with
  | nil => rfl
  | cons chunk rest inductionHypothesis => rw [within, inductionHypothesis]; rfl

theorem bodyOf_cons_of_quiet {call : WriterCall Text} (quiet : call.chunk? = none)
    (method : String) (status : Nat) (length : Option Nat) (written : Nat)
    (rest : List (WriterCall Text)) :
    bodyOf bytes method status length written (call :: rest) =
      bodyOf bytes method status length written rest := by
  rw [bodyOf, List.filterMap_cons_none quiet, bodyOf]

namespace Exchange

/-- What a call does to a response that has its status: it goes on, and adds to the body what
the call is to send. -/
structure Continues (exchange after : Exchange Text) (call : WriterCall Text) (status : Nat) :
    Prop where
  committed : after.committed = exchange.committed
  method : after.method = exchange.method
  contentLength : after.contentLength = exchange.contentLength
  body : ∀ rest, after.body ++
      bodyOf bytes after.method status after.contentLength after.written rest =
    exchange.body ++
      bodyOf bytes exchange.method status exchange.contentLength exchange.written (call :: rest)

theorem continues_append (exchange : Exchange Text) (status : Nat) (chunk : Chunk Text) :
    Continues bytes exchange (exchange.append bytes status chunk) (.write chunk)
      status := by
  unfold append
  by_cases allowed : bodyAllowedForStatus status
  · rw [if_pos allowed]
    refine ⟨rfl, rfl, rfl, fun rest => ?_⟩
    by_cases head : exchange.method = methodHead
    · simp [bodyOf, sendsBody, head]
    · have sends : sendsBody exchange.method status = true := by simp [sendsBody, head, allowed]
      simp only [bodyOf, sends, if_true, List.filterMap_cons, WriterCall.chunk?]
      by_cases fits : exchange.contentLength.all (exchange.written + bytes chunk ≤ ·)
      · rw [if_pos ⟨head, fits⟩, within, if_pos fits, List.append_assoc, List.singleton_append]
      · rw [if_neg fun both => fits both.2, within, if_neg fits,
          within_of_exceeded (Bool.not_eq_true _ ▸ fits)]
  · rw [if_neg allowed]
    exact ⟨rfl, rfl, rfl, fun rest => by simp [bodyOf, sendsBody, allowed]⟩

theorem continues_call {exchange : Exchange Text} {status : Nat} {header : Header}
    (committed : exchange.committed = some (status, header)) (call : WriterCall Text) :
    (exchange.call bytes call).2 = false ∧
      Continues bytes exchange (exchange.call bytes call).1 call status := by
  have unchanged {call : WriterCall Text} (quiet : call.chunk? = none) (rest) :=
    congrArg (exchange.body ++ ·) (bodyOf_cons_of_quiet bytes quiet exchange.method status
      exchange.contentLength exchange.written rest).symm
  cases call with
  | set | add | del => exact ⟨rfl, rfl, rfl, rfl, unchanged rfl⟩
  | writeHeader code =>
      have ignored : exchange.writeHeader code =
          ({ exchange with wroteHeader := true, statusCode := code }, false) :=
        if_pos (by rw [committed]; rfl)
      rw [Exchange.call, ignored]
      exact ⟨rfl, rfl, rfl, rfl, unchanged rfl⟩
  | write chunk =>
      have appended : exchange.write bytes chunk =
          { exchange with wroteHeader := true }.append bytes status chunk := by
        simp only [write, committed]
      rw [Exchange.call, appended]
      obtain ⟨sameStatus, sameMethod, sameLength, body⟩ :=
        continues_append bytes { exchange with wroteHeader := true } status chunk
      exact ⟨rfl, sameStatus, sameMethod, sameLength, body⟩

/-- Once there is a status it stays, and the calls that follow only add to the body. -/
theorem run_of_committed {exchange : Exchange Text} {status : Nat} {header : Header}
    (committed : exchange.committed = some (status, header)) (calls : List (WriterCall Text)) :
    (exchange.run bytes calls).2 = false ∧
      (exchange.run bytes calls).1.committed = some (status, header) ∧
      (exchange.run bytes calls).1.body = exchange.body ++
        bodyOf bytes exchange.method status exchange.contentLength exchange.written calls := by
  induction calls generalizing exchange with
  | nil => simp [run, committed, bodyOf, within]
  | cons call rest inductionHypothesis =>
      obtain ⟨survives, continues⟩ := continues_call bytes committed call
      obtain ⟨returns, stays, body⟩ :=
        inductionHypothesis (continues.committed.trans committed)
      rw [run, if_neg (by simp [survives])]
      exact ⟨returns, stays, body.trans (continues.body rest)⟩

/-- A call that goes on without a status. -/
structure Passes (exchange after : Exchange Text) (call : WriterCall Text) : Prop where
  openYet : after.committed = none
  method : after.method = exchange.method
  written : after.written = exchange.written
  body : after.body = exchange.body
  quiet : call.chunk? = none
  firstStatus : ∀ rest, firstStatus (call :: rest) = firstStatus rest
  headerAtStatus : ∀ rest,
    headerAtStatus exchange.header (call :: rest) = headerAtStatus after.header rest

/-- A call that decides on the status does what it would do if the status were decided on
already. -/
structure Decides (exchange : Exchange Text) (call : WriterCall Text)
    (status : Nat) : Prop where
  same : exchange.call bytes call = (exchange.commit status).call bytes call
  firstStatus : ∀ rest, firstStatus (call :: rest) = some status
  headerAtStatus : ∀ rest, headerAtStatus exchange.header (call :: rest) = exchange.header

/-- What a call can do before there is a status: go on, decide on the status, or panic. -/
theorem call_of_open {exchange : Exchange Text} (openYet : exchange.committed = none)
    (call : WriterCall Text) :
    ((exchange.call bytes call).2 = false ∧
      Passes exchange (exchange.call bytes call).1 call) ∨
    (∃ status, Decides bytes exchange call status) ∨
    ((exchange.call bytes call).2 = true ∧ (exchange.call bytes call).1.committed = none ∧
      (exchange.call bytes call).1.method = exchange.method ∧
      (exchange.call bytes call).1.body = exchange.body ∧
      ∀ rest, firstStatus (call :: rest) = none) := by
  cases call with
  | set | add | del =>
      exact .inl ⟨rfl, openYet, rfl, rfl, rfl, rfl, fun _ => rfl, fun _ => rfl⟩
  | writeHeader code =>
      by_cases impossible : code < 100 ∨ 999 < code
      · refine .inr (.inr ⟨?_, ?_, ?_, ?_, fun rest => if_pos impossible⟩) <;>
          simp [Exchange.call, writeHeader, openYet, impossible]
      · by_cases informational : isInformational code
        · have sent : exchange.call bytes (.writeHeader code) =
              ({ exchange with
                wroteHeader := true
                statusCode := code
                informational := exchange.informational ++ [code] }, false) := by
            simp [Exchange.call, writeHeader, openYet, impossible, informational]
          rw [sent]
          refine .inl ⟨rfl, openYet, rfl, rfl, rfl, rfl, fun rest => ?_, fun rest => ?_⟩
          · rw [Http.firstStatus, if_neg impossible, if_pos informational]
          · rw [Http.headerAtStatus, if_pos informational]
        · refine .inr (.inl ⟨code, ?_, fun rest => ?_, fun rest => ?_⟩)
          · simp [Exchange.call, writeHeader, openYet, impossible, informational, commit]
          · rw [Http.firstStatus, if_neg impossible, if_neg informational]
          · rw [Http.headerAtStatus, if_neg informational]
  | write chunk =>
      refine .inr (.inl ⟨statusOK, ?_, fun _ => rfl, fun _ => rfl⟩)
      simp [Exchange.call, write, openYet, commit]

/-- Calls that commit to a status do not panic, and write a response with this status. -/
theorem run_of_firstStatus {exchange : Exchange Text} (openYet : exchange.committed = none)
    {calls : List (WriterCall Text)} {status : Nat} (found : firstStatus calls = some status) :
    (exchange.run bytes calls).2 = false ∧ (exchange.run bytes calls).1.status = status ∧
      (exchange.run bytes calls).1.body = exchange.body ++ bodyOf bytes exchange.method status
        (declaredLength (headerAtStatus exchange.header calls)) exchange.written calls := by
  induction calls generalizing exchange with
  | nil => cases found
  | cons call rest inductionHypothesis =>
      rcases call_of_open bytes openYet call with
        ⟨returns, passes⟩ | ⟨first, decides⟩ | ⟨-, -, -, -, none⟩
      · rw [run, if_neg (by simp [returns]), bodyOf_cons_of_quiet bytes passes.quiet,
          passes.headerAtStatus, ← passes.body, ← passes.method, ← passes.written]
        exact inductionHypothesis passes.openYet ((passes.firstStatus rest).symm.trans found)
      · obtain rfl : first = status :=
          Option.some.inj ((decides.firstStatus rest).symm.trans found)
        have same : exchange.run bytes (call :: rest) =
            (exchange.commit first).run bytes (call :: rest) := by
          simp only [run, decides.same]
        obtain ⟨restReturns, stays, body⟩ :=
          run_of_committed bytes (show (exchange.commit first).committed = _ from rfl)
            (call :: rest)
        rw [same, decides.headerAtStatus]
        exact ⟨restReturns, by simp [Exchange.status, stays], body⟩
      · rw [none rest] at found
        cases found

/-- Other calls leave the status open and the body empty. -/
theorem run_of_no_status {exchange : Exchange Text} (openYet : exchange.committed = none)
    {calls : List (WriterCall Text)} (found : firstStatus calls = none) :
    (exchange.run bytes calls).1.committed = none ∧
      (exchange.run bytes calls).1.method = exchange.method ∧
      (exchange.run bytes calls).1.body = exchange.body := by
  induction calls generalizing exchange with
  | nil => exact ⟨openYet, rfl, rfl⟩
  | cons call rest inductionHypothesis =>
      rcases call_of_open bytes openYet call with
        ⟨returns, passes⟩ | ⟨first, decides⟩ | ⟨panics, stays, method, body, -⟩
      · rw [run, if_neg (by simp [returns]), ← passes.body, ← passes.method]
        exact inductionHypothesis passes.openYet ((passes.firstStatus rest).symm.trans found)
      · rw [decides.firstStatus rest] at found
        cases found
      · rw [run, if_pos panics]
        exact ⟨stays, method, body⟩

theorem notes_append (exchange : Exchange Text) (status : Nat) (chunk : Chunk Text) :
    (exchange.append bytes status chunk).wroteHeader = exchange.wroteHeader ∧
      (exchange.append bytes status chunk).statusCode = exchange.statusCode := by
  unfold append
  split
  · exact ⟨rfl, rfl⟩
  · exact ⟨rfl, rfl⟩

/-- What the wrappers note of a call, also of one that panics. -/
theorem notes_call (exchange : Exchange Text) (call : WriterCall Text) :
    (exchange.call bytes call).1.wroteHeader = (exchange.wroteHeader || call.isWrite) ∧
      (exchange.call bytes call).1.statusCode = call.code?.getD exchange.statusCode ∧
      ((exchange.call bytes call).2 = true → call.isWrite = true) := by
  cases call with
  | set | add | del => exact ⟨(Bool.or_false _).symm, rfl, Bool.noConfusion⟩
  | writeHeader code =>
      have noted : (exchange.writeHeader code).1.wroteHeader = true ∧
          (exchange.writeHeader code).1.statusCode = code := by
        unfold writeHeader
        split
        · exact ⟨rfl, rfl⟩
        · split
          · exact ⟨rfl, rfl⟩
          · split
            · exact ⟨rfl, rfl⟩
            · exact ⟨rfl, rfl⟩
      exact ⟨noted.1.trans (Bool.or_true _).symm, noted.2, fun _ => rfl⟩
  | write chunk =>
      have noted : (exchange.write bytes chunk).wroteHeader = true ∧
          (exchange.write bytes chunk).statusCode = exchange.statusCode := by
        unfold write
        split
        · exact notes_append bytes _ _ chunk
        · exact notes_append bytes _ _ chunk
      exact ⟨noted.1.trans (Bool.or_true _).symm, noted.2, fun _ => rfl⟩

/-- The tracker knows of every call that may have sent something. -/
theorem wroteHeader_run (exchange : Exchange Text) (calls : List (WriterCall Text)) :
    (exchange.run bytes calls).1.wroteHeader =
        (exchange.wroteHeader || calls.any WriterCall.isWrite) ∧
      ((exchange.run bytes calls).2 = true → calls.any WriterCall.isWrite = true) := by
  induction calls generalizing exchange with
  | nil => exact ⟨(Bool.or_false _).symm, Bool.noConfusion⟩
  | cons call rest inductionHypothesis =>
      obtain ⟨noted, -, panicking⟩ := notes_call bytes exchange call
      rw [run, List.any_cons]
      split
      · rename_i panics
        rw [noted, panicking panics]
        exact ⟨rfl, fun _ => rfl⟩
      · obtain ⟨restNoted, restPanicking⟩ := inductionHypothesis (exchange.call bytes call).1
        rw [restNoted, noted, Bool.or_assoc]
        exact ⟨rfl, fun panics => by rw [restPanicking panics, Bool.or_true]⟩

/-- The log has the last code. -/
theorem statusCode_run {exchange : Exchange Text} {calls : List (WriterCall Text)}
    (returns : (exchange.run bytes calls).2 = false) :
    (exchange.run bytes calls).1.statusCode =
      ((calls.filterMap WriterCall.code?).getLast?).getD exchange.statusCode := by
  induction calls generalizing exchange with
  | nil => rfl
  | cons call rest inductionHypothesis =>
      rw [run] at returns ⊢
      split at returns
      · rename_i panics
        rw [panics] at returns
        cases returns
      · rename_i survives
        rw [if_neg survives, inductionHypothesis returns, (notes_call bytes exchange call).2.1,
          List.filterMap_cons]
        cases call.code? with
        | none => rfl
        | some code => simp [List.getLast?_cons]

end Exchange

/-- The handler panics and has not called the writer for anything to be sent. -/
def Behaviour.PanicsSilently (behaviour : Behaviour Text) : Prop :=
  behaviour.panics = true ∧ behaviour.calls.any WriterCall.isWrite = false

theorem firstStatus_of_silent {calls : List (WriterCall Text)}
    (silent : calls.any WriterCall.isWrite = false) : firstStatus calls = none := by
  induction calls with
  | nil => rfl
  | cons call rest inductionHypothesis =>
      obtain ⟨quiet, restSilent⟩ := (Bool.or_eq_false_iff).mp silent
      cases call with
      | set | add | del => exact inductionHypothesis restSilent
      | writeHeader code => cases quiet
      | write chunk => cases quiet

/-- `http.Error` takes back a length that was declared for another page. -/
theorem declaredLength_httpError (header : Header) (message : String) (code : Nat) :
    declaredLength (headerAtStatus header (httpError message code : List (WriterCall Text))) =
      none := by
  have canonical : canonicalMIMEHeaderKey "Content-Length" ≠ canonicalMIMEHeaderKey "Content-Type" ∧
      canonicalMIMEHeaderKey "Content-Length" ≠
        canonicalMIMEHeaderKey "X-Content-Type-Options" := by decide
  have decided : headerAtStatus header (httpError message code : List (WriterCall Text)) =
      ((header.del "Content-Length").set "Content-Type" "text/plain; charset=utf-8").set
        "X-Content-Type-Options" "nosniff" := by
    simp only [httpError, headerAtStatus, ite_self]
  have absent : (headerAtStatus header (httpError message code : List (WriterCall Text))).get
      "Content-Length" = "" := by
    rw [decided, Header.get, Header.values_set, if_neg canonical.2, Header.values_set,
      if_neg canonical.1, Header.values_del, if_pos rfl]
    rfl
  rw [declaredLength, absent]
  rfl

theorem firstStatus_httpError (message : String) {code : Nat} (final : 200 ≤ code ∧ code ≤ 999) :
    firstStatus (httpError message code : List (WriterCall Text)) = some code := by
  have proper : isInformational code = false := by
    simp only [isInformational, decide_eq_false_iff_not]
    omega
  rw [httpError, firstStatus, firstStatus, firstStatus, firstStatus, if_neg (by omega),
    if_neg (by simp [proper])]

/-- The answer to a panic. -/
theorem run_httpError {exchange : Exchange Text} (openYet : exchange.committed = none)
    (message : String) :
    let answered := exchange.run bytes (httpError message statusInternalServerError)
    answered.2 = false ∧ answered.1.status = statusInternalServerError ∧
      answered.1.body = exchange.body ++
        (if exchange.method = methodHead then [] else [.line message]) ∧
      answered.1.statusCode = statusInternalServerError := by
  intro answered
  obtain ⟨returns, sent, body⟩ := Exchange.run_of_firstStatus bytes openYet
    (firstStatus_httpError message (show 200 ≤ statusInternalServerError ∧ _ by decide))
  refine ⟨returns, sent, ?_, (Exchange.statusCode_run bytes returns).trans rfl⟩
  rw [body, declaredLength_httpError, bodyOf, within_none]
  by_cases head : exchange.method = methodHead
  · simp [head, sendsBody]
  · rw [if_pos (by simp [head, sendsBody, statusInternalServerError, bodyAllowedForStatus]),
      if_neg head]
    rfl

/-- Only a panic before anything was sent is answered. -/
theorem recovers_iff (behaviour : Behaviour Text) (method : String) :
    ((behaviour.handle bytes (.initial method)).2 = true ∧
      (behaviour.handle bytes (.initial method)).1.wroteHeader = false) ↔
    behaviour.PanicsSilently := by
  obtain ⟨noted, panicking⟩ :=
    (Exchange.initial method).wroteHeader_run bytes behaviour.calls
  have noted : (behaviour.handle bytes (.initial method)).1.wroteHeader =
    behaviour.calls.any WriterCall.isWrite := noted
  rw [noted]
  constructor
  · rintro ⟨panics, silent⟩
    refine ⟨?_, silent⟩
    rcases (Bool.or_eq_true _ _).mp panics with inside | after
    · rw [panicking inside] at silent
      cases silent
    · exact after
  · rintro ⟨panics, silent⟩
    exact ⟨(Bool.or_eq_true _ _).mpr (.inr panics), silent⟩

/-- Otherwise the response is what the handler wrote. -/
theorem recoveryMiddleware_eq {behaviour : Behaviour Text} (method : String)
    (other : ¬ behaviour.PanicsSilently) :
    recoveryMiddleware bytes (behaviour.handle bytes) (.initial method) =
      (((Exchange.initial method).run bytes behaviour.calls).1, false) :=
  if_neg fun recovers => other ((recovers_iff bytes behaviour method).mp recovers)

/-- Every request gets one response and is logged, whatever its handler writes and wherever it
panics, also inside a call on the writer. After a panic before anything was sent it is a 500.
Otherwise it has the first final status that the handler wrote, or else 200, with everything
that it wrote until it returned or panicked. Nothing of a body is sent to a `HEAD` request or
with a status that allows none, and never more than the header declared. -/
theorem http_request_gets_one_response (behaviour : Behaviour Text) (method : String) :
    ∃ exchange logged,
      requestLoggingMiddleware (recoveryMiddleware bytes (behaviour.handle bytes)) method =
        (exchange, some logged) ∧
      (behaviour.PanicsSilently → exchange.status = statusInternalServerError ∧
        exchange.body = (if method = methodHead then [] else [.line "internal server error"]) ∧
        logged = statusInternalServerError) ∧
      (¬ behaviour.PanicsSilently →
        exchange.status = (firstStatus behaviour.calls).getD statusOK ∧
        exchange.body = ((firstStatus behaviour.calls).map fun status =>
          bodyOf bytes method status (declaredLength (headerAtStatus ∅ behaviour.calls)) 0
            behaviour.calls).getD []) := by
  have openAtFirst : (Exchange.initial method : Exchange Text).committed = none := rfl
  by_cases silent : behaviour.PanicsSilently
  · obtain ⟨openYet, sameMethod, empty⟩ :=
      Exchange.run_of_no_status bytes openAtFirst (firstStatus_of_silent silent.2)
    obtain ⟨returns, sent, body, noted⟩ := run_httpError bytes openYet "internal server error"
    have recovered : recoveryMiddleware bytes (behaviour.handle bytes) (.initial method) =
        ((Exchange.initial method).run bytes behaviour.calls).1.run bytes
          (httpError "internal server error" statusInternalServerError) :=
      if_pos ((recovers_iff bytes behaviour method).mpr silent)
    rw [requestLoggingMiddleware, recovered]
    refine ⟨_, statusInternalServerError, ?_, fun _ => ⟨sent, ?_, rfl⟩, fun other => ?_⟩
    · simp only [returns, noted]
      rfl
    · rw [body, empty, sameMethod]
      rfl
    · exact absurd silent other
  · rw [requestLoggingMiddleware, recoveryMiddleware_eq bytes method silent]
    refine ⟨_, _, rfl, fun other => absurd other silent, fun _ => ?_⟩
    cases found : firstStatus behaviour.calls with
    | none =>
        obtain ⟨openYet, -, empty⟩ := Exchange.run_of_no_status bytes openAtFirst found
        exact ⟨by simp [Exchange.status, openYet], empty⟩
    | some status =>
        obtain ⟨-, sent, body⟩ := Exchange.run_of_firstStatus bytes openAtFirst found
        exact ⟨sent, body⟩

/-- A code that HTTP does not have, as upstream may send it, panics in the writer. The tracker has
noted the call, so there is no 500, and the client gets an empty 200. A handler that declares two
bytes and writes three pieces of one is cut off after two. -/
theorem http_request_gets_empty_response :
    (let behaviour : Behaviour Json := ⟨[.writeHeader 42], false⟩
      ∃ exchange logged,
        requestLoggingMiddleware (recoveryMiddleware (fun _ => 1) (behaviour.handle fun _ => 1))
          methodPost = (exchange, some logged) ∧ exchange.status = 200 ∧ exchange.body = []) ∧
    (let behaviour : Behaviour Json := ⟨.set "content-length" "2" ::
        List.replicate 3 (.write (.copied .null)), true⟩
      ∃ exchange logged,
        requestLoggingMiddleware (recoveryMiddleware (fun _ => 1) (behaviour.handle fun _ => 1))
          methodPost = (exchange, some logged) ∧ exchange.status = 200 ∧
        exchange.body = [.copied .null, .copied .null]) := by
  constructor
  · intro behaviour
    obtain ⟨exchange, logged, served, -, written⟩ :=
      http_request_gets_one_response (fun _ => 1) behaviour methodPost
    obtain ⟨sent, body⟩ := written (by rintro ⟨⟨⟩, -⟩)
    exact ⟨exchange, logged, served, sent, body⟩
  · intro behaviour
    obtain ⟨exchange, logged, served, -, written⟩ :=
      http_request_gets_one_response (fun _ => 1) behaviour methodPost
    obtain ⟨sent, body⟩ := written (by rintro ⟨-, ⟨⟩⟩)
    have declared : declaredLength (headerAtStatus ∅ behaviour.calls) = some 2 := by decide
    rw [declared] at body
    exact ⟨exchange, logged, served, sent, body⟩

/-! ### The replies of the proxy -/

/-- What the reverse proxy gets from upstream. `aborted` says that the body breaks off, which
`httputil.ReverseProxy` passes on as a panic. -/
structure UpstreamAnswer (Text : Type) where
  informational : List Nat
  header : List (String × String)
  status : Nat
  chunks : List Text
  aborted : Bool

/-- `ReverseProxy.ServeHTTP` on an answer. -/
def UpstreamAnswer.behaviour (answer : UpstreamAnswer Text) : Behaviour Text where
  calls := answer.informational.map .writeHeader ++
    (answer.header.map fun field => .add field.1 field.2) ++
    .writeHeader answer.status :: answer.chunks.map fun data => .write (.copied data)
  panics := answer.aborted

/-- The calls for a reply: `http.Error`, `WriteJSONRPCResponseToHTTPResponseWriter` or the
reverse proxy. An error without a message is that of its default `ErrorHandler`. -/
def HTTPReply.behaviour (answer : UpstreamAnswer Text) : HTTPReply Text → Behaviour Text
  | .error status message =>
      ⟨if message = "" then [.writeHeader status] else httpError message status, false⟩
  | .rpcError reported =>
      ⟨[.set "Content-Type" "application/json", .write (.json (encodeErrorResponse reported))],
        false⟩
  | .relayed _ _ => answer.behaviour

def healthCheckHandler : HTTPHandler Text := fun _ => .error statusOK "OK"

/-- A call of the handler: the status it answers, and whether it goes on to replace itself. -/
def newReadinessHandler (swapped : Bool) (state : EspressoState) : Nat × Bool :=
  if swapped then (statusOK, false)
  else if state.l2BlockNumber = 0 then (statusServiceUnavailable, false)
  else (statusOK, true)

/-- The page that goes with the status. -/
def readinessMessage (status : Nat) : String := if status = statusOK then "OK" else "not ready"

section Server

variable (size : Text → Nat) (parseMediaType : String → Option String) (text : JSONText Text)
  (interceptor : Interceptor) (maxRequestBodySize : Nat) (swapped : Bool) (state : EspressoState)
  (response : Text)

/-- The routes of `createHttpServer`, by path only. -/
def routeHTTP : HTTPHandler Text := fun request =>
  if request.path = ["health"] then healthCheckHandler request
  else if request.path = ["ready"] then
    .error (newReadinessHandler swapped state).1
      (readinessMessage (newReadinessHandler swapped state).1)
  else serveHTTP size parseMediaType text interceptor maxRequestBodySize state response request

/-- The handler of the server, on a request and an answer of upstream: the log around the
routes, and `RecoveryMiddleware` around that of JSON-RPC requests only. -/
def createHttpServer (answer : UpstreamAnswer Text) (request : HTTPRequest Text) :
    Exchange Text × Option Nat :=
  let reply := routeHTTP size parseMediaType text interceptor maxRequestBodySize swapped state
    response request
  let handler := (reply.behaviour answer).handle bytes
  requestLoggingMiddleware
    (if request.path = ["health"] ∨ request.path = ["ready"] then handler
      else recoveryMiddleware bytes handler)
    request.method

end Server

/-! ### What the client gets -/

def HTTPReply.status (answer : UpstreamAnswer Text) : HTTPReply Text → Nat
  | .error status _ => status
  | .rpcError _ => statusOK
  | .relayed _ _ => answer.status

def HTTPReply.chunks (answer : UpstreamAnswer Text) : HTTPReply Text → List (Chunk Text)
  | .error _ message => if message = "" then [] else [.line message]
  | .rpcError reported => [.json (encodeErrorResponse reported)]
  | .relayed _ _ => answer.chunks.map .copied

/-- The reply in full, where a body is sent. -/
def HTTPReply.body (answer : UpstreamAnswer Text) (method : String) (reply : HTTPReply Text) :
    List (Chunk Text) :=
  if sendsBody method (reply.status answer) then reply.chunks answer else []

/-- The header of an answer as the reverse proxy copies it. -/
def UpstreamAnswer.copiedHeader (answer : UpstreamAnswer Text) : Header :=
  answer.header.foldl (fun header field => header.add field.1 field.2) ∅

/-- Upstream is heard with codes that HTTP has, informational ones first, then a final one, and
with at most as many bytes as it declares: `http.Transport` hands out no more. -/
structure UpstreamAnswer.Possible (answer : UpstreamAnswer Text) : Prop where
  informational : ∀ code ∈ answer.informational, isInformational code
  final : 200 ≤ answer.status ∧ answer.status ≤ 999
  length : ∀ length, declaredLength answer.copiedHeader = some length →
    (answer.chunks.map fun data => bytes (.copied data)).sum ≤ length

theorem firstStatus_informational {codes : List Nat}
    (informational : ∀ code ∈ codes, isInformational code) (header : Header)
    (rest : List (WriterCall Text)) :
    firstStatus (codes.map .writeHeader ++ rest) = firstStatus rest ∧
      headerAtStatus header (codes.map .writeHeader ++ rest) = headerAtStatus header rest := by
  induction codes with
  | nil => exact ⟨rfl, rfl⟩
  | cons code more inductionHypothesis =>
      obtain ⟨isCode, areCodes⟩ := List.forall_mem_cons.mp informational
      have possible : ¬ (code < 100 ∨ 999 < code) := by
        simp only [isInformational, decide_eq_true_eq] at isCode
        omega
      rw [List.map_cons, List.cons_append, firstStatus, if_neg possible, if_pos isCode,
        headerAtStatus, if_pos isCode]
      exact inductionHypothesis areCodes

theorem firstStatus_header (fields : List (String × String)) (header : Header)
    (rest : List (WriterCall Text)) :
    firstStatus ((fields.map fun field => .add field.1 field.2) ++ rest) = firstStatus rest ∧
      headerAtStatus header ((fields.map fun field => .add field.1 field.2) ++ rest) =
        headerAtStatus (fields.foldl (fun header field => header.add field.1 field.2) header)
          rest := by
  induction fields generalizing header with
  | nil => exact ⟨rfl, rfl⟩
  | cons field more inductionHypothesis => exact inductionHypothesis (header.add field.1 field.2)

section Answers

variable {bytes} {answer : UpstreamAnswer Text}

theorem UpstreamAnswer.Possible.firstStatus (possible : answer.Possible bytes) :
    firstStatus answer.behaviour.calls = some answer.status ∧
      headerAtStatus ∅ answer.behaviour.calls = answer.copiedHeader := by
  have final := possible.final
  have proper : isInformational answer.status = false := by
    simp only [isInformational, decide_eq_false_iff_not]
    omega
  rw [behaviour, List.append_assoc, (firstStatus_informational possible.informational ∅ _).1,
    (firstStatus_informational possible.informational ∅ _).2, (firstStatus_header _ ∅ _).1,
    (firstStatus_header _ ∅ _).2, Http.firstStatus, if_neg (by omega), if_neg (by simp [proper]),
    headerAtStatus, if_neg (by simp [proper])]
  exact ⟨rfl, rfl⟩

theorem UpstreamAnswer.lastCode (answer : UpstreamAnswer Text) :
    (answer.behaviour.calls.filterMap WriterCall.code?).getLast? = some answer.status := by
  simp [behaviour, List.filterMap_append, List.filterMap_map, Function.comp_def,
    WriterCall.code?]

theorem UpstreamAnswer.chunks_behaviour (answer : UpstreamAnswer Text) :
    answer.behaviour.calls.filterMap WriterCall.chunk? = answer.chunks.map .copied := by
  simp [behaviour, List.filterMap_append, List.filterMap_cons, List.filterMap_map,
    Function.comp_def, WriterCall.chunk?]

/-- Pieces that fit into the declared length are all sent. -/
theorem within_eq_self {length : Option Nat} {written : Nat} {chunks : List (Chunk Text)}
    (fits : ∀ limit, length = some limit → written + (chunks.map bytes).sum ≤ limit) :
    within bytes length written chunks = chunks := by
  induction chunks generalizing written with
  | nil => rfl
  | cons chunk rest inductionHypothesis =>
      have total : ((chunk :: rest).map bytes).sum = bytes chunk + (rest.map bytes).sum :=
        List.sum_cons
      have first : length.all (written + bytes chunk ≤ ·) = true := by
        cases length with
        | none => rfl
        | some limit =>
            have bound := fits limit rfl
            simp only [Option.all_some, decide_eq_true_eq]
            omega
      rw [within, if_pos first, inductionHypothesis fun limit known => ?_]
      have bound := fits limit known
      omega

/-- The calls write these pieces under the status, which is their first and their last code, and
declare no length that the pieces exceed. -/
structure Writes (bytes : Chunk Text → Nat) (calls : List (WriterCall Text)) (status : Nat)
    (chunks : List (Chunk Text)) : Prop where
  first : firstStatus calls = some status
  last : ((calls.filterMap WriterCall.code?).getLast?).getD statusOK = status
  pieces : calls.filterMap WriterCall.chunk? = chunks
  fits : ∀ limit, declaredLength (headerAtStatus ∅ calls) = some limit →
    (chunks.map bytes).sum ≤ limit

/-- Then the client gets them, and the wrappers have noted the status. -/
theorem Writes.run {calls : List (WriterCall Text)} {status : Nat} {chunks : List (Chunk Text)}
    (writes : Writes bytes calls status chunks) (method : String) :
    ∃ exchange : Exchange Text, (Exchange.initial method).run bytes calls = (exchange, false) ∧
      exchange.statusCode = status ∧ exchange.status = status ∧
      exchange.body = if sendsBody method status then chunks else [] := by
  have openAtFirst : (Exchange.initial method : Exchange Text).committed = none := rfl
  obtain ⟨returns, sent, body⟩ := Exchange.run_of_firstStatus bytes openAtFirst writes.first
  refine ⟨_, Prod.ext rfl returns, (Exchange.statusCode_run bytes returns).trans writes.last, sent,
    body.trans ?_⟩
  have whole : within bytes (declaredLength (headerAtStatus ∅ calls)) 0 chunks = chunks :=
    within_eq_self fun limit known => (Nat.zero_add _).trans_le (writes.fits limit known)
  rw [bodyOf, writes.pieces]
  exact congrArg (fun sent => if sendsBody method status then sent else []) whole

theorem writes_httpError (message : String) {status : Nat} (final : 200 ≤ status ∧ status ≤ 999) :
    Writes bytes (httpError message status) status [.line message] where
  first := firstStatus_httpError message final
  last := rfl
  pieces := rfl
  fits := by
    rw [declaredLength_httpError]
    rintro limit ⟨⟩

theorem writes_writeHeader {status : Nat} (final : 200 ≤ status ∧ status ≤ 999) :
    Writes bytes [.writeHeader status] status [] where
  first := by
    rw [firstStatus, if_neg (by omega), if_neg]
    simp only [isInformational, decide_eq_true_eq]
    omega
  last := rfl
  pieces := rfl
  fits limit _ := Nat.zero_le limit

theorem UpstreamAnswer.Possible.writes (possible : answer.Possible bytes) :
    Writes bytes answer.behaviour.calls answer.status (answer.chunks.map .copied) where
  first := possible.firstStatus.1
  last := by
    rw [answer.lastCode]
    rfl
  pieces := answer.chunks_behaviour
  fits := by
    rw [possible.firstStatus.2, List.map_map]
    exact possible.length

/-- A reply is written in full. -/
theorem HTTPReply.writes (possible : answer.Possible bytes) {reply : HTTPReply Text}
    (final : ∀ status message, reply = .error status message → 200 ≤ status ∧ status ≤ 999) :
    Writes bytes (reply.behaviour answer).calls (reply.status answer) (reply.chunks answer) := by
  cases reply with
  | error status message =>
      by_cases silent : message = ""
      · rw [behaviour, chunks, if_pos silent, if_pos silent]
        exact writes_writeHeader (final status message rfl)
      · rw [behaviour, chunks, if_neg silent, if_neg silent]
        exact writes_httpError message (final status message rfl)
  | rpcError reported =>
      exact ⟨rfl, rfl, rfl, by rintro limit ⟨⟩⟩
  | relayed forwarded response => exact possible.writes

end Answers

section Statuses

variable {size : Text → Nat} {parseMediaType : String → Option String} {text : JSONText Text}
  {interceptor : Interceptor} {state : EspressoState} {response : Text}
  {request : HTTPRequest Text} {status : Nat} {message : String}

theorem error_of_reverseProxy
    (refused : reverseProxy size response request = .error status message) :
    status = statusBadGateway := by
  unfold reverseProxy at refused
  split at refused
  · cases refused
    rfl
  · cases refused

theorem error_of_interceptor
    (refused : httpJSONRPCInterceptor size text interceptor state (reverseProxy size response)
      request = .error status message) : status = statusBadGateway := by
  unfold httpJSONRPCInterceptor at refused
  split at refused
  · cases refused
  · split at refused
    · cases refused
    · exact error_of_reverseProxy refused

theorem error_of_contentType
    (refused : contentTypeIsJSONRPCMiddleware parseMediaType
      (httpJSONRPCInterceptor size text interceptor state (reverseProxy size response)) request =
        .error status message) :
    status ∈ [statusUnsupportedMediaType, statusBadGateway] := by
  unfold contentTypeIsJSONRPCMiddleware at refused
  split at refused
  · cases refused
    exact List.mem_cons_self
  · split at refused
    · rw [error_of_interceptor refused]
      exact List.mem_cons_of_mem _ List.mem_cons_self
    · cases refused
      exact List.mem_cons_self

/-- The statuses of `http.Error` in the chain, and that of the reverse proxy. -/
theorem error_of_serveHTTP {maxRequestBodySize : Nat}
    (refused : serveHTTP size parseMediaType text interceptor maxRequestBodySize state response
      request = .error status message) :
    status ∈ [statusMethodNotAllowed, statusRequestEntityTooLarge, statusUnsupportedMediaType,
      statusBadGateway] := by
  unfold serveHTTP httpRPCMiddlewares methodIsMiddleware at refused
  split at refused
  · cases refused
    exact List.mem_cons_self
  · split at refused
    · unfold requestBodySizeLimiterMiddleware at refused
      split at refused
      · cases refused
        exact List.mem_cons_of_mem _ List.mem_cons_self
      · exact List.mem_cons_of_mem _ (List.mem_cons_of_mem _ (error_of_contentType refused))
    · exact List.mem_cons_of_mem _ (List.mem_cons_of_mem _ (error_of_contentType refused))

end Statuses

section Server

variable {bytes} {size : Text → Nat} {parseMediaType : String → Option String}
  {text : JSONText Text} {interceptor : Interceptor} {maxRequestBodySize : Nat} {swapped : Bool}
  {state : EspressoState} {response : Text} {answer : UpstreamAnswer Text}

theorem error_of_routeHTTP {request : HTTPRequest Text} {status : Nat} {message : String}
    (refused : routeHTTP size parseMediaType text interceptor maxRequestBodySize swapped state
      response request = .error status message) : 200 ≤ status ∧ status ≤ 999 := by
  unfold routeHTTP at refused
  split at refused
  · cases refused
    decide
  · split at refused
    · cases refused
      unfold newReadinessHandler
      split
      · decide
      · split <;> decide
    · have known : ∀ status ∈ [statusMethodNotAllowed, statusRequestEntityTooLarge,
          statusUnsupportedMediaType, statusBadGateway], 200 ≤ status ∧ status ≤ 999 := by decide
      exact known status (error_of_serveHTTP refused)

/-- The two routes without `RecoveryMiddleware` do not panic. -/
theorem returns_of_probe {request : HTTPRequest Text}
    (probe : request.path = ["health"] ∨ request.path = ["ready"]) :
    ((routeHTTP size parseMediaType text interceptor maxRequestBodySize swapped state response
      request).behaviour answer).panics = false := by
  unfold routeHTTP
  rcases probe with health | ready
  · rw [if_pos health]
    rfl
  · rw [if_neg (by rw [ready]; decide), if_pos ready]
    rfl

/-- The handler of `createHttpServer` on any request and any answer of upstream, also one that
breaks off: the client gets the status and the body of the reply, and the log shows this
status. -/
theorem http_replies_are_sent_and_logged (possible : answer.Possible bytes)
    (request : HTTPRequest Text) :
    let reply := routeHTTP size parseMediaType text interceptor maxRequestBodySize swapped state
      response request
    ∃ exchange, createHttpServer bytes size parseMediaType text interceptor maxRequestBodySize
        swapped state response answer request = (exchange, some (reply.status answer)) ∧
      exchange.status = reply.status answer ∧
      exchange.body = reply.body answer request.method := by
  intro reply
  have writes : Writes bytes (reply.behaviour answer).calls _ _ :=
    HTTPReply.writes possible fun status message refused => error_of_routeHTTP refused
  obtain ⟨exchange, run, noted, sent, body⟩ := writes.run request.method
  refine ⟨exchange, ?_, sent, body⟩
  have written : ¬ (reply.behaviour answer).PanicsSilently := by
    rintro ⟨-, silent⟩
    have first := writes.first
    rw [firstStatus_of_silent silent] at first
    cases first
  have served : (if request.path = ["health"] ∨ request.path = ["ready"] then
      (reply.behaviour answer).handle bytes
    else recoveryMiddleware bytes ((reply.behaviour answer).handle bytes))
      (.initial request.method) = (exchange, false) := by
    split
    · rename_i probe
      have returns : (reply.behaviour answer).panics = false := returns_of_probe probe
      simp only [Behaviour.handle, run, returns]
      rfl
    · rw [recoveryMiddleware_eq bytes request.method written, run]
  simp only [createHttpServer, requestLoggingMiddleware]
  rw [served, ← noted]
  rfl

/-- A request is relayed, and upstream sends early hints and breaks off after a part of the body
that it declared. Another client asks for the page of that path with `HEAD`, and gets the status
of the refusal only. -/
theorem http_reply_broken_off_is_sent_and_logged :
    let answer : UpstreamAnswer Json := ⟨[103], [("Content-Length", "9")], 200,
      [.string "half"], true⟩
    let request : HTTPRequest Json := ⟨methodPost, [""], ∅, 1, ⟨.object
      [("jsonrpc", .string "2.0"), ("method", .string "eth_chainId")], none⟩⟩
    let server := createHttpServer (fun _ => 5) (fun _ => 1) (fun _ => some "application/json")
      valueText ⟨"espresso", 10⟩ 5 false ⟨7, 3, 1⟩ .null answer
    (∃ exchange, server request = (exchange, some 200) ∧ exchange.status = 200 ∧
      exchange.body = [.copied (.string "half")]) ∧
    ∃ exchange, server { request with method := methodHead } = (exchange, some 405) ∧
      exchange.status = 405 ∧ exchange.body = [] := by
  intro answer request server
  have possible : answer.Possible fun _ => 5 := by
    refine ⟨fun code member => ?_, by decide, fun length declared => ?_⟩
    · obtain rfl := List.mem_singleton.mp member
      rfl
    · have nine : declaredLength answer.copiedHeader = some 9 := by decide
      obtain rfl := Option.some.inj (nine.symm.trans declared)
      decide
  exact ⟨http_replies_are_sent_and_logged possible request,
    http_replies_are_sent_and_logged possible { request with method := methodHead }⟩

end Server
end EspressoProxy.Http
