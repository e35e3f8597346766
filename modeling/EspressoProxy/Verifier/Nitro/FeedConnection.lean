import EspressoProxy.Http.Header
import EspressoProxy.Verifier.Nitro.FeedReference

/-!
# The connection of the feed client

`readLoop` dials the feed, looks at the chain id in the response and then reads broadcasts
until the connection fails, over and over. It gives up on a connection without a chain id
and on one with the wrong chain id. A chain id that does not parse is an error of a third
kind, which the loop does not look for: it goes on to read from that connection.

The numeral is parsed by `strconv.ParseUint` with base 0, that is, with the prefixes and
underscores of Go's literals.
-/

namespace EspressoProxy.Verifier.Nitro

open EspressoProxy.Http EspressoProxy.Semantics

/-! ### Numerals -/

/-- The errors of `strconv`. -/
inductive NumError where
  | badSyntax
  | outOfRange
deriving DecidableEq, Repr

def maxUint64 : Nat := 2 ^ 64 - 1

/-- The value of a digit or a letter. -/
def digitValue (char : Char) : Option Nat :=
  if char.isDigit then some (char.toNat - '0'.toNat)
  else if char.isAlpha then some (char.toLower.toNat - 'a'.toNat + 10)
  else none

/-- The base that a numeral is written in, and its characters after the mark of the base. -/
def numeralBase : List Char → Nat × List Char
  | '0' :: mark :: digit :: rest =>
      if mark.toLower = 'b' then (2, digit :: rest)
      else if mark.toLower = 'o' then (8, digit :: rest)
      else if mark.toLower = 'x' then (16, digit :: rest)
      else (8, mark :: digit :: rest)
  | '0' :: rest => (8, rest)
  | chars => (10, chars)

/-- The loop of `ParseUint` over the characters, which skips underscores. -/
def parseDigits (base : Nat) : List Char → Nat → Except NumError Nat
  | [], value => .ok value
  | '_' :: rest, value => parseDigits base rest value
  | char :: rest, value =>
      match digitValue char with
      | none => .error .badSyntax
      | some digit =>
          if digit ≥ base then .error .badSyntax
          else if value ≥ maxUint64 / base + 1 then .error .outOfRange
          else if value * base + digit > maxUint64 then .error .outOfRange
          else parseDigits base rest (value * base + digit)

/-- What `underscoreOK` has seen last. -/
inductive NumeralPosition where
  | start
  | digit
  | underscore
  | other
deriving DecidableEq, Repr

/-- The loop of `underscoreOK`: an underscore stands between digits. -/
def underscoresBetween (hex : Bool) : NumeralPosition → List Char → Bool
  | position, [] => position != .underscore
  | position, char :: rest =>
      if char.isDigit || (hex && 'a' ≤ char.toLower && char.toLower ≤ 'f') then
        underscoresBetween hex .digit rest
      else if char = '_' then position == .digit && underscoresBetween hex .underscore rest
      else position != .underscore && underscoresBetween hex .other rest

/-- `underscoreOK`. The mark of a base counts as a digit. -/
def underscoreOK (chars : List Char) : Bool :=
  let unsigned :=
    match chars with
    | '-' :: rest | '+' :: rest => rest
    | chars => chars
  match unsigned with
  | '0' :: mark :: rest =>
      if mark.toLower = 'b' ∨ mark.toLower = 'o' ∨ mark.toLower = 'x' then
        underscoresBetween (mark.toLower = 'x') .digit rest
      else underscoresBetween false .start ('0' :: mark :: rest)
  | chars => underscoresBetween false .start chars

/-- `strconv.ParseUint(numeral, 0, 64)`. -/
def parseUint (numeral : String) : Except NumError Nat :=
  match numeral.toList with
  | [] => .error .badSyntax
  | chars =>
      match parseDigits (numeralBase chars).1 (numeralBase chars).2 0 with
      | .error cause => .error cause
      | .ok value =>
          if '_' ∈ (numeralBase chars).2 ∧ ¬ underscoreOK chars then .error .badSyntax
          else .ok value

example : parseUint "0x2a" = .ok 42 ∧ parseUint "1_000" = .ok 1000 ∧ parseUint "0" = .ok 0 ∧
    parseUint "08" = .error .badSyntax ∧ parseUint "1__0" = .error .badSyntax ∧
    parseUint "18446744073709551616" = .error .outOfRange := by decide

/-! ### The loop -/

def headerChainID : String := "Arbitrum-Chain-Id"

inductive ChainIdError where
  | missing
  | malformed (cause : NumError)
  | incorrect (expected got : Nat)
deriving DecidableEq, Repr

/-- `verifyChainID`, for the header of the response if there was one. -/
def verifyChainID (chainID : Nat) : Option Header → Except ChainIdError Unit
  | none => .error .missing
  | some header =>
      if header.get headerChainID = "" then .error .missing
      else
        match parseUint (header.get headerChainID) with
        | .error cause => .error (.malformed cause)
        | .ok got => if got ≠ chainID then .error (.incorrect chainID got) else .ok ()

/-- Where `readLoop` is: at the top of the loop, in a dial, before the check of the
response, at the top of the loop of `readMessages`, or in a read. -/
inductive ReadPhase where
  | looping
  | dialing
  | verifying (response : Option Header)
  | connected (response : Option Header)
  | awaiting (response : Option Header)
  | stopped

structure FeedConnection where
  client : FeedClient
  phase : ReadPhase
  cancelled : Bool

/-- A step of `readLoop`, the cancellation of its context, or a call of the verifier. A read
has no broadcast if the message could not be decoded. -/
inductive ConnectionLabel where
  | cancel
  | proceed
  | dialed (response : Option (Option Header))
  | readFailed
  | read (broadcast : Option BroadcastMessage)
  | advance
  | advanceTo (seqNum : Nat)

variable (chainID : Nat)

/-- The phase after the check of a response. -/
def afterVerification (response : Option Header) : ReadPhase :=
  match verifyChainID chainID response with
  | .error .missing | .error (.incorrect _ _) => .stopped
  | .error (.malformed _) | .ok () => .connected response

def FeedConnection.step (connection : FeedConnection) :
    ConnectionLabel → Option FeedConnection
  | .cancel => some { connection with cancelled := true }
  | .proceed =>
      match connection.phase with
      | .looping =>
          some { connection with phase := if connection.cancelled then .stopped else .dialing }
      | .verifying response =>
          some { connection with phase := afterVerification chainID response }
      | .connected response =>
          some { connection with
            phase := if connection.cancelled then .looping else .awaiting response }
      | _ => none
  | .dialed response =>
      match connection.phase with
      | .dialing =>
          some { connection with phase := (response.map .verifying).getD .looping }
      | _ => none
  | .readFailed =>
      match connection.phase with
      | .awaiting _ => some { connection with phase := .looping }
      | _ => none
  | .read broadcast =>
      match connection.phase with
      | .awaiting response =>
          some { connection with
            client := (broadcast.map connection.client.readMessages).getD connection.client
            phase := .connected response }
      | _ => none
  | .advance => some { connection with client := connection.client.advance }
  | .advanceTo seqNum => some { connection with client := connection.client.advanceTo seqNum }

def connectionMachine : Machine FeedConnection ConnectionLabel where
  step := FeedConnection.step chainID

/-- A client that has not dialed yet. -/
def FeedConnection.start (startSeqNum : Nat) : FeedConnection :=
  ⟨newFeedClient startSeqNum, .looping, false⟩

/-! ### What each step can do -/

/-- The steps of the client. Only `read` adds to the cache. -/
inductive ConnectionOutcome (before : FeedConnection) :
    ConnectionLabel → FeedConnection → Prop where
  | cancelled : ConnectionOutcome before .cancel { before with cancelled := true }
  | unconnected {label : ConnectionLabel} {phase : ReadPhase}
      (none : phase = .looping ∨ phase = .dialing ∨ phase = .stopped) :
      ConnectionOutcome before label { before with phase }
  | dialed {response : Option Header} :
      ConnectionOutcome before (.dialed (some response))
        { before with phase := .verifying response }
  | verified {response : Option Header} (phase : before.phase = .verifying response) :
      ConnectionOutcome before .proceed
        { before with phase := afterVerification chainID response }
  | awaiting {response : Option Header} (phase : before.phase = .connected response) :
      ConnectionOutcome before .proceed { before with phase := .awaiting response }
  | skipped {response : Option Header} (phase : before.phase = .awaiting response) :
      ConnectionOutcome before (.read none) { before with phase := .connected response }
  | read {broadcast : BroadcastMessage} {response : Option Header}
      (phase : before.phase = .awaiting response) :
      ConnectionOutcome before (.read (some broadcast))
        { before with
          client := before.client.readMessages broadcast
          phase := .connected response }
  | advanced : ConnectionOutcome before .advance { before with client := before.client.advance }
  | advancedTo {seqNum : Nat} :
      ConnectionOutcome before (.advanceTo seqNum)
        { before with client := before.client.advanceTo seqNum }

variable {chainID}

theorem connectionStep_outcome {before after : FeedConnection} {label : ConnectionLabel}
    (transition : (connectionMachine chainID).step before label = some after) :
    ConnectionOutcome chainID before label after := by
  obtain ⟨client, phase, cancelled⟩ := before
  simp only [connectionMachine] at transition
  cases label with
  | cancel =>
      cases transition
      exact .cancelled
  | proceed =>
      simp only [FeedConnection.step] at transition
      split at transition
      · cases transition
        cases cancelled with
        | true => exact .unconnected (.inr (.inr rfl))
        | false => exact .unconnected (.inr (.inl rfl))
      · cases transition
        exact .verified rfl
      · cases transition
        cases cancelled with
        | true => exact .unconnected (.inl rfl)
        | false => exact .awaiting rfl
      · cases transition
  | dialed response =>
      simp only [FeedConnection.step] at transition
      split at transition <;> cases transition
      cases response with
      | none => exact .unconnected (.inl rfl)
      | some response => exact .dialed
  | readFailed =>
      simp only [FeedConnection.step] at transition
      split at transition <;> cases transition
      exact .unconnected (.inl rfl)
  | read broadcast =>
      simp only [FeedConnection.step] at transition
      split at transition <;> cases transition
      cases broadcast with
      | none => exact .skipped rfl
      | some broadcast => exact .read rfl
  | advance =>
      cases transition
      exact .advanced
  | advanceTo seqNum =>
      cases transition
      exact .advancedTo

/-- To the cache every run here is a run of the feed machine. -/
theorem connection_client_reaches {admits : FeedConnection → ConnectionLabel → Prop}
    {start connection : FeedConnection} {labels : List ConnectionLabel}
    (run : (connectionMachine chainID).Runs admits start labels connection) :
    ∃ actions, feedMachine.Reaches start.client actions connection.client := by
  refine run.project FeedConnection.client fun transition => ?_
  cases connectionStep_outcome transition with
  | @read broadcast => exact .inr ⟨.broadcast broadcast, rfl⟩
  | advanced => exact .inr ⟨.advance, rfl⟩
  | @advancedTo seqNum => exact .inr ⟨.advanceTo seqNum, rfl⟩
  | cancelled | unconnected | dialed | verified | awaiting | skipped => exact .inl rfl

/-! ### Verified connections -/

/-- The header has a chain id that parses as the given one. -/
def NamesChain (chainID : Nat) (header : Header) : Prop :=
  parseUint (header.get headerChainID) = .ok chainID

/-- The chain id of the response is missing, empty, or a numeral. -/
def NumeralChainId (_connection : FeedConnection) : ConnectionLabel → Prop
  | .dialed (some (some header)) =>
      header.get headerChainID = "" ∨ (parseUint (header.get headerChainID)).isOk
  | _ => True

instance (connection : FeedConnection) (label : ConnectionLabel) :
    Decidable (NumeralChainId connection label) :=
  match label with
  | .dialed (some (some header)) =>
      inferInstanceAs (Decidable (header.get headerChainID = "" ∨
        (parseUint (header.get headerChainID)).isOk))
  | .dialed none | .dialed (some none) | .cancel | .proceed | .readFailed | .read _ | .advance
  | .advanceTo _ => .isTrue trivial

/-- What is known of the response of a connection: before the check that its chain id is no
malformed one, and after it that it names the chain. -/
def ReadPhase.Checked (chainID : Nat) : ReadPhase → Prop
  | .verifying response => ∀ header ∈ response,
      header.get headerChainID = "" ∨ (parseUint (header.get headerChainID)).isOk
  | .connected response | .awaiting response =>
      ∃ header, response = some header ∧ NamesChain chainID header
  | .looping | .dialing | .stopped => True

theorem afterVerification_checked {response : Option Header}
    (prior : (ReadPhase.verifying response).Checked chainID) :
    (afterVerification chainID response).Checked chainID := by
  cases response with
  | none => trivial
  | some header =>
      by_cases empty : header.get headerChainID = ""
      · simp only [afterVerification, verifyChainID, if_pos empty]
        trivial
      · simp only [afterVerification, verifyChainID, if_neg empty]
        have numeral := (prior header rfl).resolve_left empty
        cases parsed : parseUint (header.get headerChainID) with
        | error cause =>
            rw [parsed] at numeral
            cases numeral
        | ok got =>
            by_cases same : got = chainID
            · subst same
              simp only [ne_eq, not_true_eq_false, if_false]
              exact ⟨header, rfl, parsed⟩
            · simp only [ne_eq, same, not_false_eq_true, if_true]
              trivial

theorem checked_of_runs {startSeqNum : Nat} {labels : List ConnectionLabel}
    {connection : FeedConnection}
    (run : (connectionMachine chainID).Runs NumeralChainId (.start startSeqNum) labels
      connection) : connection.phase.Checked chainID := by
  refine run.invariant (P := fun connection => connection.phase.Checked chainID) trivial ?_
  intro before label after prior admitted transition
  cases connectionStep_outcome transition with
  | unconnected none => rcases none with rfl | rfl | rfl <;> trivial
  | @dialed response =>
      intro header present
      cases present
      exact admitted
  | verified phase =>
      rw [phase] at prior
      exact afterVerification_checked prior
  | awaiting phase | skipped phase | read phase =>
      rw [phase] at prior
      exact prior
  | cancelled | advanced | advancedTo => exact prior

/-- The step reads a broadcast with the message, from a connection whose response names the
chain. -/
def ReadFromChain (chainID : Nat) (message : BroadcastFeedMessage) (before : FeedConnection)
    (label : ConnectionLabel) : Prop :=
  ∃ header broadcast, before.phase = .awaiting (some header) ∧ NamesChain chainID header ∧
    label = .read (some broadcast) ∧ message ∈ broadcast.received

/-- A message that a broadcast adds to the cache is one of the broadcast. -/
theorem mem_received_of_readMessages {client : FeedClient} {broadcast : BroadcastMessage}
    {seqNum : Nat} {message : BroadcastFeedMessage}
    (found : (client.readMessages broadcast).getMessage seqNum = some message)
    (new : client.getMessage seqNum ≠ some message) : message ∈ broadcast.received := by
  have notBehind : client.nextSeqNum ≤ seqNum := by
    simpa using FeedClient.nextSeqNum_le found
  rw [FeedClient.getMessage_readMessages client broadcast notBehind] at found
  rcases Option.or_eq_some_iff.mp found with old | ⟨-, received⟩
  · exact absurd old new
  · exact List.mem_of_find?_eq_some received

/-- In every run over connections without malformed chain ids, every message of the cache was
read from a connection whose chain id parsed as the configured one. -/
theorem feed_messages_from_verified_chain {startSeqNum : Nat} {labels : List ConnectionLabel}
    {connection : FeedConnection}
    (run : (connectionMachine chainID).Runs NumeralChainId (.start startSeqNum) labels
      connection)
    {seqNum : Nat} {message : BroadcastFeedMessage}
    (cached : connection.client.getMessage seqNum = some message) :
    (connectionMachine chainID).Since NumeralChainId (.start startSeqNum)
      (fun _ before label _ => ReadFromChain chainID message before label) (fun _ => True)
      labels := by
  induction run with
  | refl => simp [FeedConnection.start] at cached
  | @step taken before label after prior admitted transition inductionHypothesis =>
      by_cases old : before.client.getMessage seqNum = some message
      · exact .later (inductionHypothesis old) trivial
      · cases connectionStep_outcome transition with
        | @read broadcast response phase =>
            have checked := checked_of_runs prior
            rw [phase] at checked
            obtain ⟨header, rfl, names⟩ := checked
            exact .now prior admitted transition
              ⟨header, broadcast, phase, names, rfl, mem_received_of_readMessages cached old⟩
        | advanced | advancedTo =>
            simp only [FeedClient.getMessage_advance, FeedClient.getMessage_advanceTo] at cached
            split at cached
            · cases cached
            · exact absurd cached old
        | cancelled | unconnected | dialed | verified | awaiting | skipped =>
            exact absurd cached old

/-- A response with the chain id as given. -/
def sampleFeedHeader (value : String) : Header := Header.set ∅ headerChainID value

/-- One connection that is accepted and one broadcast. -/
def sampleFeedRun (value : String) : List ConnectionLabel :=
  [.proceed, .dialed (some (some (sampleFeedHeader value))), .proceed, .proceed,
    .read (some ⟨1, [some ⟨5, ⟨none, 0⟩⟩]⟩)]

/-- The chain id is written in hexadecimal. -/
theorem feed_message_from_hexadecimal_chain :
    ∃ connection, (connectionMachine 42161).Runs NumeralChainId (.start 5)
        (sampleFeedRun "0xa4b1") connection ∧
      connection.client.getMessage 5 = some ⟨5, ⟨none, 0⟩⟩ ∧
      (connectionMachine 42161).Since NumeralChainId (.start 5)
        (fun _ before label _ => ReadFromChain 42161 ⟨5, ⟨none, 0⟩⟩ before label)
        (fun _ => True) (sampleFeedRun "0xa4b1") := by
  obtain ⟨connection, computed, cached⟩ : ∃ connection,
      (connectionMachine 42161).exec NumeralChainId (.start 5) (sampleFeedRun "0xa4b1") =
        some connection ∧
      connection.client.getMessage 5 = some ⟨5, ⟨none, 0⟩⟩ := ⟨_, rfl, rfl⟩
  have run := Machine.Runs.ofExec computed
  exact ⟨connection, run, cached, feed_messages_from_verified_chain run cached⟩

/-- A message is cached although the chain id of the only connection is not a numeral. -/
theorem feed_message_from_malformed_chain :
    ∃ connection, (connectionMachine 42161).Reaches (.start 5) (sampleFeedRun "abc")
        connection ∧
      connection.client.getMessage 5 = some ⟨5, ⟨none, 0⟩⟩ ∧
      ∀ header, ConnectionLabel.dialed (some (some header)) ∈ sampleFeedRun "abc" →
        parseUint (header.get headerChainID) = .error .badSyntax ∧
          ¬ NamesChain 42161 header := by
  obtain ⟨connection, computed, cached⟩ : ∃ connection,
      (connectionMachine 42161).exec (fun _ _ => True) (.start 5) (sampleFeedRun "abc") =
        some connection ∧
      connection.client.getMessage 5 = some ⟨5, ⟨none, 0⟩⟩ := ⟨_, rfl, rfl⟩
  refine ⟨connection, Machine.Runs.ofExec computed, cached, fun header dialed => ?_⟩
  have malformed : parseUint ((sampleFeedHeader "abc").get headerChainID) =
      .error .badSyntax := by decide
  have only : header = sampleFeedHeader "abc" := by simpa [sampleFeedRun] using dialed
  subst only
  refine ⟨malformed, fun names => ?_⟩
  rw [NamesChain, malformed] at names
  cases names

end EspressoProxy.Verifier.Nitro
