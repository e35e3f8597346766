import EspressoProxy.Ethereum.Types
import EspressoProxy.Semantics.GoMap
import EspressoProxy.Semantics.Uint64

/-!
# The sequencer feed client

The client caches the messages of the sequencer feed by sequence number. The verifier
moves it forward together with the Espresso streamer. A broadcast here is what
`readMessages` has read and decoded; its connection is modelled apart.
-/

namespace EspressoProxy.Verifier.Nitro

open EspressoProxy.Ethereum EspressoProxy.Semantics

/-- An incoming message: the data that the sequencer ordered, and the rest of the
record, which the proxy only encodes. -/
structure L1IncomingMessage where
  header : Bytes
  l2msg : Bytes
deriving DecidableEq, Repr

/-- A message with the number of delayed messages read so far. The incoming message is
a pointer, so it may be missing. -/
structure MessageWithMetadata where
  message : Option L1IncomingMessage
  delayedMessagesRead : Nat
deriving DecidableEq, Repr

/-- The assignment `espressoMsg.Message.L2msg = data`. -/
def MessageWithMetadata.withL2msg (message : MessageWithMetadata) (data : Bytes) :
    MessageWithMetadata :=
  { message with message := message.message.map fun incoming => { incoming with l2msg := data } }

structure BroadcastFeedMessage where
  sequenceNumber : Nat
  message : MessageWithMetadata
deriving DecidableEq, Repr

structure BroadcastMessage where
  version : Int
  messages : List (Option BroadcastFeedMessage)
deriving DecidableEq, Repr

def broadcastMessageVersion : Int := 1

/-- The messages that a broadcast carries; one of another version is ignored. -/
def BroadcastMessage.received (broadcast : BroadcastMessage) : List BroadcastFeedMessage :=
  if broadcast.version ≠ broadcastMessageVersion then [] else broadcast.messages.filterMap id

/-- The cached messages and the next sequence number. Nothing below that number is
cached. -/
structure FeedClient where
  nextSeqNum : Nat
  messages : GoMap Nat BroadcastFeedMessage
  retained : ∀ {seqNum message}, messages.get seqNum = some message → nextSeqNum ≤ seqNum

def newFeedClient (startSeqNum : Nat) : FeedClient where
  nextSeqNum := startSeqNum
  messages := ∅
  retained := by
    intro seqNum message found
    simp at found

namespace FeedClient

def getMessage (client : FeedClient) (seqNum : Nat) : Option BroadcastFeedMessage :=
  client.messages.get seqNum

/-- Delete the messages before a sequence number and continue from it, even if it is
behind. -/
def advanceTo (client : FeedClient) (seqNum : Nat) : FeedClient where
  nextSeqNum := seqNum
  messages :=
    client.messages.deleteAll (List.range' client.nextSeqNum (seqNum - client.nextSeqNum))
  retained := by
    intro other message found
    rw [GoMap.get_deleteAll] at found
    split at found
    · cases found
    · rename_i notDeleted
      have bound := client.retained found
      rw [List.mem_range'_1] at notDeleted
      omega

def advance (client : FeedClient) : FeedClient where
  nextSeqNum := u64 (client.nextSeqNum + 1)
  messages := client.messages.delete client.nextSeqNum
  retained := by
    intro other message found
    rw [GoMap.get_delete] at found
    split at found
    · cases found
    · rename_i different
      have bound := client.retained found
      have reduced := u64_le (client.nextSeqNum + 1)
      omega

/-- Store a message, unless it is behind or a message with its number is cached. -/
def receive (client : FeedClient) (message : BroadcastFeedMessage) : FeedClient where
  nextSeqNum := client.nextSeqNum
  messages :=
    if message.sequenceNumber < client.nextSeqNum then client.messages
    else if (client.messages.get message.sequenceNumber).isSome then client.messages
    else client.messages.set message.sequenceNumber message
  retained := by
    intro other found stored
    split at stored
    · exact client.retained stored
    · rename_i notBehind
      split at stored
      · exact client.retained stored
      · rw [GoMap.get_set] at stored
        split at stored
        · rename_i same
          omega
        · exact client.retained stored

/-- `readMessages`, for one broadcast. -/
def readMessages (client : FeedClient) (broadcast : BroadcastMessage) : FeedClient :=
  broadcast.received.foldl receive client

@[simp] theorem getMessage_new (startSeqNum seqNum : Nat) :
    (newFeedClient startSeqNum).getMessage seqNum = none :=
  GoMap.get_empty seqNum

/-- Nothing below the next sequence number can be read. -/
theorem nextSeqNum_le {client : FeedClient} {seqNum : Nat} {message : BroadcastFeedMessage}
    (found : client.getMessage seqNum = some message) : client.nextSeqNum ≤ seqNum :=
  client.retained found

theorem getMessage_advanceTo (client : FeedClient) (target seqNum : Nat) :
    (client.advanceTo target).getMessage seqNum =
      if seqNum < target then none else client.getMessage seqNum := by
  simp only [getMessage, advanceTo, GoMap.get_deleteAll, List.mem_range'_1]
  by_cases before : seqNum < target
  · rw [if_pos before]
    split
    · rfl
    · rename_i outside
      cases found : client.messages.get seqNum with
      | none => rfl
      | some message =>
          have bound := client.retained found
          omega
  · rw [if_neg before, if_neg (by omega)]

theorem getMessage_advance (client : FeedClient) (seqNum : Nat) :
    client.advance.getMessage seqNum =
      if seqNum = client.nextSeqNum then none else client.getMessage seqNum :=
  GoMap.get_delete _ _ _

theorem getMessage_receive (client : FeedClient) (message : BroadcastFeedMessage)
    {seqNum : Nat} (notBehind : client.nextSeqNum ≤ seqNum) :
    (client.receive message).getMessage seqNum =
      (client.getMessage seqNum).or
        (if message.sequenceNumber = seqNum then some message else none) := by
  simp only [getMessage, receive]
  by_cases behind : message.sequenceNumber < client.nextSeqNum
  · rw [if_pos behind, if_neg (by omega), Option.or_none]
  · rw [if_neg behind]
    by_cases same : message.sequenceNumber = seqNum
    · subst same
      cases cached : client.messages.get message.sequenceNumber with
      | none => simp
      | some earlier => simp [cached]
    · rw [if_neg same, Option.or_none]
      split
      · rfl
      · exact GoMap.get_set_of_ne _ _ fun equal => same equal.symm

@[simp] theorem nextSeqNum_readMessages (client : FeedClient) (broadcast : BroadcastMessage) :
    (client.readMessages broadcast).nextSeqNum = client.nextSeqNum := by
  unfold readMessages
  induction broadcast.received generalizing client with
  | nil => rfl
  | cons message rest inductionHypothesis => exact inductionHypothesis (client.receive message)

/-- Of the messages with one sequence number, the first received is kept. -/
theorem getMessage_readMessages (client : FeedClient) (broadcast : BroadcastMessage)
    {seqNum : Nat} (notBehind : client.nextSeqNum ≤ seqNum) :
    (client.readMessages broadcast).getMessage seqNum =
      (client.getMessage seqNum).or
        (broadcast.received.find? fun message => message.sequenceNumber = seqNum) := by
  unfold readMessages
  induction broadcast.received generalizing client with
  | nil => simp
  | cons message rest inductionHypothesis =>
      have later := inductionHypothesis (client.receive message) notBehind
      rw [List.foldl_cons, later, getMessage_receive client message notBehind, Option.or_assoc]
      congr 1
      by_cases same : message.sequenceNumber = seqNum
      · simp [same]
      · simp [same]

/-- A cached message is not replaced. -/
theorem getMessage_readMessages_of_some {client : FeedClient} {seqNum : Nat}
    {message : BroadcastFeedMessage} (found : client.getMessage seqNum = some message)
    (broadcast : BroadcastMessage) :
    (client.readMessages broadcast).getMessage seqNum = some message := by
  rw [getMessage_readMessages client broadcast (nextSeqNum_le found), found, Option.some_or]

end FeedClient
end EspressoProxy.Verifier.Nitro
