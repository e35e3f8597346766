import EspressoProxy.Ethereum.Types

/-!
# Blocks of the OP full node and batches of Espresso

The block that Espresso finalized is rebuilt from its batch and compared with the
block of the full node after the user deposits, which a batch does not carry, were
removed from it. Header hashing, RLP encoding and the decoding of transactions are
go-ethereum's; they are the fields of `BlockCodec`.
-/

namespace EspressoProxy.Verifier.Op

open EspressoProxy.Ethereum

/-- A block header: the fields the verifier reads, and all others as one value. -/
structure Header where
  parentHash : Hash
  number : Nat
  rest : Bytes
deriving DecidableEq, Repr

/-- A transaction: its type, its calldata, and all other fields as one value. -/
structure Transaction where
  type : Nat
  data : Bytes
  rest : Bytes
deriving DecidableEq, Repr

/-- The transaction type of an L1-derived deposit. -/
def depositTxType : Nat := 0x7e

def Transaction.isDepositTx (transaction : Transaction) : Bool :=
  transaction.type == depositTxType

/-- A block with its body. Withdrawals may be absent. -/
structure Block where
  header : Header
  transactions : List Transaction
  uncles : List Header
  withdrawals : Option (List Bytes)
deriving DecidableEq, Repr

/-- The identifier of an L1 block. -/
structure BlockID where
  hash : Hash
  number : Nat
deriving DecidableEq, Repr

/-- The identifier that was never set, `eth.BlockID{}`. -/
def BlockID.unset : BlockID := ⟨0, 0⟩

/-- A batch as the streamer delivers it: the header, the L1-info deposit, the other
transactions in their binary encoding, and the L1 origin. -/
structure EspressoBatch where
  batchHeader : Header
  l1InfoDeposit : Transaction
  transactions : List Bytes
  l1Origin : BlockID
deriving DecidableEq, Repr

def EspressoBatch.number (batch : EspressoBatch) : Nat := batch.batchHeader.number

/-- The functions of go-ethereum that the comparison uses. -/
structure BlockCodec where
  headerHash : Header → Hash
  encodeBlock : Block → Option Bytes
  unmarshalTransaction : Bytes → Option Transaction

/-- The error returns of rebuilding and comparing a block. -/
inductive BlockError where
  | undecodable (index : Nat)
  | hashMismatch (espresso fullNode : Hash)
  | espressoEncoding
  | fullNodeEncoding
  | contentMismatch (number : Nat)
deriving DecidableEq, Repr

variable (codec : BlockCodec)

/-- Remove the deposits after the first transaction; a block without any is returned
as it is. -/
def filterUserDeposits (block : Block) : Block :=
  match block.transactions with
  | [] => block
  | first :: others =>
      let filtered := first :: others.filter fun transaction => !transaction.isDepositTx
      if filtered.length = block.transactions.length then block
      else { block with transactions := filtered }

/-- The loop that decodes the opaque transactions of a batch, from index `index` on. -/
def decodeTransactions : List Bytes → Nat → Except BlockError (List Transaction)
  | [], _ => .ok []
  | opaqueTx :: rest, index =>
      match codec.unmarshalTransaction opaqueTx with
      | none => .error (.undecodable index)
      | some transaction =>
          match decodeTransactions rest (index + 1) with
          | .error cause => .error cause
          | .ok transactions => .ok (transaction :: transactions)

/-- The block that a batch stands for, with the uncles and withdrawals of the block
it will be compared with. -/
def espressoBatchToBlock (fullNodeBlock : Block) (batch : EspressoBatch) :
    Except BlockError Block :=
  match decodeTransactions codec batch.transactions 0 with
  | .error cause => .error cause
  | .ok transactions => .ok
      { header := batch.batchHeader
        transactions := batch.l1InfoDeposit :: transactions
        uncles := fullNodeBlock.uncles
        withdrawals := fullNodeBlock.withdrawals }

/-- Compare two blocks, first by hash and then byte for byte. -/
def ensureBlocksMatch (espresso fullNode : Block) : Except BlockError Unit :=
  if codec.headerHash espresso.header ≠ codec.headerHash fullNode.header then
    .error (.hashMismatch (codec.headerHash espresso.header) (codec.headerHash fullNode.header))
  else
    match codec.encodeBlock espresso with
    | none => .error .espressoEncoding
    | some espressoRLP =>
        match codec.encodeBlock fullNode with
        | none => .error .fullNodeEncoding
        | some fullNodeRLP =>
            if espressoRLP ≠ fullNodeRLP then .error (.contentMismatch espresso.header.number)
            else .ok ()

end EspressoProxy.Verifier.Op
