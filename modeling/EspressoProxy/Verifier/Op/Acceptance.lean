import EspressoProxy.Semantics.BigEndian
import EspressoProxy.Semantics.PrefixCode
import EspressoProxy.Semantics.Traversal
import EspressoProxy.Verifier.Op.Verifier

/-!
# Which blocks the OP verifier accepts

The verdict on a full-node block and a batch comes from rebuilding the block from the
batch, removing the user deposits from the full-node block and comparing the two in hash
and encoding. It amounts to a condition on headers and transactions alone, because the
uncles and withdrawals of the rebuilt block are those of the block it is compared with.
-/

namespace EspressoProxy.Verifier.Op

open EspressoProxy.Ethereum EspressoProxy.Semantics

variable (codec : BlockCodec)

/-- The part of `VerifyNextBatch` after both the batch and the block are there. -/
def blockVerdict (fullNodeBlock : Block) (batch : EspressoBatch) : Except BlockError Unit :=
  match espressoBatchToBlock codec fullNodeBlock batch with
  | .error cause => .error cause
  | .ok espressoBlock => ensureBlocksMatch codec espressoBlock (filterUserDeposits fullNodeBlock)

/-- RLP encoding never fails and different blocks have different encodings. -/
structure BlockCodec.Faithful : Prop where
  total : ∀ block, ∃ bytes, codec.encodeBlock block = some bytes
  injective : Function.Injective codec.encodeBlock

/-- The transactions without the deposits after the first. -/
def withoutUserDeposits : List Transaction → List Transaction
  | [] => []
  | first :: others => first :: others.filter fun transaction => !transaction.isDepositTx

/-- The batch stands for the block: the same header, transactions that decode, and the
same transactions up to the user deposits of the block. -/
structure Matches (fullNodeBlock : Block) (batch : EspressoBatch) : Prop where
  header : batch.batchHeader = fullNodeBlock.header
  transactions : ∃ decoded first others,
    List.Forall₂ (fun opaqueTx transaction =>
      codec.unmarshalTransaction opaqueTx = some transaction) batch.transactions decoded ∧
    fullNodeBlock.transactions = first :: others ∧ batch.l1InfoDeposit = first ∧
    decoded = others.filter fun transaction => !transaction.isDepositTx

/-- The blocks differ at most in deposits after the first transaction. -/
structure SameUpToUserDeposits (left right : Block) : Prop where
  header : left.header = right.header
  uncles : left.uncles = right.uncles
  withdrawals : left.withdrawals = right.withdrawals
  transactions : withoutUserDeposits left.transactions = withoutUserDeposits right.transactions

variable {codec}

theorem filterUserDeposits_eq (block : Block) :
    filterUserDeposits block =
      { block with transactions := withoutUserDeposits block.transactions } := by
  obtain ⟨header, transactions, uncles, withdrawals⟩ := block
  cases transactions with
  | nil => rfl
  | cons first others =>
      rw [filterUserDeposits]
      dsimp only
      split <;> rename_i lengths
      · -- Nothing was removed, so the block is returned as it is.
        have unchanged : others.filter (fun transaction => !transaction.isDepositTx) = others := by
          rw [List.length_cons, List.length_cons, Nat.add_right_cancel_iff] at lengths
          exact List.filter_sublist.eq_of_length lengths
        rw [withoutUserDeposits, unchanged]
      · rfl

theorem decodeTransactions_ok_iff {opaqueTxs : List Bytes} {index : Nat}
    {transactions : List Transaction} :
    decodeTransactions codec opaqueTxs index = .ok transactions ↔
      List.Forall₂ (fun opaqueTx transaction =>
        codec.unmarshalTransaction opaqueTx = some transaction) opaqueTxs transactions := by
  constructor
  · intro decodes
    induction opaqueTxs generalizing index transactions with
    | nil =>
        cases decodes
        exact .nil
    | cons opaqueTx rest inductionHypothesis =>
        rw [decodeTransactions] at decodes
        split at decodes
        · cases decodes
        · rename_i transaction first
          split at decodes
          · cases decodes
          · rename_i decoded later
            cases decodes
            exact .cons first (inductionHypothesis later)
  · intro each
    induction each generalizing index with
    | nil => rfl
    | cons first _ inductionHypothesis =>
        rw [decodeTransactions, first]
        dsimp only
        rw [inductionHypothesis]

theorem ensureBlocksMatch_ok_iff (faithful : codec.Faithful) {espresso fullNode : Block} :
    ensureBlocksMatch codec espresso fullNode = .ok () ↔ espresso = fullNode := by
  obtain ⟨espressoRLP, espressoEncodes⟩ := faithful.total espresso
  obtain ⟨fullNodeRLP, fullNodeEncodes⟩ := faithful.total fullNode
  constructor
  · intro accepted
    rw [ensureBlocksMatch, espressoEncodes, fullNodeEncodes] at accepted
    dsimp only at accepted
    split at accepted
    · cases accepted
    · split at accepted <;> rename_i encodings
      · cases accepted
      · apply faithful.injective
        rw [espressoEncodes, fullNodeEncodes, not_not.mp encodings]
  · rintro rfl
    simp [ensureBlocksMatch, espressoEncodes]

/-- The verdict as a condition on headers and transactions. -/
theorem blockVerdict_ok_iff (faithful : codec.Faithful) {fullNodeBlock : Block}
    {batch : EspressoBatch} :
    blockVerdict codec fullNodeBlock batch = .ok () ↔ Matches codec fullNodeBlock batch := by
  have accepted_iff : blockVerdict codec fullNodeBlock batch = .ok () ↔
      ∃ decoded, decodeTransactions codec batch.transactions 0 = .ok decoded ∧
        (⟨batch.batchHeader, batch.l1InfoDeposit :: decoded, fullNodeBlock.uncles,
          fullNodeBlock.withdrawals⟩ : Block) = filterUserDeposits fullNodeBlock := by
    rw [blockVerdict, espressoBatchToBlock]
    cases decodeTransactions codec batch.transactions 0 with
    | error cause => simp
    | ok decoded => simp [ensureBlocksMatch_ok_iff faithful]
  rw [accepted_iff, filterUserDeposits_eq]
  constructor
  · rintro ⟨decoded, decodes, same⟩
    rw [Block.mk.injEq] at same
    obtain ⟨header, transactions, -, -⟩ := same
    cases listed : fullNodeBlock.transactions with
    | nil =>
        rw [listed] at transactions
        cases transactions
    | cons first others =>
        rw [listed, withoutUserDeposits, List.cons.injEq] at transactions
        exact ⟨header, decoded, first, others, decodeTransactions_ok_iff.mp decodes, listed,
          transactions.1, transactions.2⟩
  · rintro ⟨header, decoded, first, others, decodes, listed, deposit, same⟩
    refine ⟨decoded, decodeTransactions_ok_iff.mpr decodes, ?_⟩
    rw [header, listed, deposit, same, withoutUserDeposits]

/-- `VerifyNextBatch` returns a batch exactly if it was peeked, the full node has the block
and the verdict on the two is positive. -/
theorem verifyNextBatch_some_iff {tip : Hash} {answers : IterationAnswers}
    {batch : EspressoBatch} :
    verifyNextBatch codec tip answers = .ok (some batch) ↔
      peekNextBatch tip answers = .ok (some batch) ∧
      ∃ fullNodeBlock, getFullNodeBlock answers batch.number = .ok fullNodeBlock ∧
        blockVerdict codec fullNodeBlock batch = .ok () := by
  rw [verifyNextBatch]
  constructor
  · intro returned
    split at returned
    · cases returned
    · cases returned
    · rename_i candidate peeked
      split at returned
      · cases returned
      · rename_i fullNodeBlock fetched
        split at returned
        · cases returned
        · rename_i espressoBlock rebuilt
          split at returned
          · cases returned
          · rename_i matched
            cases returned
            exact ⟨peeked, fullNodeBlock, fetched, by rw [blockVerdict, rebuilt]; exact matched⟩
  · rintro ⟨peeked, fullNodeBlock, fetched, verdict⟩
    cases rebuilt : espressoBatchToBlock codec fullNodeBlock batch with
    | error cause =>
        rw [blockVerdict, rebuilt] at verdict
        cases verdict
    | ok espressoBlock =>
        rw [blockVerdict, rebuilt] at verdict
        simp only [peeked, fetched, rebuilt, verdict]

theorem not_matches_of_deposit {fullNodeBlock : Block} {batch : EspressoBatch} {opaqueTx : Bytes}
    {transaction : Transaction} (carried : opaqueTx ∈ batch.transactions)
    (decodes : codec.unmarshalTransaction opaqueTx = some transaction)
    (deposit : transaction.isDepositTx) : ¬ Matches codec fullNodeBlock batch := by
  rintro ⟨-, decoded, first, others, each, -, -, rfl⟩
  obtain ⟨kept, present, same⟩ := exists_mem_of_forall₂ each carried
  rw [decodes, Option.some.injEq] at same
  have ordinary : kept.isDepositTx = false := by simpa using List.of_mem_filter present
  rw [← same, deposit] at ordinary
  cases ordinary

theorem blockVerdict_congr {left right : Block} (same : SameUpToUserDeposits left right)
    (batch : EspressoBatch) : blockVerdict codec left batch = blockVerdict codec right batch := by
  have filtered : filterUserDeposits left = filterUserDeposits right := by
    rw [filterUserDeposits_eq, filterUserDeposits_eq, same.transactions, same.header, same.uncles,
      same.withdrawals]
  rw [blockVerdict, blockVerdict, espressoBatchToBlock, espressoBatchToBlock, filtered, same.uncles,
    same.withdrawals]

/-- The exact condition of acceptance. In particular a batch that carries a deposit is
never accepted, and user deposits of the full-node block do not influence the verdict. -/
theorem block_acceptance_exact (faithful : codec.Faithful) (fullNodeBlock : Block)
    (batch : EspressoBatch) :
    (blockVerdict codec fullNodeBlock batch = .ok () ↔ Matches codec fullNodeBlock batch) ∧
    (∀ opaqueTx ∈ batch.transactions, ∀ transaction,
      codec.unmarshalTransaction opaqueTx = some transaction → transaction.isDepositTx →
        blockVerdict codec fullNodeBlock batch ≠ .ok ()) ∧
    ∀ other, SameUpToUserDeposits fullNodeBlock other →
      blockVerdict codec fullNodeBlock batch = blockVerdict codec other batch := by
  refine ⟨blockVerdict_ok_iff faithful, ?_, fun other same => blockVerdict_congr same batch⟩
  intro opaqueTx carried transaction decodes deposit accepted
  exact not_matches_of_deposit carried decodes deposit ((blockVerdict_ok_iff faithful).mp accepted)

/-! ### An encoding -/

def writeBytes : Bytes → Bytes := writeList 1 0 fun byte => [byte]

def writeNumber (number : Nat) : Bytes := writeBytes (writeBE 0 number)

def writeHeader (header : Header) : Bytes :=
  writeNumber header.parentHash.toNat ++ (writeNumber header.number ++ writeBytes header.rest)

def writeTransaction (transaction : Transaction) : Bytes :=
  writeNumber transaction.type ++ (writeBytes transaction.data ++ writeBytes transaction.rest)

def writeBlock (block : Block) : Bytes :=
  writeHeader block.header ++ (writeList 1 0 writeTransaction block.transactions ++
    (writeList 1 0 writeHeader block.uncles ++
      writeList 1 0 (writeList 1 0 writeBytes) block.withdrawals.toList))

theorem writeBytes_prefixFree : PrefixFree writeBytes :=
  prefixFree_singleton.list (by decide)

theorem writeNumber_prefixFree : PrefixFree writeNumber :=
  writeBytes_prefixFree.comap _ (Function.LeftInverse.injective (readBE_writeBE 0))

theorem writeHeader_prefixFree : PrefixFree writeHeader := by
  refine (writeNumber_prefixFree.append (writeNumber_prefixFree.append
    writeBytes_prefixFree)).comap
    (fun header : Header => (header.parentHash.toNat, header.number, header.rest)) ?_
  rintro ⟨⟩ ⟨⟩ same
  simpa [BitVec.toNat_inj] using same

theorem writeTransaction_prefixFree : PrefixFree writeTransaction := by
  refine (writeNumber_prefixFree.append (writeBytes_prefixFree.append
    writeBytes_prefixFree)).comap
    (fun transaction : Transaction =>
      (transaction.type, transaction.data, transaction.rest)) ?_
  rintro ⟨⟩ ⟨⟩ same
  simpa using same

theorem writeBlock_prefixFree : PrefixFree writeBlock := by
  refine (writeHeader_prefixFree.append ((writeTransaction_prefixFree.list (by decide)).append
    ((writeHeader_prefixFree.list (by decide)).append
      ((writeBytes_prefixFree.list (by decide)).list (by decide))))).comap
    (fun block : Block =>
      (block.header, block.transactions, block.uncles, block.withdrawals.toList)) ?_
  rintro ⟨header, transactions, uncles, withdrawals⟩ ⟨_, _, _, others⟩ same
  simp only [Prod.mk.injEq] at same
  obtain ⟨rfl, rfl, rfl, listed⟩ := same
  have sameWithdrawals : withdrawals = others := by
    cases withdrawals <;> cases others <;> cases listed <;> rfl
  rw [sameWithdrawals]

/-- A codec whose hash depends on every byte of a header. -/
def sampleBlockCodec : BlockCodec where
  headerHash header := (writeHeader header).foldl
    (fun hash byte => hash * 257 + BitVec.ofNat 256 (byte.toNat + 1)) 1
  encodeBlock block := some (writeBlock block)
  unmarshalTransaction data := some ⟨2, data, []⟩

theorem sampleBlockCodec_faithful : sampleBlockCodec.Faithful where
  total _ := ⟨_, rfl⟩
  injective _ _ same := writeBlock_prefixFree.injective (Option.some.inj same)

/-- A block with a user deposit after the L1-info deposit, and the batch for it. -/
theorem block_acceptance_exact_with_user_deposit :
    let deposit : Transaction := ⟨depositTxType, [1], []⟩
    let transfer : Transaction := ⟨2, [7], []⟩
    let fullNodeBlock : Block := ⟨⟨9, 5, [4]⟩, [deposit, ⟨depositTxType, [3], []⟩, transfer], [],
      none⟩
    let batch : EspressoBatch := ⟨⟨9, 5, [4]⟩, deposit, [[7]], ⟨0, 0⟩⟩
    sampleBlockCodec.Faithful ∧ blockVerdict sampleBlockCodec fullNodeBlock batch = .ok () := by
  intro deposit transfer fullNodeBlock batch
  refine ⟨sampleBlockCodec_faithful,
    (block_acceptance_exact sampleBlockCodec_faithful fullNodeBlock batch).1.mpr ⟨rfl, ?_⟩⟩
  exact ⟨[transfer], deposit, _, .cons rfl .nil, rfl, rfl, rfl⟩

end EspressoProxy.Verifier.Op
