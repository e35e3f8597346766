import EspressoProxy.Semantics.BigEndian
import EspressoProxy.Verifier.Op.Block

/-!
# The L1 origin of an L2 block

The first transaction of an L2 block is a deposit whose calldata names the L1 block that the
L2 block was derived from. `l1OriginFromL2Block` reads it at fixed offsets. These are the
same for the calldata of Bedrock, which is made of 32-byte words, and for the packed calldata
of the later forks.

A slice that is out of range would stop the process: it is the outcome `none`.
-/

namespace EspressoProxy.Verifier.Op

open EspressoProxy.Ethereum EspressoProxy.Semantics

/-- A byte string of known length. -/
abbrev SizedBytes (size : Nat) := { bytes : Bytes // bytes.length = size }

/-- The forks with a calldata layout that the verifier knows. -/
inductive L1InfoFork where
  | bedrock
  | ecotone
  | isthmus
  | jovian
deriving DecidableEq, Repr

def functionSelectorLength : Nat := 4
def l1OriginNumberOffset : Nat := 28
def l1OriginNumberOffsetEnd : Nat := l1OriginNumberOffset + 8
def l1OriginHashOffset : Nat := 100
def l1OriginHashOffsetEnd : Nat := l1OriginHashOffset + 32

inductive L1OriginError where
  | noDeposit (blockNumber : Nat)
  | tooShort (got need : Nat)
  | unrecognizedSelector (selector : Bytes)
deriving DecidableEq, Repr

/-- `binary.BigEndian.Uint64`, which needs eight bytes. -/
def bigEndianUint64 (bytes : Bytes) : Option Nat := (slice? 0 8 bytes).map readBE

/-- `common.BytesToHash`, which keeps the last 32 bytes. -/
def bytesToHash (bytes : Bytes) : Hash := BitVec.ofNat 256 (readBE bytes)

-- The function selector of each fork.
variable (selector : L1InfoFork → SizedBytes functionSelectorLength)

def knownL1InfoSelectors : List Bytes :=
  [selector .bedrock, selector .ecotone, selector .isthmus, selector .jovian]

/-- The L1 origin in the first transaction of a block. -/
def l1OriginFromL2Block (block : Block) : Option (Except L1OriginError BlockID) :=
  match block.transactions with
  | [] => some (.error (.noDeposit block.header.number))
  | first :: _ =>
      if !first.isDepositTx then some (.error (.noDeposit block.header.number))
      else if first.data.length < l1OriginHashOffsetEnd then
        some (.error (.tooShort first.data.length l1OriginHashOffsetEnd))
      else do
        let found ← slice? 0 functionSelectorLength first.data
        if found ∉ knownL1InfoSelectors selector then
          let shown ← slice? 0 4 first.data
          return .error (.unrecognizedSelector shown)
        else
          let number ← slice? l1OriginNumberOffset l1OriginNumberOffsetEnd first.data
          let hash ← slice? l1OriginHashOffset l1OriginHashOffsetEnd first.data
          return .ok ⟨bytesToHash hash, ← bigEndianUint64 number⟩

/-! ### What the decoder computes -/

/-- The origin that stands at the offsets. -/
def originAt (data : Bytes) : BlockID :=
  ⟨bytesToHash ((data.drop 100).take 32), readBE ((data.drop 28).take 8)⟩

/-- The first transaction is a deposit with enough calldata and a known selector. -/
def HasL1Info (block : Block) (first : Transaction) : Prop :=
  block.transactions.head? = some first ∧ first.isDepositTx ∧ 132 ≤ first.data.length ∧
    first.data.take 4 ∈ knownL1InfoSelectors selector

variable {selector}

theorem bigEndianUint64_of_length {bytes : Bytes} (length : bytes.length = 8) :
    bigEndianUint64 bytes = some (readBE bytes) := by
  rw [bigEndianUint64, slice?_of_le (by decide) length.ge, List.drop_zero,
    List.take_of_length_le length.le]
  rfl

/-- From enough calldata of a deposit the decoder gets the selector and, if it is a known
one, the origin at the offsets. -/
theorem l1OriginFromL2Block_of_deposit {block : Block} {first : Transaction}
    {others : List Transaction} (transactions : block.transactions = first :: others)
    (deposit : first.isDepositTx) (long : 132 ≤ first.data.length) :
    l1OriginFromL2Block selector block = some
      (if first.data.take 4 ∈ knownL1InfoSelectors selector then .ok (originAt first.data)
      else .error (.unrecognizedSelector (first.data.take 4))) := by
  have selected : slice? 0 4 first.data = some (first.data.take 4) :=
    slice?_of_le (by decide) (by omega)
  have number : slice? 28 36 first.data = some ((first.data.drop 28).take 8) :=
    slice?_of_le (by decide) (by omega)
  have hash : slice? 100 132 first.data = some ((first.data.drop 100).take 32) :=
    slice?_of_le (by decide) long
  have numberLength : ((first.data.drop 28).take 8).length = 8 := by
    rw [List.length_take, List.length_drop]
    omega
  have enough : ¬ first.data.length < l1OriginHashOffsetEnd := Nat.not_lt.mpr long
  simp only [l1OriginFromL2Block, transactions, deposit, if_neg enough, Bool.not_true,
    Bool.false_eq_true, if_false]
  rw [show functionSelectorLength = 4 from rfl, selected, Option.bind_eq_bind,
    Option.bind_some]
  by_cases known : first.data.take 4 ∈ knownL1InfoSelectors selector
  · rw [if_neg (not_not_intro known), if_pos known]
    simp only [l1OriginNumberOffset, l1OriginNumberOffsetEnd, l1OriginHashOffset,
      l1OriginHashOffsetEnd, number, hash, bigEndianUint64_of_length numberLength,
      Option.bind_eq_bind, Option.bind_some]
    rfl
  · rw [if_pos known, if_neg known]
    rfl

/-- On a block without L1 info the decoder returns one of its errors. -/
theorem l1OriginFromL2Block_error {block : Block}
    (without : ∀ first, ¬ HasL1Info selector block first) :
    ∃ cause, l1OriginFromL2Block selector block = some (.error cause) := by
  cases transactions : block.transactions with
  | nil => exact ⟨.noDeposit block.header.number, by simp [l1OriginFromL2Block, transactions]⟩
  | cons first others =>
      by_cases deposit : first.isDepositTx
      · by_cases long : 132 ≤ first.data.length
        · refine ⟨.unrecognizedSelector (first.data.take 4), ?_⟩
          rw [l1OriginFromL2Block_of_deposit transactions deposit long, if_neg]
          intro known
          exact without first ⟨by rw [transactions, List.head?_cons], deposit, long, known⟩
        · have short : first.data.length < l1OriginHashOffsetEnd := Nat.not_le.mp long
          refine ⟨.tooShort first.data.length l1OriginHashOffsetEnd, ?_⟩
          simp [l1OriginFromL2Block, transactions, deposit, short]
      · refine ⟨.noDeposit block.header.number, ?_⟩
        simp [l1OriginFromL2Block, transactions, deposit]

theorem l1OriginFromL2Block_of_hasL1Info {block : Block} {first : Transaction}
    (info : HasL1Info selector block first) :
    l1OriginFromL2Block selector block = some (.ok (originAt first.data)) := by
  obtain ⟨head, deposit, long, known⟩ := info
  obtain ⟨others, transactions⟩ := List.head?_eq_some_iff.mp head
  rw [l1OriginFromL2Block_of_deposit transactions deposit long, if_pos known]

theorem eq_originAt_of_decoded {block : Block} {first : Transaction} {origin : BlockID}
    (head : block.transactions.head? = some first)
    (decoded : l1OriginFromL2Block selector block = some (.ok origin)) :
    origin = originAt first.data := by
  by_cases present : ∃ found, HasL1Info selector block found
  · obtain ⟨found, info⟩ := present
    rw [l1OriginFromL2Block_of_hasL1Info info] at decoded
    have same : found = first := Option.some.inj (info.1.symm.trans head)
    subst same
    cases decoded
    rfl
  · obtain ⟨cause, failed⟩ := l1OriginFromL2Block_error (not_exists.mp present)
    rw [failed] at decoded
    cases decoded

theorem originAt_congr {data data' : Bytes}
    (same : ∀ index, 28 ≤ index ∧ index ≤ 35 ∨ 100 ≤ index ∧ index ≤ 131 →
      data[index]? = data'[index]?) : originAt data = originAt data' := by
  have number : (data.drop 28).take 8 = (data'.drop 28).take 8 :=
    take_drop_congr fun index low high => same index (.inl ⟨low, by omega⟩)
  have hash : (data.drop 100).take 32 = (data'.drop 100).take 32 :=
    take_drop_congr fun index low high => same index (.inr ⟨low, by omega⟩)
  rw [originAt, originAt, number, hash]

/-! ### The calldata of the encoders -/

/-- The fields of the Bedrock calldata around the origin, as they are encoded. -/
structure BedrockFields where
  timestamp : SizedBytes 32
  baseFee : SizedBytes 32
  rest : Bytes
deriving DecidableEq

/-- The fields of the later calldata around the origin, as they are encoded. -/
structure PackedFields where
  baseFeeScalar : SizedBytes 4
  blobBaseFeeScalar : SizedBytes 4
  sequenceNumber : SizedBytes 8
  timestamp : SizedBytes 8
  baseFee : SizedBytes 32
  blobBaseFee : SizedBytes 32
  rest : Bytes
deriving DecidableEq

variable (selector)

/-- The selector and then words, of which the number is the first and the hash the fourth. -/
def bedrockCalldata (origin : BlockID) (fields : BedrockFields) : Bytes :=
  (selector .bedrock).1 ++ writeBE 32 origin.number ++ fields.timestamp.1 ++ fields.baseFee.1 ++
    writeBE 32 origin.hash.toNat ++ fields.rest

def packedCalldata (fork : L1InfoFork) (origin : BlockID) (fields : PackedFields) : Bytes :=
  (selector fork).1 ++ fields.baseFeeScalar.1 ++ fields.blobBaseFeeScalar.1 ++
    fields.sequenceNumber.1 ++ fields.timestamp.1 ++ writeBE 8 origin.number ++
    fields.baseFee.1 ++ fields.blobBaseFee.1 ++ writeBE 32 origin.hash.toNat ++ fields.rest

/-- The calldata that the encoder of each fork writes for an origin. -/
inductive L1InfoCalldata (origin : BlockID) : Bytes → Prop where
  | bedrock (fields : BedrockFields) :
      L1InfoCalldata origin (bedrockCalldata selector origin fields)
  | ecotone (fields : PackedFields) :
      L1InfoCalldata origin (packedCalldata selector .ecotone origin fields)
  | isthmus (fields : PackedFields) :
      L1InfoCalldata origin (packedCalldata selector .isthmus origin fields)
  | jovian (fields : PackedFields) :
      L1InfoCalldata origin (packedCalldata selector .jovian origin fields)

/-- What both layouts have in common: how much stands around the number and the hash. -/
def CarriesOrigin (fork : L1InfoFork) (origin : BlockID) (data : Bytes) : Prop :=
  ∃ before between after : Bytes, before.length = 24 ∧ between.length = 64 ∧
    data = (selector fork).1 ++ (before ++ (writeBE 8 origin.number ++
      (between ++ (writeBE 32 origin.hash.toNat ++ after))))

variable {selector}

theorem carriesOrigin_bedrock {origin : BlockID} (bounded : origin.number < 2 ^ 64)
    (fields : BedrockFields) :
    CarriesOrigin selector .bedrock origin (bedrockCalldata selector origin fields) := by
  refine ⟨List.replicate 24 0, fields.timestamp.1 ++ fields.baseFee.1, fields.rest,
    List.length_replicate, ?_, ?_⟩
  · rw [List.length_append, fields.timestamp.2, fields.baseFee.2]
  · have word : writeBE 32 origin.number = List.replicate 24 0 ++ writeBE 8 origin.number :=
      writeBE_add 24 8 bounded
    simp only [bedrockCalldata, word, List.append_assoc]

theorem carriesOrigin_packed (fork : L1InfoFork) (origin : BlockID) (fields : PackedFields) :
    CarriesOrigin selector fork origin (packedCalldata selector fork origin fields) := by
  refine ⟨fields.baseFeeScalar.1 ++ fields.blobBaseFeeScalar.1 ++ fields.sequenceNumber.1 ++
    fields.timestamp.1, fields.baseFee.1 ++ fields.blobBaseFee.1, fields.rest, ?_, ?_, ?_⟩
  · simp only [List.length_append, fields.baseFeeScalar.2, fields.blobBaseFeeScalar.2,
      fields.sequenceNumber.2, fields.timestamp.2]
  · rw [List.length_append, fields.baseFee.2, fields.blobBaseFee.2]
  · simp only [packedCalldata, List.append_assoc]

theorem L1InfoCalldata.carriesOrigin {origin : BlockID} {data : Bytes}
    (bounded : origin.number < 2 ^ 64) (calldata : L1InfoCalldata selector origin data) :
    ∃ fork, CarriesOrigin selector fork origin data := by
  cases calldata with
  | bedrock fields => exact ⟨.bedrock, carriesOrigin_bedrock bounded fields⟩
  | ecotone fields => exact ⟨.ecotone, carriesOrigin_packed .ecotone origin fields⟩
  | isthmus fields => exact ⟨.isthmus, carriesOrigin_packed .isthmus origin fields⟩
  | jovian fields => exact ⟨.jovian, carriesOrigin_packed .jovian origin fields⟩

theorem mem_knownL1InfoSelectors (fork : L1InfoFork) :
    (selector fork).1 ∈ knownL1InfoSelectors selector := by
  cases fork <;> simp [knownL1InfoSelectors]

/-- Calldata that carries an origin passes the checks of its length and its selector, and has
the origin at the offsets. -/
theorem CarriesOrigin.read {fork : L1InfoFork} {origin : BlockID} {data : Bytes}
    (bounded : origin.number < 2 ^ 64) (carries : CarriesOrigin selector fork origin data) :
    132 ≤ data.length ∧ data.take 4 = (selector fork).1 ∧ originAt data = origin := by
  obtain ⟨before, between, after, beforeLength, betweenLength, layout⟩ := carries
  have selectorLength : (selector fork).1.length = 4 := (selector fork).2
  have numberLength : (writeBE 8 origin.number).length = 8 := length_writeBE bounded
  have hashLength : (writeBE 32 origin.hash.toNat).length = 32 :=
    length_writeBE origin.hash.isLt
  have number : (data.drop 28).take 8 = writeBE 8 origin.number := by
    rw [layout, ← List.append_assoc]
    refine take_drop_append _ _ _ ?_ numberLength
    rw [List.length_append, selectorLength, beforeLength]
  have hash : (data.drop 100).take 32 = writeBE 32 origin.hash.toNat := by
    rw [layout, ← List.append_assoc, ← List.append_assoc, ← List.append_assoc]
    refine take_drop_append _ _ _ ?_ hashLength
    simp only [List.length_append, selectorLength, beforeLength, numberLength, betweenLength]
  refine ⟨?_, ?_, ?_⟩
  · simp only [layout, List.length_append, selectorLength, beforeLength, numberLength,
      betweenLength, hashLength]
    omega
  · rw [layout, List.take_left' selectorLength]
  · rw [originAt, number, hash, bytesToHash, readBE_writeBE, readBE_writeBE,
      BitVec.ofNat_toNat, BitVec.setWidth_eq]

theorem L1InfoCalldata.hasL1Info {block : Block} {first : Transaction} {origin : BlockID}
    (head : block.transactions.head? = some first) (deposit : first.isDepositTx)
    (bounded : origin.number < 2 ^ 64)
    (calldata : L1InfoCalldata selector origin first.data) :
    HasL1Info selector block first ∧ originAt first.data = origin := by
  obtain ⟨fork, carries⟩ := calldata.carriesOrigin bounded
  obtain ⟨long, selected, same⟩ := carries.read bounded
  exact ⟨⟨head, deposit, long, selected ▸ mem_knownL1InfoSelectors fork⟩, same⟩

/-- The decoder undoes the encoders. On every block it stays in range, it succeeds exactly on
those with L1 info, and its result depends on the bytes at the offsets only. -/
theorem l1_origin_decodes_calldata
    (selector : L1InfoFork → SizedBytes functionSelectorLength) :
    (∀ block first origin, block.transactions.head? = some first → first.isDepositTx →
      origin.number < 2 ^ 64 → L1InfoCalldata selector origin first.data →
      l1OriginFromL2Block selector block = some (.ok origin)) ∧
    (∀ block, ∃ outcome, l1OriginFromL2Block selector block = some outcome ∧
      ((∃ origin, outcome = .ok origin) ↔ ∃ first, HasL1Info selector block first)) ∧
    (∀ block block' first first' origin origin',
      block.transactions.head? = some first → block'.transactions.head? = some first' →
      (∀ index, 28 ≤ index ∧ index ≤ 35 ∨ 100 ≤ index ∧ index ≤ 131 →
        first.data[index]? = first'.data[index]?) →
      l1OriginFromL2Block selector block = some (.ok origin) →
      l1OriginFromL2Block selector block' = some (.ok origin') → origin = origin') := by
  refine ⟨?_, ?_, ?_⟩
  · intro block first origin head deposit bounded calldata
    obtain ⟨info, same⟩ := calldata.hasL1Info head deposit bounded
    rw [l1OriginFromL2Block_of_hasL1Info info, same]
  · intro block
    by_cases present : ∃ first, HasL1Info selector block first
    · obtain ⟨first, info⟩ := present
      exact ⟨_, l1OriginFromL2Block_of_hasL1Info info,
        iff_of_true ⟨originAt first.data, rfl⟩ ⟨first, info⟩⟩
    · obtain ⟨cause, failed⟩ := l1OriginFromL2Block_error (not_exists.mp present)
      refine ⟨_, failed, iff_of_false ?_ present⟩
      rintro ⟨origin, equal⟩
      cases equal
  · intro block block' first first' origin origin' head head' same decoded decoded'
    rw [eq_originAt_of_decoded head decoded, eq_originAt_of_decoded head' decoded']
    exact originAt_congr same

def sampleSelector : L1InfoFork → SizedBytes functionSelectorLength
  | .bedrock => ⟨[0x01, 0x5d, 0x8e, 0xb9], rfl⟩
  | .ecotone => ⟨[0x44, 0x0a, 0x5e, 0x20], rfl⟩
  | .isthmus => ⟨[0x09, 0x89, 0x99, 0xbe], rfl⟩
  | .jovian => ⟨[0x3d, 0xb6, 0xbe, 0x2b], rfl⟩

/-- Words of ones around the origin. -/
def sampleBedrockFields : BedrockFields :=
  ⟨⟨List.replicate 32 0xff, rfl⟩, ⟨List.replicate 32 0xff, rfl⟩, []⟩

def sampleL1InfoBlock : Block :=
  { header := ⟨0, 123, []⟩
    transactions := [⟨depositTxType,
      bedrockCalldata sampleSelector ⟨0xaabbccdd, 2000⟩ sampleBedrockFields, []⟩]
    uncles := []
    withdrawals := none }

theorem l1_origin_decodes_bedrock_calldata :
    L1InfoCalldata sampleSelector ⟨0xaabbccdd, 2000⟩
      (bedrockCalldata sampleSelector ⟨0xaabbccdd, 2000⟩ sampleBedrockFields) ∧
    l1OriginFromL2Block sampleSelector sampleL1InfoBlock = some (.ok ⟨0xaabbccdd, 2000⟩) :=
  ⟨.bedrock sampleBedrockFields,
    (l1_origin_decodes_calldata sampleSelector).1 sampleL1InfoBlock _ ⟨0xaabbccdd, 2000⟩ rfl rfl
      (by decide) (.bedrock sampleBedrockFields)⟩

end EspressoProxy.Verifier.Op
