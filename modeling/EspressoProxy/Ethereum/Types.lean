import Mathlib.Data.Nat.Basic

/-! Byte strings and the fixed-width words of Ethereum. -/

namespace EspressoProxy.Ethereum

abbrev Bytes := List UInt8

/-- A 32-byte hash. The zero word is the value of a hash that was never set. -/
abbrev Hash := BitVec 256

/-- A 20-byte contract address. -/
abbrev Address := BitVec 160

end EspressoProxy.Ethereum
