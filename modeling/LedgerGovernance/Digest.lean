import LedgerGovernance.Fault

/-! Ids. The bytes of the fields that an id binds are accumulated by FNV-1a and
mixed by the 64-bit finalizer of MurmurHash3; the id is made of the low 32 bits
with the lowest one forced on, so that no id is zero. -/

namespace LedgerGovernance

namespace Digest

/-! ## Accumulating and mixing -/

def offsetBasis : UInt64 := 0xcbf29ce484222325

def fnvPrime : UInt64 := 0x100000001b3

/-- Each step takes in one byte. -/
def absorb (state : UInt64) (byte : UInt8) : UInt64 :=
  (state ^^^ byte.toUInt64) * fnvPrime

def xorShift (state : UInt64) : UInt64 :=
  state ^^^ (state >>> 33)

def mix (state : UInt64) : UInt64 :=
  xorShift (xorShift (xorShift state * 0xff51afd7ed558ccd) * 0xc4ceb9fe1a85ec53)

/-- The digest of several fields depends on their bytes only, not on where one
field ends and the next begins. -/
def ofFields (fields : List Bytes) : UInt64 :=
  mix (fields.flatten.foldl absorb offsetBasis)

/-- The low 32 bits with the lowest one forced on. -/
def toId (digest : UInt64) : Nat :=
  (digest.toUInt32 ||| 1).toNat

/-! ## Fields -/

/-- A 32-bit value as four bytes, the highest first. -/
def wordBytes (value : Nat) : Bytes :=
  [UInt8.ofNat (value / 0x1000000), UInt8.ofNat (value / 0x10000),
    UInt8.ofNat (value / 0x100), UInt8.ofNat value]

example : wordBytes 0x01020304 = [1, 2, 3, 4] := by decide

def proposalFields (proposer : Account) (description now nonce : Nat) : List Bytes :=
  [proposer, wordBytes description, wordBytes now, [UInt8.ofNat nonce]]

def operationFields (proposalId scheduled nonce : Nat) : List Bytes :=
  [wordBytes proposalId, wordBytes scheduled, [UInt8.ofNat nonce]]

/-! ## Ids -/

/-- The id of a proposal; the nonce is the count of earlier proposals. -/
def proposalId (proposer : Account) (description now nonce : Number) : Outcome Nat := do
  if proposer.length ≠ Account.size then
    Outcome.illTyped .proposerSize
  else
    let description ← description.u32
    let now ← now.u32
    let nonce ← nonce.u8
    return toId (ofFields (proposalFields proposer description now nonce))

/-- The id of a timelock operation; the nonce is the count of earlier
operations. -/
def operationId (proposalId scheduled nonce : Number) : Outcome Nat := do
  let proposalId ← proposalId.u32
  let scheduled ← scheduled.u32
  let nonce ← nonce.u8
  return toId (ofFields (operationFields proposalId scheduled nonce))

/-- The description hash of a proposal that names none: the time, scattered by
a multiplication that wraps at 32 bits. -/
def descriptionOfTime (now : Number) : Nat :=
  (now.toWord * 0x9e3779b9).toNat

end Digest

end LedgerGovernance
