import TrusTrove.Xdr

/-!
# Building contract arguments

`soroban/xdr.go`: the builders of contract values and of an invocation. `decode` is `strkey.Decode`.
-/

namespace TrusTrove

/-- `xdr.InvokeContractArgs`. -/
structure InvokeContractArgs where
  contractAddress : ScAddress
  functionName : String
  args : List ScVal

/-- `copy` into an array of 32 bytes. -/
def copy32 (raw : List UInt8) : List UInt8 := (raw ++ List.replicate 32 0).take 32

theorem copy32_of_length {raw : List UInt8} (h : raw.length = 32) : copy32 raw = raw := by
  simp [copy32, ← h]

section Builders

variable (decode : VersionByte → String → Except GoError (List UInt8))

/-- `ParseAddressToScAddress`. -/
def parseAddressToScAddress (addr : String) : Except GoError ScAddress :=
  if addr.utf8ByteSize = 56 ∧ addr.toList.head? = some 'G' then do
    let rawBytes ← decode .accountID addr
    return .account (copy32 rawBytes)
  else if addr.utf8ByteSize = 56 ∧ addr.toList.head? = some 'C' then do
    let rawBytes ← decode .contract addr
    return .contract (copy32 rawBytes)
  else .error (.new ("invalid address format: " ++ addr))

/-- `MakeAddressScVal`. -/
def makeAddressScVal (addr : String) : Except GoError ScVal := do
  let scAddress ← parseAddressToScAddress decode addr
  return .address scAddress

/-- `big.Int.BitLen`. -/
def bitLen (n : ℤ) : ℕ := if n = 0 then 0 else n.natAbs.log2 + 1

/-- `MakeU128ScVal`; `none` is a nil pointer. -/
def makeU128ScVal (val : Option ℤ) : Except GoError ScVal :=
  match val with
  | none => .error (.new "u128 value is nil")
  | some n =>
    if n < 0 then .error (.new ("u128 value must be non-negative, got " ++ toString n))
    else if 128 < bitLen n then
      .error (.new ("u128 value " ++ toString n ++ " exceeds the u128 range (max 2^128 - 1)"))
    else
      let hi := UInt64.ofNat (n.natAbs >>> 64)
      let lo := UInt64.ofNat (n.natAbs &&& 0xffffffffffffffff)
      .ok (.u128 hi lo)

/-- `MakeU64ScVal`. -/
def makeU64ScVal (val : UInt64) : ScVal := .u64 val

/-- `BuildInvokeContractOp`. -/
def buildInvokeContractOp (contractID method : String) (args : List ScVal) :
    Except GoError InvokeContractArgs := do
  let contractAddress ← parseAddressToScAddress decode contractID
  return ⟨contractAddress, method, args⟩

end Builders

end TrusTrove
