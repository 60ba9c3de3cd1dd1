import Mathlib

/-!
# Errors, contract values and their decoding

`GoError` is an error of the indexer: its text, and the sentinel `errors.Is` finds in it. `ScVal` is
the part of the XDR contract value the indexer reads, and the `parse…` functions are package
`xdrutil`. What the Stellar SDK and package `time` decode is a parameter, `Sdk`.
-/

namespace TrusTrove

/-- The sentinel errors of package `db`. -/
inductive Sentinel
  | invoiceNotFound
  | invalidInvoiceTransition
  deriving DecidableEq, Repr

/-- An error: its text, and the sentinel it wraps. -/
structure GoError where
  msg : String
  sentinel : Option Sentinel
  deriving DecidableEq, Repr

namespace GoError

/-- `errors.New`, or `fmt.Errorf` without `%w`. -/
def new (msg : String) : GoError := ⟨msg, none⟩

/-- `fmt.Errorf("ctx: %w", err)`. -/
def wrap (ctx : String) (err : GoError) : GoError := ⟨ctx ++ ": " ++ err.msg, err.sentinel⟩

def errInvoiceNotFound : GoError := ⟨"invoice not found", some .invoiceNotFound⟩

def errInvalidInvoiceTransition : GoError :=
  ⟨"invalid invoice status transition", some .invalidInvoiceTransition⟩

/-- `errors.Is(err, target)` for a sentinel. -/
def is (err : GoError) (target : Sentinel) : Bool := err.sentinel = some target

@[simp]
theorem wrap_is (ctx : String) (err : GoError) (target : Sentinel) :
    (wrap ctx err).is target = err.is target := rfl

end GoError

inductive ScAddress
  | account (ed25519 : List UInt8)
  | contract (id : List UInt8)
  | other
  deriving DecidableEq, Repr

/-- `xdr.ScVal`: the arms the indexer reads, and every other one. -/
inductive ScVal
  | bytes (b : List UInt8)
  | symbol (s : String)
  | u32 (n : UInt32)
  | u64 (n : UInt64)
  | u128 (hi lo : UInt64)
  | address (a : ScAddress)
  | vec (elems : Option (List ScVal))
  | map (entries : Option (List (ScVal × ScVal)))
  | other

/-- The version byte of a strkey. -/
inductive VersionByte
  | accountID
  | contract
  deriving DecidableEq, Repr

/-- What the indexer takes from the Stellar SDK and package `time`: `xdr.SafeUnmarshalBase64`,
`strkey.Encode`, `keypair.ParseFull` and `time.Parse(time.RFC3339, …)` in Unix seconds. -/
structure Sdk where
  unmarshalBase64 : String → Except GoError ScVal
  strkeyEncode : VersionByte → List UInt8 → String
  parseFull : String → Except GoError String
  parseRFC3339 : String → Option ℤ

/-- One byte in `%x`. -/
def hexByte (b : UInt8) : List Char := [Nat.digitChar (b.toNat / 16), Nat.digitChar (b.toNat % 16)]

/-- `fmt.Sprintf("%x", b)`. -/
def hexEncode (b : List UInt8) : String := String.ofList (b.flatMap hexByte)

section Xdrutil

variable (sdk : Sdk)

/-- `val.Sym`. -/
def ScVal.sym? : ScVal → Option String
  | .symbol s => some s
  | _ => none

/-- `ParseAddress`: empty unless the value is an account or contract address. -/
def parseAddress : ScVal → String
  | .address (.account k) => sdk.strkeyEncode .accountID k
  | .address (.contract id) => sdk.strkeyEncode .contract id
  | _ => ""

/-- `ParseBytes`: empty unless the value is bytes. -/
def parseBytes : ScVal → String
  | .bytes b => hexEncode b
  | _ => ""

/-- The integer a U128 value holds. -/
def u128 (hi lo : UInt64) : ℕ := hi.toNat * 2 ^ 64 + lo.toNat

/-- `ParseU128`: the decimal string of a U128 value, `0` for any other. -/
def parseU128 : ScVal → String
  | .u128 hi lo => Nat.repr (u128 hi lo)
  | _ => "0"

/-- `ParseU32`: 0 unless the value is a U32. -/
def parseU32 : ScVal → ℤ
  | .u32 n => n.toNat
  | _ => 0

/-- `ParseU64`: the value converted to int64, 0 unless it is a U64. -/
def parseU64 : ScVal → ℤ
  | .u64 n => (n.toNat : ℤ).bmod (2 ^ 64)
  | _ => 0

/-- `GetMapVal`: the value of the first entry whose key is the symbol `key`. -/
def getMapVal (val : ScVal) (key : String) : Option ScVal :=
  match val with
  | .map (some entries) => (entries.find? fun e => e.1.sym? = some key).map (·.2)
  | _ => none

end Xdrutil

end TrusTrove
