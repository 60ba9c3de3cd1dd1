import TrusTrove.CreateInvoice
import TrusTrove.Lib.Base32

/-!
# Contract values and the strings they are read as

What the builders of `soroban/xdr.go` make is what the readers of `xdrutil` read, in both
directions: over the whole range of a u128, and for account and contract addresses given what
`strkey` promises.
-/

namespace TrusTrove

section Integers

theorem bitLen_le_iff (n : ℤ) : bitLen n ≤ 128 ↔ n.natAbs < 2 ^ 128 := by
  unfold bitLen
  split
  · simp_all
  · rename_i hn
    rw [Nat.add_one_le_iff, Nat.log2_lt (by omega)]

theorem u128_halves {n : ℕ} (h : n < 2 ^ 128) :
    u128 (.ofNat (n >>> 64)) (.ofNat (n &&& 0xffffffffffffffff)) = n := by
  have hlo : n &&& 0xffffffffffffffff = n % 2 ^ 64 := Nat.and_two_pow_sub_one_eq_mod n 64
  rw [u128, hlo, Nat.shiftRight_eq_div_pow,
    UInt64.toNat_ofNat_of_lt' (by simp [UInt64.size]; omega),
    UInt64.toNat_ofNat_of_lt' (by simp [UInt64.size]; omega)]
  omega

theorem makeU128ScVal_of_lt {n : ℕ} (h : n < 2 ^ 128) :
    makeU128ScVal (some (n : ℤ))
      = .ok (.u128 (.ofNat (n >>> 64)) (.ofNat (n &&& 0xffffffffffffffff))) := by
  have hlen : ¬ 128 < bitLen n := by
    rw [not_lt, bitLen_le_iff]
    simpa using h
  simp [makeU128ScVal, hlen]

theorem makeU128ScVal_ok_iff (n : ℤ) :
    (∃ v, makeU128ScVal (some n) = .ok v) ↔ 0 ≤ n ∧ n < 2 ^ 128 := by
  constructor
  · rintro ⟨v, hv⟩
    unfold makeU128ScVal at hv
    simp only at hv
    split_ifs at hv with hneg hbig
    rw [not_lt, bitLen_le_iff] at hbig
    omega
  · rintro ⟨h0, hlt⟩
    lift n to ℕ using h0
    exact ⟨_, makeU128ScVal_of_lt (by exact_mod_cast hlt)⟩

theorem parseU128_of_make {n : ℤ} {v : ScVal} (h : makeU128ScVal (some n) = .ok v) :
    parseU128 v = toString n := by
  obtain ⟨h0, hlt⟩ := (makeU128ScVal_ok_iff n).1 ⟨v, h⟩
  lift n to ℕ using h0
  have hlt : n < 2 ^ 128 := by exact_mod_cast hlt
  rw [makeU128ScVal_of_lt hlt] at h
  obtain rfl := Except.ok.inj h
  rw [parseU128, u128_halves hlt]
  rfl

theorem parseU64_u64 (n : UInt64) : parseU64 (.u64 n) = (n.toNat : ℤ).bmod (2 ^ 64) := rfl

theorem parseU64_eq_iff (n : UInt64) : parseU64 (.u64 n) = n.toNat ↔ n.toNat < 2 ^ 63 := by
  have hlt := n.toNat_lt
  rw [parseU64_u64]
  constructor
  · intro h
    have := Int.bmod_lt (x := (n.toNat : ℤ)) (m := 2 ^ 64) (by norm_num)
    rw [h] at this
    omega
  · intro h
    rw [Int.bmod_eq_of_le] <;> omega

end Integers

/-- The first letter of a strkey. -/
def VersionByte.letter : VersionByte → Char
  | accountID => 'G'
  | contract => 'C'

/-- What `strkey` promises: the strkey of 32 bytes has 56 letters, of which the first names its
kind, and is decoded to these bytes; no other string of 56 bytes is decoded. -/
structure StrkeyLaws (encode : VersionByte → List UInt8 → String)
    (decode : VersionByte → String → Except GoError (List UInt8)) : Prop where
  size_encode : ∀ v payload, payload.length = 32 → (encode v payload).utf8ByteSize = 56
  head_encode : ∀ v payload, payload.length = 32 → (encode v payload).toList.head? = some v.letter
  decode_encode : ∀ v payload, payload.length = 32 → decode v (encode v payload) = .ok payload
  encode_decode : ∀ v s payload, s.utf8ByteSize = 56 → decode v s = .ok payload →
    payload.length = 32 ∧ encode v payload = s

section Addresses

variable {sdk : Sdk} {decode : VersionByte → String → Except GoError (List UInt8)}

/-- The address with these bytes. -/
def VersionByte.address : VersionByte → List UInt8 → ScAddress
  | accountID, payload => .account payload
  | contract, payload => .contract payload

@[simp]
theorem parseAddress_address (v : VersionByte) (payload : List UInt8) :
    parseAddress sdk (.address (v.address payload)) = sdk.strkeyEncode v payload := by
  cases v <;> rfl

/-- An accepted address is a strkey of 56 bytes whose first letter names its kind. -/
theorem parseAddressToScAddress_eq_ok_iff {addr : String} {a : ScAddress} :
    parseAddressToScAddress decode addr = .ok a ↔
      ∃ v rawBytes, addr.utf8ByteSize = 56 ∧ addr.toList.head? = some v.letter
        ∧ decode v addr = .ok rawBytes ∧ a = v.address (copy32 rawBytes) := by
  unfold parseAddressToScAddress
  constructor
  · intro h
    split_ifs at h with hg hc
    · cases hd : decode .accountID addr with
      | error e => simp [hd, bind, Except.bind] at h
      | ok rawBytes =>
        refine ⟨.accountID, rawBytes, hg.1, hg.2, hd, ?_⟩
        simpa [hd, bind, Except.bind, pure, Except.pure, VersionByte.address] using h.symm
    · cases hd : decode .contract addr with
      | error e => simp [hd, bind, Except.bind] at h
      | ok rawBytes =>
        refine ⟨.contract, rawBytes, hc.1, hc.2, hd, ?_⟩
        simpa [hd, bind, Except.bind, pure, Except.pure, VersionByte.address] using h.symm
  · rintro ⟨v, rawBytes, hsize, hhead, hd, rfl⟩
    cases v <;>
      simp [hsize, hhead, VersionByte.letter, hd, VersionByte.address, bind, Except.bind, pure,
        Except.pure]

theorem makeAddressScVal_eq_ok_iff {addr : String} {v : ScVal} :
    makeAddressScVal decode addr = .ok v ↔
      ∃ a, parseAddressToScAddress decode addr = .ok a ∧ v = .address a := by
  unfold makeAddressScVal
  cases parseAddressToScAddress decode addr <;> simp [bind, Except.bind, pure, Except.pure, eq_comm]

variable (laws : StrkeyLaws sdk.strkeyEncode decode)

include laws

/-- The strkey of 32 bytes is read as the address they are of. -/
theorem parseAddressToScAddress_encode (v : VersionByte) {payload : List UInt8}
    (h : payload.length = 32) :
    parseAddressToScAddress decode (sdk.strkeyEncode v payload) = .ok (v.address payload) := by
  rw [parseAddressToScAddress_eq_ok_iff]
  exact ⟨v, payload, laws.size_encode v payload h, laws.head_encode v payload h,
    laws.decode_encode v payload h, by rw [copy32_of_length h]⟩

end Addresses

section Strkey

/-- One round of CRC16-XModem. -/
def crc16Shift (crc : UInt16) : UInt16 :=
  if crc &&& 0x8000 = 0 then crc <<< 1 else (crc <<< 1) ^^^ 0x1021

def crc16 (bs : List UInt8) : UInt16 :=
  bs.foldl (fun crc b => crc16Shift^[8] (crc ^^^ (b.toUInt16 <<< (8 : UInt16)))) 0

/-- The checksum of a strkey, least significant byte first. -/
def checksum (bs : List UInt8) : List UInt8 := [(crc16 bs).toUInt8, ((crc16 bs) >>> 8).toUInt8]

def VersionByte.byte : VersionByte → UInt8
  | accountID => 48
  | contract => 16

/-- The strkey of 32 bytes: version byte, payload and checksum in base 32. -/
def strkeyOf (version : UInt8) (payload : List UInt8) : String :=
  Base32.encode (version :: payload ++ checksum (version :: payload))

/-- The payload of a strkey of this version. -/
def payloadOf (version : UInt8) (s : String) : Except GoError (List UInt8) :=
  match Base32.decode s with
  | none => .error (.new "base32 decode failed")
  | some raw =>
    let body := raw.take (raw.length - 2)
    if body.head? ≠ some version then .error (.new "invalid version byte")
    else if raw.drop (raw.length - 2) ≠ checksum body then .error (.new "invalid checksum")
    else .ok body.tail

def strkeyEncode (v : VersionByte) (payload : List UInt8) : String := strkeyOf v.byte payload

def strkeyDecode (v : VersionByte) (s : String) : Except GoError (List UInt8) := payloadOf v.byte s

section Laws

variable {version : UInt8} {payload : List UInt8} (h : payload.length = 32)

include h

theorem length_strkey : (version :: payload ++ checksum (version :: payload)).length = 35 := by
  simp [checksum, h]

theorem utf8ByteSize_strkeyOf : (strkeyOf version payload).utf8ByteSize = 56 := by
  rw [strkeyOf, Base32.utf8ByteSize_encode (by rw [length_strkey h]), length_strkey h]

theorem head?_strkeyOf :
    (strkeyOf version payload).toList.head? = some (Base32.letter (version.toNat / 8)) := by
  rw [strkeyOf, List.cons_append, Base32.head?_encode (by simp [checksum, h])]

theorem payloadOf_strkeyOf : payloadOf version (strkeyOf version payload) = .ok payload := by
  have hraw : Base32.decode (Base32.encode (version :: payload ++ checksum (version :: payload)))
      = some _ := Base32.decode_encode (by rw [length_strkey h])
  have htake : (version :: payload ++ checksum (version :: payload)).take (35 - 2)
      = version :: payload := List.take_left' (by simp [h])
  have hdrop : (version :: payload ++ checksum (version :: payload)).drop (35 - 2)
      = checksum (version :: payload) := List.drop_left' (by simp [h])
  unfold payloadOf
  rw [strkeyOf, hraw]
  simp only [length_strkey h, htake, hdrop]
  simp

end Laws

/-- A decoded string of 56 bytes is the strkey of the 32 bytes it is decoded to. -/
theorem strkeyOf_payload {version : UInt8} {s : String} {payload : List UInt8}
    (hs : s.utf8ByteSize = 56) (h : payloadOf version s = .ok payload) :
    payload.length = 32 ∧ strkeyOf version payload = s := by
  unfold payloadOf at h
  split at h
  · simp at h
  · rename_i raw hraw
    obtain ⟨henc, hlen⟩ := Base32.encode_of_decode hraw
    simp only at h
    split_ifs at h with hv hc
    obtain rfl := Except.ok.inj h
    rw [hs] at hlen
    obtain ⟨rest, hrest⟩ := List.head?_eq_some_iff.1 (not_not.1 hv)
    rw [not_not] at hc
    refine ⟨by simp [hlen], ?_⟩
    have hbody : version :: (raw.take (raw.length - 2)).tail = raw.take (raw.length - 2) := by
      rw [hrest, List.tail_cons]
    rw [strkeyOf, hbody, ← hc, List.take_append_drop, henc]

theorem strkey_laws : StrkeyLaws strkeyEncode strkeyDecode where
  size_encode _ _ := utf8ByteSize_strkeyOf
  head_encode v _ h := by
    rw [strkeyEncode, head?_strkeyOf h]
    cases v <;> rfl
  decode_encode _ _ := payloadOf_strkeyOf
  encode_decode _ _ _ := strkeyOf_payload

/-- An `Sdk` with this `strkey`. -/
def strkeySdk : Sdk where
  unmarshalBase64 := fun _ => .error (.new "illegal base64 data")
  strkeyEncode := strkeyEncode
  parseFull := fun _ => .error (.new "invalid key")
  parseRFC3339 := fun _ => none

end Strkey

end TrusTrove
