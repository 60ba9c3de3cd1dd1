import TrusTrove.Lib.Fields
import TrusTrove.Lib.Json
import TrusTrove.ClientLimiter
import TrusTrove.Netguard

/-!
# The client address behind a trusted proxy

`ipInNetworks` and `trustedClientIP` of `api/router.go`, with what they use of `net` and `strings`:
`ParseIP`, `IP.String`, `IPNet.Contains`, `TrimSpace` and `Split`.
-/

namespace TrusTrove

/-- `unicode.IsSpace` -/
def unicodeIsSpace (c : Char) : Bool :=
  c ∈ ['\t', '\n', '\x0b', '\x0c', '\r', ' ', '\u0085', '\u00a0', '\u1680', '\u2028', '\u2029',
    '\u202f', '\u205f', '\u3000'] || ('\u2000' ≤ c && c ≤ '\u200a')

/-- `strings.TrimSpace` -/
def trimSpace (s : String) : String := String.ofList (Separated.trim unicodeIsSpace s.toList)

/-- `strings.Split(s, ",")` -/
def splitComma (s : String) : List String := (s.toList.splitOn ',').map String.ofList

namespace IP

/-- One field of an IPv4 address: up to 255, without a leading zero. -/
def parseOctet (field : List Char) : Option UInt8 :=
  if field = [] ∨ !field.all Char.isDigit ∨ (field.head? = some '0' ∧ field ≠ ['0']) then none
  else
    let val := field.foldl (fun val c => 10 * val + (c.toNat - 48)) 0
    if 255 < val then none else some (UInt8.ofNat val)

/-- `parseIPv4Fields`: four fields, a dot between them. -/
def parseIPv4Fields (s : List Char) : Option IP :=
  let fields := s.splitOn '.'
  if fields.length = 4 then fields.mapM parseOctet else none

/-- The prefix of an IPv4 address in sixteen bytes. -/
def v4InV6Prefix : IP := List.replicate 10 0 ++ [0xff, 0xff]

/-- A hexadecimal group as two bytes. -/
def groupBytes (digits : List Char) : IP :=
  let acc := digits.foldl (fun acc c => 16 * acc + (JsonText.hexDigit? c).getD 0) 0
  [UInt8.ofNat (acc / 256), UInt8.ofNat (acc % 256)]

/-- The loop of `parseIPv6` with room for so many groups more, after the bytes `ip`: the bytes of
the whole text and where the ellipsis stands in them. -/
def parseGroups : ℕ → IP → Option ℕ → List Char → Option (IP × Option ℕ)
  | 0, _, _, _ => none
  | room + 1, ip, ellipsis, s =>
    let digits := s.takeWhile fun c => (JsonText.hexDigit? c).isSome
    let rest := s.drop digits.length
    if digits.length = 0 ∨ 4 < digits.length then none
    else match rest with
      | [] => some (ip ++ groupBytes digits, ellipsis)
      | '.' :: _ =>
        if (ellipsis = none ∧ ip.length ≠ 12) ∨ 16 < ip.length + 4 then none
        else (parseIPv4Fields s).map fun fields => (ip ++ fields, ellipsis)
      | [':'] => none
      | ':' :: ':' :: rest =>
        if ellipsis.isSome then none
        else
          let ip := ip ++ groupBytes digits
          if rest = [] then some (ip, some ip.length)
          else parseGroups room ip (some ip.length) rest
      | ':' :: rest => parseGroups room (ip ++ groupBytes digits) ellipsis rest
      | _ => none

/-- The zeros of the ellipsis, which stands for one group at least. -/
def expandEllipsis : IP × Option ℕ → Option IP
  | (ip, none) => if ip.length < 16 then none else some ip
  | (ip, some ellipsis) =>
    if ip.length < 16 then
      some (ip.take ellipsis ++ List.replicate (16 - ip.length) 0 ++ ip.drop ellipsis)
    else none

/-- `parseIPv6`, of an address without a zone. -/
def parseIPv6 (s : List Char) : Option IP :=
  match s with
  | [':', ':'] => some (List.replicate 16 0)
  | ':' :: ':' :: rest => (parseGroups 8 [] (some 0) rest).bind expandEllipsis
  | _ => (parseGroups 8 [] none s).bind expandEllipsis

end IP

/-- `net.ParseIP`: sixteen bytes. -/
def parseIP (s : String) : Option IP :=
  if '%' ∈ s.toList then none
  else match s.toList.find? fun c => c = '.' ∨ c = ':' with
    | some '.' => (IP.parseIPv4Fields s.toList).map (IP.v4InV6Prefix ++ ·)
    | some ':' => IP.parseIPv6 s.toList
    | _ => none

namespace IP

/-- The eight groups of sixteen bytes. -/
def groups : IP → List ℕ
  | hi :: lo :: ip => (256 * hi.toNat + lo.toNat) :: groups ip
  | _ => []

/-- How many groups are zero from a place on. -/
def zerosAt (groups : List ℕ) (i : ℕ) : ℕ := ((groups.drop i).takeWhile (· = 0)).length

/-- The first longest run of two zero groups or more: its start and its end. -/
def zeroRun (groups : List ℕ) : Option (ℕ × ℕ) :=
  (List.range groups.length).foldl (fun run i =>
    let l := zerosAt groups i
    if 2 ≤ l ∧ (match run with | none => 0 | some (start, stop) => stop - start) < l then
      some (i, i + l)
    else run) none

def colonHex (groups : List ℕ) : List Char :=
  List.intercalate [':'] (groups.map fun g => Nat.toDigits 16 g)

/-- `IP.String` -/
def string (ip : IP) : String :=
  if ip.length = 0 then "<nil>"
  else if ip.length ≠ 4 ∧ ip.length ≠ 16 then "?" ++ hexEncode ip
  else match ip.to4 with
    | some ip4 => ".".intercalate (ip4.map fun b => toString b.toNat)
    | none =>
      match zeroRun ip.groups with
      | none => String.ofList (colonHex ip.groups)
      | some (start, stop) =>
        String.ofList (colonHex (ip.groups.take start) ++ "::".toList
          ++ colonHex (ip.groups.drop stop))

end IP

/-- `net.IPNet` -/
structure IPNet where
  ip : IP
  mask : List UInt8

namespace IPNet

/-- `networkNumberAndMask`, nil as no bytes. -/
def networkNumberAndMask (n : IPNet) : IP × List UInt8 :=
  let ip := n.ip.to4.getD n.ip
  if ip.length ≠ 4 ∧ ip.length ≠ 16 then ([], [])
  else if n.mask.length = 4 then if ip.length = 4 then (ip, n.mask) else ([], [])
  else if n.mask.length = 16 then
    if ip.length = 4 then (ip, n.mask.drop 12) else (ip, n.mask)
  else ([], [])

def contains (n : IPNet) (ip : IP) : Bool :=
  let (nn, m) := n.networkNumberAndMask
  let ip := ip.to4.getD ip
  ip.length = nn.length && nn.zipWith (· &&& ·) m = ip.zipWith (· &&& ·) m

end IPNet

def ipInNetworks (ip : IP) (networks : List IPNet) : Bool :=
  networks.any fun network => network.contains ip

/-- What `trustedClientIP` reads of an `http.Request`: the peer, and the first value of a header,
empty where it is not sent. -/
structure ProxiedRequest where
  remoteAddr : String
  header : String → String

/-- The loop over the parts from the right. `leftmost` is set at the first of them that is an
address. -/
def walkHops (trustedProxyNets : List IPNet) : Option IP → List String → String
  | leftmost, [] =>
    match leftmost with
    | some leftmost => leftmost.string
    | none => ""
  | leftmost, part :: parts =>
    let candidate := trimSpace part
    if candidate = "" then walkHops trustedProxyNets leftmost parts
    else match parseIP candidate with
      | none => walkHops trustedProxyNets leftmost parts
      | some ip =>
        let leftmost := leftmost.or (some ip)
        if !ipInNetworks ip trustedProxyNets then ip.string
        else walkHops trustedProxyNets leftmost parts

/-- The single-value headers, in order. -/
def singleValueIP (r : ProxiedRequest) : List String → String
  | [] => ""
  | headerName :: headerNames =>
    let value := trimSpace (r.header headerName)
    if value = "" then singleValueIP r headerNames
    else match parseIP value with
      | some ip => ip.string
      | none => singleValueIP r headerNames

/-- The peer without its port. -/
def remoteHost (r : ProxiedRequest) : String := (splitHost r.remoteAddr).getD r.remoteAddr

def trustedClientIP (r : ProxiedRequest) (trustedProxyNets : List IPNet) : String :=
  if trustedProxyNets.length = 0 then ""
  else match parseIP (remoteHost r) with
    | none => ""
    | some remoteIP =>
      if !ipInNetworks remoteIP trustedProxyNets then ""
      else
        let value := trimSpace (r.header "X-Forwarded-For")
        if value ≠ "" then walkHops trustedProxyNets none (splitComma value).reverse
        else singleValueIP r ["X-Real-IP", "True-Client-IP"]

end TrusTrove
