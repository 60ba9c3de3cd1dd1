import TrusTrove.DeliveryWorker

/-!
# What a webhook delivery connects to

`netguard/netguard.go`, the redirect policy of the delivery worker's client and the requests of one
`attemptDelivery`. Each lookup of a host is a lookup of its own, with its own answer: the guard
looks the host up, and `net/http` looks it up again when it dials.
-/

namespace TrusTrove

/-- `net.IP`, its bytes; nil has none. -/
abbrev IP := List UInt8

namespace IP

/-- `To4`: an address of four bytes, or one of sixteen with the IPv4-in-IPv6 prefix. -/
def to4 (ip : IP) : Option IP :=
  if ip.length = 4 then some ip
  else if ip.length = 16 ∧ ip.take 12 = List.replicate 10 0 ++ [0xff, 0xff] then some (ip.drop 12)
  else none

/-- The byte at an index, for an address known to be long enough. -/
def byte (ip : IP) (i : ℕ) : UInt8 := ip.getD i 0

def isPrivate (ip : IP) : Bool :=
  match ip.to4 with
  | some ip4 =>
    ip4.byte 0 == 10 || (ip4.byte 0 == 172 && ip4.byte 1 &&& 0xf0 == 16)
      || (ip4.byte 0 == 192 && ip4.byte 1 == 168)
  | none => ip.length == 16 && ip.byte 0 &&& 0xfe == 0xfc

def isLoopback (ip : IP) : Bool :=
  match ip.to4 with
  | some ip4 => ip4.byte 0 == 127
  | none => ip == List.replicate 15 0 ++ [1]

def isUnspecified (ip : IP) : Bool :=
  ip.to4 == some [0, 0, 0, 0] || ip == List.replicate 16 0

def isLinkLocalUnicast (ip : IP) : Bool :=
  match ip.to4 with
  | some ip4 => ip4.byte 0 == 169 && ip4.byte 1 == 254
  | none => ip.length == 16 && ip.byte 0 == 0xfe && ip.byte 1 &&& 0xc0 == 0x80

def isLinkLocalMulticast (ip : IP) : Bool :=
  match ip.to4 with
  | some ip4 => ip4.byte 0 == 224 && ip4.byte 1 == 0 && ip4.byte 2 == 0
  | none => ip.length == 16 && ip.byte 0 == 0xff && ip.byte 1 &&& 0x0f == 0x02

def isMulticast (ip : IP) : Bool :=
  match ip.to4 with
  | some ip4 => ip4.byte 0 &&& 0xf0 == 0xe0
  | none => ip.length == 16 && ip.byte 0 == 0xff

end IP

def isPublicIP (ip : IP) : Bool :=
  if ip.isEmpty then false
  else !(ip.isPrivate || ip.isLoopback || ip.isUnspecified || ip.isLinkLocalUnicast
    || ip.isLinkLocalMulticast || ip.isMulticast)

/-- What is read of a `url.URL`: its text, the text with a password masked, its scheme and the host
without port and brackets. -/
structure URL where
  string : String
  redacted : String
  scheme : String
  hostname : String

/-- Which lookup of an attempt: the guard's or the dialler's, for the request after `via` others. -/
inductive Lookup
  | guard (via : ℕ)
  | dial (via : ℕ)

/-- The standard library's parsers and the DNS, as one attempt meets them. -/
structure Network where
  parse : String → Except String URL
  parseRequestURI : String → Option URL
  parseIP : String → Option IP
  dns : Lookup → String → Option (List IP)

namespace Network

/-- `net.LookupIP`, which answers for an address literal itself. -/
def lookupIP (net : Network) (lookup : Lookup) (host : String) : Option (List IP) :=
  match net.parseIP host with
  | some ip => some [ip]
  | none => net.dns lookup host

/-- `IsSafeURL`. -/
def isSafeURL (net : Network) (lookup : Lookup) (rawURL : String) : Bool :=
  match net.parseRequestURI rawURL with
  | none => false
  | some u =>
    if u.scheme ≠ "http" ∧ u.scheme ≠ "https" then false
    else if u.hostname = "" then false
    else
      let ips := match net.lookupIP lookup u.hostname with
        | some ips => some ips
        | none => (net.parseIP u.hostname).map ([·])
      match ips with
      | none => false
      | some ips => if ips.length = 0 then false else ips.all isPublicIP

/-- `checkRedirect`, as the error it returns. -/
def checkRedirect (net : Network) (req : URL) (via : ℕ) : Option String :=
  if 10 ≤ via then some "webhook delivery: stopped after 10 redirects"
  else if !net.isSafeURL (.guard via) req.string then
    some ("webhook delivery: refusing redirect to unsafe url " ++ req.redacted)
  else none

end Network

/-- How a request is answered. The target of a redirect is the URL `net/http` makes of
`Location`. -/
inductive RequestAnswer
  | redirect (target : URL)
  | response (statusCode : ℕ) (body : String)
  | failed (err : String)

/-- What `net/http` is free in, for the request after `via` others: whether it holds an idle
connection to the host, and else which of the looked up addresses it connects to. -/
structure Dialler where
  idle : ℕ → Bool
  pick : ℕ → ℕ

/-- The address a request opens a connection to, `none` if it reuses one. -/
def dial (net : Network) (dialler : Dialler) (via : ℕ) (u : URL) : Except String (Option IP) :=
  if dialler.idle via then .ok none
  else
    match net.lookupIP (.dial via) u.hostname with
    | none => .error ("dial tcp: lookup " ++ u.hostname ++ ": no such host")
    | some ips =>
      match ips[dialler.pick via]? with
      | none => .error ("dial tcp: lookup " ++ u.hostname ++ ": no suitable address found")
      | some ip => .ok (some ip)

/-- `client.Do`: the addresses it connects to and how the last request ends. A request past the end
of the answers times out. -/
def clientDo (net : Network) (dialler : Dialler) :
    List RequestAnswer → ℕ → URL → List IP × AttemptResult
  | answers, via, u =>
    match dial net dialler via u with
    | .error err => ([], .httpFailed err)
    | .ok opened =>
      match answers with
      | [] => (opened.toList, .httpFailed "context deadline exceeded")
      | .failed err :: _ => (opened.toList, .httpFailed err)
      | .response statusCode body :: _ => (opened.toList, .response statusCode body)
      | .redirect target :: rest =>
        match net.checkRedirect target (via + 1) with
        | some err => (opened.toList, .httpFailed err)
        | none =>
          let (later, result) := clientDo net dialler rest (via + 1) target
          (opened.toList ++ later, result)

/-- The requests of `attemptDelivery`: the addresses it connects to, and the result it records. -/
def attemptRequests (net : Network) (dialler : Dialler) (endpointURL : String)
    (answers : List RequestAnswer) : List IP × AttemptResult :=
  if !net.isSafeURL (.guard 0) endpointURL then ([], .unsafeURL)
  else
    match net.parse endpointURL with
    | .error err => ([], .buildFailed err)
    | .ok u => clientDo net dialler answers 0 u

end TrusTrove
