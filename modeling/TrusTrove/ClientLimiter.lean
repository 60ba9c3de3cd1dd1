import TrusTrove.Lib.Table
import TrusTrove.Lib.TokenBucket

/-!
# The per-client rate limiter

The token buckets of `api/router.go`, one for each client key, in exact arithmetic. Times are in
nanoseconds. A Go map is ranged over in any order, which a call of `allow` gets with it.
-/

namespace TrusTrove

open Sql

/-- What `getClientKey` reads: the wallet of a verified token, and the peer. -/
structure ClientRequest where
  userAddress : Option String
  remoteAddr : String

/-- `net.SplitHostPort`: the host, if the address is one and a port. -/
def splitHost (addr : String) : Option String :=
  match addr.toList with
  | '[' :: rest =>
    let host := rest.takeWhile (· ≠ ']')
    match rest.dropWhile (· ≠ ']') with
    | ']' :: ':' :: port =>
      if ':' ∈ port ∨ '[' ∈ host ++ port ∨ ']' ∈ port then none else some (String.ofList host)
    | _ => none
  | addr =>
    let host := addr.takeWhile (· ≠ ':')
    match addr.dropWhile (· ≠ ':') with
    | ':' :: port =>
      if ':' ∈ port ∨ '[' ∈ host ++ port ∨ ']' ∈ host ++ port then none
      else some (String.ofList host)
    | _ => none

def getClientKey (r : ClientRequest) : String :=
  match r.userAddress with
  | some sub => "jwt:" ++ sub
  | none => "ip:" ++ (splitHost r.remoteAddr).getD r.remoteAddr

/-- The largest `time.Duration`. -/
def maxDuration : ℤ := 2 ^ 63 - 1

/-- `t.Sub(u)`, which saturates. -/
def timeSub (t u : ℤ) : ℤ := max (-2 ^ 63) (min maxDuration (t - u))

/-- `d.Seconds()` -/
def seconds (d : ℤ) : ℚ := d / 10 ^ 9

/-- A `clientBucket`, with its key in the map. -/
structure RouterBucket where
  clientKey : String
  tokens : ℚ
  last : ℤ
  deriving DecidableEq, Repr

/-- An order in which the buckets are ranged over. -/
structure RangeOrder where
  range : List RouterBucket → List RouterBucket
  perm : ∀ l, (range l).Perm l

structure PerClientRateLimiter where
  buckets : Table RouterBucket RouterBucket.clientKey
  rps : ℚ
  burst : ℤ
  maxSize : ℕ

def newPerClientRateLimiter (rps burst : ℤ) (maxSize : ℕ) : PerClientRateLimiter :=
  ⟨Table.empty, rps, burst, maxSize⟩

/-- The limiter as `NewRouter` configures it, for any bound on the clients. -/
def routerLimiter (rateLimitRPS : ℤ) (maxSize : ℕ) : PerClientRateLimiter :=
  newPerClientRateLimiter rateLimitRPS (rateLimitRPS * 2) maxSize

namespace PerClientRateLimiter

/-- The candidate of `evictOldest` after one more bucket. -/
def older (oldest : String × ℤ) (b : RouterBucket) : String × ℤ :=
  if oldest.1 = "" ∨ b.last < oldest.2 then (b.clientKey, b.last) else oldest

/-- `evictOldest`: no candidate is the empty key. -/
def evictOldest (order : RangeOrder) (rl : PerClientRateLimiter) : PerClientRateLimiter :=
  let oldestKey := ((order.range rl.buckets.rows).foldl older ("", 0)).1
  if oldestKey = "" then rl
  else { rl with buckets := rl.buckets.deleteWhere fun b => b.clientKey = oldestKey }

/-- The refill and the request of `allow` on a bucket. -/
def refillTake (rps : ℚ) (burst now : ℤ) (b : RouterBucket) : Bool × RouterBucket :=
  let elapsed := seconds (timeSub now b.last)
  let tokens := b.tokens + elapsed * rps
  let tokens := if burst < tokens then (burst : ℚ) else tokens
  if 1 ≤ tokens then (true, { b with tokens := tokens - 1, last := now })
  else (false, { b with tokens, last := now })

theorem clientKey_refillTake (rps : ℚ) (burst now : ℤ) (b : RouterBucket) :
    (refillTake rps burst now b).2.clientKey = b.clientKey := by
  simp only [refillTake]
  split <;> split <;> rfl

/-- The bucket of a client, made at `created` if there is none. -/
def bucketOf (rl : PerClientRateLimiter) (clientKey : String) (created : ℤ) : RouterBucket :=
  (rl.buckets.find? clientKey).getD ⟨clientKey, rl.burst, created⟩

/-- The limiter with the bucket of a client in place, before the request. -/
def ensureBucket (order : RangeOrder) (clientKey : String) (created : ℤ)
    (rl : PerClientRateLimiter) : PerClientRateLimiter :=
  match rl.buckets.find? clientKey with
  | some _ => rl
  | none =>
    let rl := { rl with buckets := rl.buckets.insertNew (rl.bucketOf clientKey created) }
    if rl.maxSize < rl.buckets.rows.length then rl.evictOldest order else rl

/-- Write a bucket back where it is still in the map. -/
def setBucket (b : RouterBucket) (rl : PerClientRateLimiter) : PerClientRateLimiter :=
  { rl with buckets := rl.buckets.update b.clientKey (fun _ => true)
              (fun r => { b with clientKey := r.clientKey }) fun _ => rfl }

/-- `allow` by a client, which reads the clock at `created` if it makes a bucket, and at `now`. -/
def allow (order : RangeOrder) (clientKey : String) (created now : ℤ) (rl : PerClientRateLimiter) :
    Bool × PerClientRateLimiter :=
  let r := refillTake rl.rps rl.burst now (rl.bucketOf clientKey created)
  (r.1, (rl.ensureBucket order clientKey created).setBucket r.2)

/-- How long a bucket stays without a request: ten minutes. -/
def staleAfter : ℤ := 10 * 60 * 10 ^ 9

def evictStale (now : ℤ) (rl : PerClientRateLimiter) : PerClientRateLimiter :=
  let cutoff := now - staleAfter
  { rl with buckets := rl.buckets.deleteWhere fun b => b.last < cutoff }

end PerClientRateLimiter

/-- A call on the limiter. -/
inductive BucketCall
  | allow (order : RangeOrder) (r : ClientRequest) (created now : ℤ)
  | evictStale (now : ℤ)

namespace BucketCall

/-- The readings of the clock, in the order they are made. -/
def times : BucketCall → List ℤ
  | allow _ _ created now => [created, now]
  | evictStale now => [now]

/-- The client that asks. -/
def clientKey? : BucketCall → Option String
  | allow _ r _ _ => some (getClientKey r)
  | evictStale _ => none

/-- The limiter after a call. -/
def apply (rl : PerClientRateLimiter) : BucketCall → PerClientRateLimiter
  | allow order r created now => (rl.allow order (getClientKey r) created now).2
  | evictStale now => rl.evictStale now

end BucketCall

namespace PerClientRateLimiter

/-- The answers of `allow` in a sequence of calls, with the client and the time of each. -/
def answers : List BucketCall → PerClientRateLimiter → List (String × ℤ × Bool)
  | [], _ => []
  | .allow order r created now :: calls, rl =>
    (getClientKey r, now, (rl.allow order (getClientKey r) created now).1) ::
      answers calls (rl.allow order (getClientKey r) created now).2
  | .evictStale now :: calls, rl => answers calls (rl.evictStale now)

/-- `allow` of a limiter that never evicts. -/
def allowUnevicted (clientKey : String) (created now : ℤ) (rl : PerClientRateLimiter) :
    Bool × PerClientRateLimiter :=
  let r := refillTake rl.rps rl.burst now (rl.bucketOf clientKey created)
  (r.1, { rl with buckets := rl.buckets.insertNew (rl.bucketOf clientKey created) }.setBucket r.2)

/-- The answers of a limiter that never evicts. -/
def answersUnevicted : List BucketCall → PerClientRateLimiter → List (String × ℤ × Bool)
  | [], _ => []
  | .allow _ r created now :: calls, rl =>
    (getClientKey r, now, (rl.allowUnevicted (getClientKey r) created now).1) ::
      answersUnevicted calls (rl.allowUnevicted (getClientKey r) created now).2
  | .evictStale _ :: calls, rl => answersUnevicted calls rl

/-- When a client was granted a request. -/
def grantedTimes (clientKey : String) (l : List (String × ℤ × Bool)) : List ℤ :=
  (l.filter fun a => a.1 = clientKey && a.2.2).map (·.2.1)

end PerClientRateLimiter

end TrusTrove
