import TrusTrove.Lib.SlidingWindow

/-!
# The invoice rate limiter

`middleware/invoice_rate_limiter.go`: a bucket of granted instants for each client, and the
background task that deletes the buckets no client has asked for in a while. Times are in
nanoseconds.
-/

namespace TrusTrove

def invoiceRateLimit : ℤ := 5

def invoiceRateLimitWindow : ℤ := 60 * 60 * 10 ^ 9

def cleanupInterval : ℤ := 10 * 60 * 10 ^ 9

structure ClientBucket where
  attempts : List ℤ
  lastSeen : ℤ
  deriving DecidableEq, Repr

structure InvoiceRateLimiter where
  clients : String → Option ClientBucket
  limit : ℤ
  window : ℤ

def newInvoiceRateLimiterWithConfig (limit window : ℤ) : InvoiceRateLimiter where
  clients := fun _ => none
  limit := if limit < 1 then invoiceRateLimit else limit
  window := if window ≤ 0 then invoiceRateLimitWindow else window

def newInvoiceRateLimiter : InvoiceRateLimiter :=
  newInvoiceRateLimiterWithConfig invoiceRateLimit invoiceRateLimitWindow

namespace InvoiceRateLimiter

/-- What the client's bucket holds; a client without one gets an empty bucket. -/
def attempts (rl : InvoiceRateLimiter) (clientAddr : String) : List ℤ :=
  (rl.clients clientAddr).elim [] ClientBucket.attempts

/-- The limiter with this bucket for the client. -/
def setBucket (rl : InvoiceRateLimiter) (clientAddr : String) (bucket : ClientBucket) :
    InvoiceRateLimiter :=
  { rl with clients := Function.update rl.clients clientAddr (some bucket) }

/-- `Allow` at `now`: its answer, and the limiter after it. -/
def allow (rl : InvoiceRateLimiter) (clientAddr : String) (now : ℤ) : Bool × InvoiceRateLimiter :=
  let cutoff := now - rl.window
  let valid := (rl.attempts clientAddr).filter fun t => cutoff < t
  if rl.limit ≤ valid.length then (false, rl.setBucket clientAddr ⟨valid, now⟩)
  else (true, rl.setBucket clientAddr ⟨valid ++ [now], now⟩)

/-- `evictStale` at `now`. -/
def evictStale (rl : InvoiceRateLimiter) (now : ℤ) : InvoiceRateLimiter :=
  let cutoff := now - 2 * cleanupInterval
  { rl with
    clients := fun addr => (rl.clients addr).filter fun bucket => !(bucket.lastSeen < cutoff) }

end InvoiceRateLimiter

/-- A call on the limiter, at a time. -/
inductive LimiterCall
  | allow (clientAddr : String) (now : ℤ)
  | evictStale (now : ℤ)
  deriving DecidableEq, Repr

/-- When the call is made. -/
def LimiterCall.time : LimiterCall → ℤ
  | allow _ now => now
  | evictStale now => now

/-- When the client's calls of `Allow` in the sequence returned true. -/
def granted (clientAddr : String) : List LimiterCall → InvoiceRateLimiter → List ℤ
  | [], _ => []
  | .allow addr now :: calls, rl =>
    (if (rl.allow addr now).1 && addr = clientAddr then [now] else [])
      ++ granted clientAddr calls (rl.allow addr now).2
  | .evictStale now :: calls, rl => granted clientAddr calls (rl.evictStale now)

end TrusTrove
