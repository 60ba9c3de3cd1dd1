import TrusTrove.RateLimiter
import TrusTrove.ClientLimiter
import TrusTrove.JsValue
import TrusTrove.Challenge
import TrusTrove.Api

/-!
# The headers of the invoice rate limit

`RemainingAttempts` and `InvoiceRateLimitMiddleware` of `middleware/invoice_rate_limiter.go`. The
middleware reads the clock four times for a request it refuses. Times are in nanoseconds.
-/

namespace TrusTrove

/-- `d.Seconds()`: whole seconds and fraction as doubles, added. -/
def durationSeconds (d : ℤ) : Double :=
  let sec := d.tdiv (10 ^ 9)
  let nsec := d.tmod (10 ^ 9)
  match Double.ofRat sec, Double.ofRat (nsec / 10 ^ 9) with
  | .finite whole, .finite frac => .ofRat (whole + frac)
  | _, _ => .nan

/-- `int` of a `float64`. -/
def Double.truncate : Double → ℤ
  | .finite q => if 0 ≤ q then ⌊q⌋ else ⌈q⌉
  | _ => 0

/-- The loop of `RemainingAttempts` over the attempts in the window. -/
def earliest (now : ℤ) (valid : List ℤ) : ℤ :=
  valid.foldl (fun earliest t => if t < earliest then t else earliest) now

/-- `RemainingAttempts` at `now`: how many are left, and `resetAt`. -/
def InvoiceRateLimiter.remainingAttempts (rl : InvoiceRateLimiter) (clientAddr : String) (now : ℤ) :
    ℤ × ℤ :=
  match rl.clients clientAddr with
  | none => (rl.limit, now + rl.window)
  | some bucket =>
    let cutoff := now - rl.window
    let valid := bucket.attempts.filter fun t => cutoff < t
    let remaining := rl.limit - valid.length
    (if remaining < 0 then 0 else remaining, earliest now valid + rl.window)

/-- The seconds of `Retry-After` for a window that resets at `resetAt`. -/
def retryAfterSeconds (resetAt now : ℤ) : ℤ :=
  let retryAfter := (durationSeconds (timeSub resetAt now)).truncate
  if retryAfter < 0 then 0 else retryAfter

/-- When the middleware reads the clock: in the first `RemainingAttempts`, in `Allow`, in the second
`RemainingAttempts` and in `time.Until`. -/
structure RequestTimes where
  counted : ℤ
  allowed : ℤ
  recounted : ℤ
  answered : ℤ

structure RateLimitHeaders where
  limit : ℤ
  reset : ℤ
  remaining : ℤ
  retryAfter : Option ℤ
  deriving DecidableEq, Repr

/-- The middleware refuses a request, or passes it on. -/
inductive RateLimitAnswer
  | refused (response : Response) (headers : Option RateLimitHeaders)
  | next (headers : RateLimitHeaders)
  deriving DecidableEq, Repr

/-- `InvoiceRateLimitMiddleware`. The reset header is not set again after the refusal. -/
def invoiceRateLimitMiddleware (rl : InvoiceRateLimiter) (clientAddr : String) (q : RequestTimes) :
    RateLimitAnswer × InvoiceRateLimiter :=
  if clientAddr = "" then
    (.refused (httpError "\x7b\"error\":\"unauthorized\"\x7d" 401) none, rl)
  else
    let (remaining, resetAt) := rl.remainingAttempts clientAddr q.counted
    match rl.allow clientAddr q.allowed with
    | (false, rl) =>
      let (_, resetAt') := rl.remainingAttempts clientAddr q.recounted
      let retryAfter := retryAfterSeconds resetAt' q.answered
      (.refused
        ⟨429, .fields [("error", "rate limit exceeded"),
          ("message", "invoice creation rate limit exceeded for this client address")]⟩
        (some ⟨rl.limit, unix resetAt, 0, some retryAfter⟩), rl)
    | (true, rl) => (.next ⟨rl.limit, unix resetAt, remaining - 1, none⟩, rl)

end TrusTrove
