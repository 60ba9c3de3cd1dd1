import TrusTrove.InvoicePages
import TrusTrove.Lib.TtlCache
import TrusTrove.Reads

/-!
# The cached reads of the API

The endpoints of `api/handlers_stats.go` that answer from memory. `/events` and `/pool/stats` go
through `respCache`, a `TTLCache` whose lookups, deletions and stores each hold its lock; a request
reads the clock and queries the database outside it. `/stats` keeps one value, and queries under its
write lock. Steps of different requests interleave, and the database changes in between. Times are
in nanoseconds.
-/

namespace TrusTrove

open Sql

section Handlers

/-- What `respCache` holds. -/
inductive CachedResponse
  | events (rows : List FeedEvent)
  | poolStats (stats : DbPoolStats)
  deriving DecidableEq, Repr

abbrev CacheItem := TtlCache.Item CachedResponse

abbrev TTLCache := TtlCache.Cache String CachedResponse

def TTLCache.set (c : TTLCache) (key : String) (value : CachedResponse) (ttl now : ℤ) : TTLCache :=
  Function.update c key (some ⟨value, now + ttl⟩)

/-- `delete(c.items, key)` -/
def TTLCache.delete (c : TTLCache) (key : String) : TTLCache := Function.update c key none

def responseCacheTTL : ℤ := 30 * 10 ^ 9

def poolStatsCacheKey : String := "pool:stats"

/-- A request of a cached endpoint, its parameters parsed. -/
inductive CachedRead
  | events (limit : ℕ) (issuer : String)
  | poolStats
  deriving DecidableEq, Repr

namespace CachedRead

/-- `cacheKey` -/
def key : CachedRead → String
  | events limit issuer => "events:" ++ Nat.repr limit ++ ":" ++ issuer
  | poolStats => poolStatsCacheKey

/-- The type assertion on the cached value. -/
def asserts : CachedRead → CachedResponse → Bool
  | events _ _, .events _ => true
  | poolStats, .poolStats _ => true
  | _, _ => false

/-- The query of the endpoint. -/
def fetch (fails : ℕ → Bool) (s : Db) : CachedRead → Except GoError CachedResponse
  | events limit issuer => (autocommit (getRecentEvents limit issuer) fails s).1.map .events
  | poolStats => (autocommit getPoolStats fails s).1.map .poolStats

/-- What the endpoint says when its query fails. -/
def failure : CachedRead → String
  | events _ _ => "failed to retrieve events"
  | poolStats => "failed to retrieve pool statistics"

end CachedRead

/-- The `limit` of `/events`. -/
def eventsLimit (limitStr : String) : ℕ :=
  if limitStr = "" then 20
  else (((parseInt64 limitStr).filter (0 < ·)).map Int.toNat).getD 20

/-- `HandleGetEvents` up to the cache; `parse` is `keypair.Parse`. -/
def handleGetEvents (parse : String → Bool) (query : List (String × String)) :
    Except Response CachedRead :=
  let issuer := queryGet query "issuer"
  if issuer ≠ "" ∧ parse issuer = false then
    .error (httpError "invalid issuer parameter: must be a Stellar account address" 400)
  else .ok (.events (eventsLimit (queryGet query "limit")) issuer)

end Handlers

section RespCache

/-- How far a request has come. `found` has looked its key up, `expired` found an item that is, and
`fetched` holds the answer of the database as it was at a time. -/
inductive CachePhase
  | get
  | found (item : CacheItem)
  | expired
  | query
  | fetched (response : CachedResponse) (readAt : ℤ) (db : Db)

structure CacheRequest where
  read : CachedRead
  requestID : String
  phase : CachePhase

/-- A call of `Set`, with the state of the database its value was read from. -/
structure CacheFill where
  read : CachedRead
  response : CachedResponse
  readAt : ℤ
  db : Db
  storedAt : ℤ

structure CacheAnswer where
  read : CachedRead
  time : ℤ
  result : Except Response CachedResponse

/-- The API's cache and its requests under way; what the database has been and when, the calls of
`Set`, and the answers given. -/
structure CacheWorld where
  clock : ℤ
  db : Db
  respCache : TTLCache
  requests : List CacheRequest
  moments : List (ℤ × Db)
  fills : List CacheFill
  answers : List CacheAnswer

namespace CacheWorld

def init (clock : ℤ) (db : Db) : CacheWorld := ⟨clock, db, fun _ => none, [], [(clock, db)], [], []⟩

variable (w : CacheWorld) (i : ℕ) (r : CacheRequest)

def moveTo (phase : CachePhase) : CacheWorld :=
  { w with requests := w.requests.set i { r with phase := phase } }

def answer (result : Except Response CachedResponse) : CacheWorld :=
  { w with
    requests := w.requests.eraseIdx i
    answers := w.answers ++ [⟨r.read, w.clock, result⟩] }

/-- The next step of request `r`, the `i`-th under way. -/
def proceed (fails : ℕ → Bool) : CacheWorld :=
  match r.phase with
  | .get =>
    match w.respCache r.read.key with
    | none => w.moveTo i r .query
    | some item => w.moveTo i r (.found item)
  | .found item =>
    if item.expired w.clock then w.moveTo i r .expired
    else if r.read.asserts item.value then w.answer i r (.ok item.value)
    else w.moveTo i r .query
  | .expired => { w.moveTo i r .query with respCache := TTLCache.delete w.respCache r.read.key }
  | .query =>
    match r.read.fetch fails w.db with
    | .error _ => w.answer i r (.error (internalError r.requestID r.read.failure))
    | .ok response => w.moveTo i r (.fetched response w.clock w.db)
  | .fetched response readAt db =>
    { w.answer i r (.ok response) with
      respCache := TTLCache.set w.respCache r.read.key response responseCacheTTL w.clock
      fills := w.fills ++ [⟨r.read, response, readAt, db, w.clock⟩] }

end CacheWorld

/-- Time passes and the database changes, a request arrives, or one goes a step further. -/
inductive CacheStep
  | advance (now : ℤ) (db : Db)
  | request (read : CachedRead) (requestID : String)
  | proceed (i : ℕ) (fails : ℕ → Bool)

def CacheStep.apply : CacheStep → CacheWorld → CacheWorld
  | advance now db, w => { w with clock := now, db := db, moments := w.moments ++ [(now, db)] }
  | request read requestID, w => { w with requests := w.requests ++ [⟨read, requestID, .get⟩] }
  | proceed i fails, w =>
    match w.requests[i]? with
    | none => w
    | some r => w.proceed i r fails

/-- The clock does not go back. -/
def CacheStep.Allowed (w : CacheWorld) : CacheStep → Prop
  | advance now _ => w.clock ≤ now
  | _ => True

inductive CacheReachable : CacheWorld → Prop
  | init (clock : ℤ) (db : Db) : CacheReachable (.init clock db)
  | step {w : CacheWorld} (step : CacheStep) (hw : CacheReachable w) (h : step.Allowed w) :
      CacheReachable (step.apply w)

end RespCache

section Stats

/-- A request of `/stats` that holds the write lock: before its query, or after it. -/
inductive StatsPhase
  | query
  | fetched (stats : ProtocolStats) (db : Db)

/-- A value `/stats` has cached, with the state of the database it was read from. -/
structure StatsFill where
  stats : ProtocolStats
  db : Db
  cachedAt : ℤ

structure StatsAnswer where
  time : ℤ
  result : Except Response ProtocolStats

/-- The cached stats, how many requests are before the read lock and before the write lock, and the
one that holds the write lock. -/
structure StatsWorld where
  clock : ℤ
  db : Db
  statsData : Option ProtocolStats
  statsCached : ℤ
  checking : ℕ
  waiting : ℕ
  writer : Option StatsPhase
  fills : List StatsFill
  answers : List StatsAnswer

namespace StatsWorld

def init (clock : ℤ) (db : Db) : StatsWorld := ⟨clock, db, none, 0, 0, 0, none, [], []⟩

variable (w : StatsWorld)

/-- The cached stats, if they are less than 30 seconds old. -/
def cached : Option ProtocolStats :=
  w.statsData.filter fun _ => w.clock - w.statsCached < 30 * 10 ^ 9

def answer (result : Except Response ProtocolStats) : StatsWorld :=
  { w with answers := w.answers ++ [⟨w.clock, result⟩] }

end StatsWorld

/-- A step of some request of `/stats`, or of the rest of the system. -/
inductive StatsStep
  | advance (now : ℤ) (db : Db)
  | request
  | check
  | lock
  | query (requestID : String) (fails : ℕ → Bool)
  | store

namespace StatsStep

def apply : StatsStep → StatsWorld → StatsWorld
  | advance now db, w => { w with clock := now, db := db }
  | request, w => { w with checking := w.checking + 1 }
  | check, w =>
    match w.checking, w.writer with
    | n + 1, none =>
      match w.cached with
      | some data => { w.answer (.ok data) with checking := n }
      | none => { w with checking := n, waiting := w.waiting + 1 }
    | _, _ => w
  | lock, w =>
    match w.waiting, w.writer with
    | n + 1, none =>
      match w.cached with
      | some data => { w.answer (.ok data) with waiting := n }
      | none => { w with waiting := n, writer := some .query }
    | _, _ => w
  | query requestID fails, w =>
    match w.writer with
    | some .query =>
      match (getProtocolStats fails w.db).1 with
      | .error _ =>
        { w.answer (.error (internalError requestID "failed to retrieve protocol stats")) with
          writer := none }
      | .ok stats => { w with writer := some (.fetched stats w.db) }
    | _ => w
  | store, w =>
    match w.writer with
    | some (.fetched stats db) =>
      { w.answer (.ok stats) with
        statsData := some stats, statsCached := w.clock, writer := none
        fills := w.fills ++ [⟨stats, db, w.clock⟩] }
    | _ => w

variable (R : Db → Db → Prop)

/-- The clock does not go back, and the database changes as `R` allows. -/
def Allowed (w : StatsWorld) : StatsStep → Prop
  | advance now db => w.clock ≤ now ∧ R w.db db
  | _ => True

end StatsStep

/-- The states of `/stats` from a start of the API on a database. -/
inductive StatsReachable (R : Db → Db → Prop) (s₀ : Db) : StatsWorld → Prop
  | init (clock : ℤ) : StatsReachable R s₀ (.init clock s₀)
  | step {w : StatsWorld} (step : StatsStep) (hw : StatsReachable R s₀ w) (h : step.Allowed R w) :
      StatsReachable R s₀ (step.apply w)

end Stats

end TrusTrove
