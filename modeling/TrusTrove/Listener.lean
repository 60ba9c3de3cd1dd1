import TrusTrove.Handlers

/-!
# The poller

`listener/soroban.go`. `pollEventsRange` fetches pages of events, defers those the confirmation
depth does not yet cover, drops those `events_log` already holds, and hands the rest to
`handleEvent`. `startTick` is one tick of `Start`'s loop: the reorg guard, a poll, and the
checkpoint.

A `Poll` also records what the call was served and what it did with it: the pages received, the
events `handleEvent` returned from without an error, with the clock it read, and those skipped
because the lookup found them.
-/

namespace TrusTrove

open Sql

/-- Conversion to `int32`. -/
def int32 (x : ℤ) : ℤ := x.bmod (2 ^ 32)

structure GetEventsResult where
  latestLedger : UInt32
  events : List SorobanEvent
  cursor : String
  deriving DecidableEq, Repr

structure GetEventsParams where
  startLedger : ℤ
  contractIDs : List String
  cursor : String
  limit : ℕ
  deriving DecidableEq, Repr

/-- The fields of a `getEvents` request, as the RPC finds them in its JSON text. -/
structure GetEventsRequest where
  startLedger : Option ℤ
  contractIDs : List String
  cursor : Option String
  limit : ℕ
  deriving DecidableEq, Repr

/-- The JSON text of the parameters: `cursor` is `omitempty`, `startLedger` is not. -/
def GetEventsParams.encode (params : GetEventsParams) : GetEventsRequest where
  startLedger := some params.startLedger
  contractIDs := params.contractIDs
  cursor := if params.cursor = "" then none else some params.cursor
  limit := params.limit

/-- What the environment decides: the statements that fail, the clock at each statement, and the
pool contract's answers. -/
structure Oracle where
  fails : ℕ → Bool
  now : ℕ → ℕ
  stats : ℕ → Except GoError ScVal

/-- The state of a call of `pollEventsRange`. -/
structure Poll where
  db : Db
  cursor : String
  latestLedgerSeq : ℤ
  pages : List GetEventsResult
  handled : List (SorobanEvent × ℕ)
  already : List SorobanEvent

/-- How an iteration of the request loop ends. -/
inductive Flow
  | next (p : Poll)
  | done (p : Poll)
  | fail (p : Poll) (e : GoError)

/-- `maxConfirmationDepth`, at which `LoadConfig` caps the depth. -/
def maxConfirmationDepth : ℤ := 20

def confirmationDepth (cfg : Config) : ℤ :=
  if cfg.indexerConfirmationDepth ≤ 0 then 0 else cfg.indexerConfirmationDepth

/-- The newest ledger that has cleared the confirmation window behind `latest`. -/
def safeLedger (depth latest : ℤ) : ℤ := int32 (latest - int32 depth)

/-- The confirmation filter lets an event of this ledger through. -/
def confirms (depth latest ledger : ℤ) : Bool :=
  !(decide (0 < depth) && decide (0 < latest)) || decide (ledger ≤ safeLedger depth latest)

def contractIDs (cfg : Config) : List String :=
  [cfg.registryContractID, cfg.invoiceContractID, cfg.poolContractID, cfg.escrowContractID].filter
    (· ≠ "")

/-- The ledger a finished poll resumes from. -/
def nextLedger (depth startLedger latest : ℤ) : ℤ :=
  if latest < startLedger then startLedger
  else if 0 < depth then
    if safeLedger depth latest < startLedger then startLedger
    else int32 (safeLedger depth latest + 1)
  else int32 (latest + 1)

section Poll

variable (L : EventListener) (O : Oracle) (startLedger endLedger : ℤ)

/-- The parameters of the loop's next request. -/
def pollParams (p : Poll) : GetEventsParams := ⟨startLedger, contractIDs L.cfg, p.cursor, 100⟩

/-- The context of an error of a request. -/
def pollContext (what : String) (p : Poll) : String :=
  what ++ " (startLedger=" ++ Int.repr startLedger ++ ", cursor=" ++ p.cursor ++ ")"

/-- The loop over the events of a page. -/
def handlePending (processed : List String) : List SorobanEvent → Poll → Except GoError Unit × Poll
  | [], p => (.ok (), p)
  | ev :: evs, p =>
    if ev.id ∈ processed then handlePending processed evs { p with already := p.already ++ [ev] }
    else
      match handleEvent L (O.stats p.db.tick) (O.now p.db.tick) O.fails p.db ev with
      | (.error e, db) => (.error (.wrap ("handle event " ++ ev.id) e), { p with db })
      | (.ok _, db) =>
        handlePending processed evs
          { p with db, handled := p.handled ++ [(ev, O.now p.db.tick)] }

/-- The events of a page that are processed: those up to `endLedger`, if it is set, that the
confirmation filter lets through. -/
def pendingEvents (latest : ℤ) (events : List SorobanEvent) : List SorobanEvent :=
  (if 0 < endLedger then events.filter (·.ledger ≤ endLedger) else events).filter
    fun ev => confirms (confirmationDepth L.cfg) latest ev.ledger

/-- The poll with a page received. -/
def receivePage (p : Poll) (res : GetEventsResult) : Poll :=
  { p with
    latestLedgerSeq :=
      if res.latestLedger = 0 then p.latestLedgerSeq else int32 res.latestLedger.toNat
    pages := p.pages ++ [res] }

/-- The rest of an iteration of the request loop, once the page is received. -/
def pollPage (p : Poll) (res : GetEventsResult) : Flow :=
  let p := receivePage p res
  if res.events = [] then .done p
  else
    let pending := pendingEvents L endLedger p.latestLedgerSeq res.events
    if pending = [] then .done p
    else
      match areEventsProcessed (pending.map (·.id)) O.fails p.db with
      | (.error e, db) =>
        .fail { p with db } (.wrap (pollContext startLedger "check processed events" p) e)
      | (.ok processed, db) =>
        match handlePending L O processed pending { p with db } with
        | (.error e, p) => .fail p e
        | (.ok _, p) =>
          if 0 < endLedger ∧ res.events.any (endLedger < ·.ledger) then .done p
          else if res.cursor = "" then .done p
          else .next { p with cursor := res.cursor }

/-- The result of a poll that leaves its loop. -/
def pollDone (p : Poll) : (ℤ × Option GoError) × Poll :=
  ((nextLedger (confirmationDepth L.cfg) startLedger p.latestLedgerSeq, none), p)

/-- The result of a poll whose request fails. -/
def pollCallFailed (p : Poll) (e : GoError) : (ℤ × Option GoError) × Poll :=
  ((startLedger, some (.wrap (pollContext startLedger "call getEvents" p) e)), p)

/-- The request loop on the answers the RPC gives in turn; without a further answer the call
fails. -/
def pollAnswers : List (Except GoError GetEventsResult) → Poll → (ℤ × Option GoError) × Poll
  | [], p => pollCallFailed startLedger p (.new "soroban RPC getEvents request failed")
  | .error e :: _, p => pollCallFailed startLedger p e
  | .ok res :: answers, p =>
    match pollPage L O startLedger endLedger p res with
    | .next p' => pollAnswers answers p'
    | .done p' => pollDone L startLedger p'
    | .fail p' e => ((startLedger, some e), p')

/-- The request loop against an RPC that answers by the text of the request, for `fuel` requests. -/
def pollRpc (serve : GetEventsRequest → Except GoError GetEventsResult) :
    ℕ → Poll → Option ((ℤ × Option GoError) × Poll)
  | 0, _ => none
  | fuel + 1, p =>
    match serve (pollParams L startLedger p).encode with
    | .error e => some (pollCallFailed startLedger p e)
    | .ok res =>
      match pollPage L O startLedger endLedger p res with
      | .next p' => pollRpc serve fuel p'
      | .done p' => some (pollDone L startLedger p')
      | .fail p' e => some ((startLedger, some e), p')

/-- The state a call of `pollEventsRange` starts its loop in. -/
def pollInit (s : Db) : Poll := ⟨s, "", 0, [], [], []⟩

/-- The result without a configured contract: the ledger after the chain's latest one. -/
def pollLatest (latest : Except GoError ℤ) (s : Db) : (ℤ × Option GoError) × Poll :=
  match latest with
  | .error e => ((startLedger, some (.wrap "call getLatestLedger" e)), pollInit s)
  | .ok latest => ((int32 (latest + 1), none), pollInit s)

/-- The answers of the RPC to one call: to `getLatestLedger`, and to `getEvents` in turn. -/
structure RpcAnswers where
  latest : Except GoError ℤ
  events : List (Except GoError GetEventsResult)

def pollEventsRange (rpc : RpcAnswers) (s : Db) : (ℤ × Option GoError) × Poll :=
  if contractIDs L.cfg = [] then pollLatest startLedger rpc.latest s
  else pollAnswers L O startLedger endLedger rpc.events (pollInit s)

/-- An RPC that answers by the text of each request. -/
structure Rpc where
  latest : Except GoError ℤ
  getEvents : GetEventsRequest → Except GoError GetEventsResult

/-- `pollEventsRange` against such an RPC, for at most `fuel` requests. -/
def pollEventsServed (rpc : Rpc) (fuel : ℕ) (s : Db) : Option ((ℤ × Option GoError) × Poll) :=
  if contractIDs L.cfg = [] then some (pollLatest startLedger rpc.latest s)
  else pollRpc L O startLedger endLedger rpc.getEvents fuel (pollInit s)

/-- `BackfillRange`: its error, and the poll it made. -/
def backfillRange (rpc : RpcAnswers) (s : Db) : Option GoError × Poll :=
  if startLedger ≤ 0 ∨ endLedger < startLedger then
    (some (.new ("invalid backfill range: from=" ++ Int.repr startLedger ++ " to="
      ++ Int.repr endLedger)), pollInit s)
  else if contractIDs L.cfg = [] then
    (some (.new "cannot backfill without a configured contract ID"), pollInit s)
  else
    let r := pollEventsRange L O startLedger endLedger rpc s
    (r.1.2, r.2)

end Poll

section Start

variable (L : EventListener)

/-- The in-memory state of `Start`'s loop. -/
structure Run where
  currentLedger : ℤ
  finalizedLedger : ℤ
  finalizedHash : String
  deriving DecidableEq, Repr

/-- The ledger `Start` resumes from: the checkpoint, else the ledger after the newest one in
`events_log`, else the chain's latest ledger. -/
def resumeLedger (O : Oracle) (latest : Except GoError ℤ) (s : Db) : Except GoError ℤ :=
  if O.fails s.tick then .error (.wrap "failed to get checkpoint" driverError)
  else if 0 < getCheckpoint s.shared then .ok (getCheckpoint s.shared)
  else if O.fails (s.tick + 1) then
    .error (.wrap "failed to get latest processed ledger" driverError)
  else if 0 < latestProcessedLedger s.tables then .ok (int32 (latestProcessedLedger s.tables + 1))
  else latest.mapError (.wrap "failed to get latest ledger sequence: call getLatestLedger")

/-- `verifyFinalizedLedger`, on the hash the RPC gives for the recorded ledger: whether indexing
goes on. -/
def verifyFinalizedLedger (hash : Except GoError String) (r : Run) : Bool :=
  if r.finalizedLedger ≤ 0 ∨ r.finalizedHash = "" then true
  else match hash with
    | .error _ => true
    | .ok h => h = r.finalizedHash

def recordFinalizedLedger (hash : Except GoError String) (sequence : ℤ) (r : Run) : Run :=
  if sequence ≤ r.finalizedLedger ∨ sequence ≤ 0 then r
  else match hash with
    | .error _ => r
    | .ok h => { r with finalizedLedger := sequence, finalizedHash := h }

/-- What the environment answers during one tick. -/
structure TickInput where
  oracle : Oracle
  rpc : RpcAnswers
  verifyHash : Except GoError String
  recordHash : Except GoError String

/-- One tick of `Start`'s loop: the run after it, unless a reorg halts the listener, and the poll
it made. A failed poll leaves the run as it was, to be retried after a backoff. -/
def startTick (i : TickInput) (r : Run) (s : Db) : Option Run × Poll :=
  if verifyFinalizedLedger i.verifyHash r then
    match pollEventsRange L i.oracle r.currentLedger 0 i.rpc s with
    | ((_, some _), p) => (some r, p)
    | ((next, none), p) =>
      (some (recordFinalizedLedger i.recordHash (int32 (next - 1))
          { r with currentLedger := next }),
        { p with db := upsertCheckpoint next i.oracle.fails p.db })
  else (none, pollInit s)

end Start

end TrusTrove
