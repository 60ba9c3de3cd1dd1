import TrusTrove.Wallet
import TrusTrove.JsValue

/-!
# The watcher of the wallet extension

`watchFreighterChanges` of `apps/web/lib/freighter.ts`. A poll starts when the watcher does and at
every tick of the timer, and settles later. `toLowerCase` of a string is a parameter.
-/

namespace TrusTrove

/-- What Freighter is taken to report; a missing field is `null`. -/
structure FreighterSnapshot where
  address : Option String
  network : Option String
  deriving DecidableEq, Repr

/-- The argument of `onChange`. -/
structure ReportedChange extends FreighterWalletChange where
  previous : FreighterSnapshot
  deriving DecidableEq, Repr

/-- What the two calls of a poll resolve to: the address, and the network of the details if they
have one. -/
structure PollResult where
  address : Option String
  network : Option String
  deriving DecidableEq, Repr

inductive WatchEvent
  | timer
  | resolved (result : PollResult)
  | rejected
  | stop
  deriving DecidableEq, Repr

/-- A callback the watcher calls. -/
inductive WatchCall
  | onChange (change : ReportedChange)
  | onError
  deriving DecidableEq, Repr

/-- The variables of the watcher, and how many polls have not settled. -/
structure Watcher where
  previous : FreighterSnapshot
  stopped : Bool
  polling : Bool
  inFlight : ℕ
  deriving DecidableEq, Repr

/-- `s || null` -/
def orNull (s : Option String) : Option String := s.filter (· ≠ "")

variable (toLowerCase : String → String)

def normalizeNetwork (network : Option String) : Option String :=
  orNull (network.map fun n => toLowerCase (String.ofList (trimWhiteSpace n.toList)))

/-- The snapshot of a poll. -/
def PollResult.next (p : PollResult) : FreighterSnapshot :=
  ⟨orNull p.address, normalizeNetwork toLowerCase p.network⟩

/-- A field that is not missing and not what it was. -/
def newValue (next previous : Option String) : Option String :=
  if next ≠ previous then next else none

/-- The change between two snapshots, if there is one. An account is gone (`disconnected`) in the
`else` of the branch for a new one. -/
def detectChange (previous next : FreighterSnapshot) : Option ReportedChange :=
  let address := newValue next.address previous.address
  let disconnected := next.address.isNone && (orNull previous.address).isSome
  let network := newValue next.network previous.network
  if address.isSome || disconnected || network.isSome then
    some { address, disconnected, network, previous }
  else none

namespace Watcher

/-- The beginning of `poll`, up to its first `await`. -/
def poll (w : Watcher) : Watcher :=
  if w.stopped || w.polling then w else { w with polling := true, inFlight := w.inFlight + 1 }

/-- `watchFreighterChanges` when it returns: the first poll has started. -/
def start (baseline : FreighterSnapshot) : Watcher := poll ⟨baseline, false, false, 0⟩

/-- A poll has settled, and its `finally` has run. -/
def settle (w : Watcher) : Watcher := { w with polling := false, inFlight := w.inFlight - 1 }

/-- An event, with the callbacks it calls. Where no poll is in flight none settles; a stopped
watcher has no timer. -/
def step (w : Watcher) : WatchEvent → Watcher × List WatchCall
  | .timer => (w.poll, [])
  | .stop => ({ w with stopped := true }, [])
  | .rejected => if w.inFlight = 0 then (w, []) else (w.settle, [.onError])
  | .resolved result =>
    if w.inFlight = 0 then (w, [])
    else if w.stopped then (w.settle, [])
    else
      match detectChange w.previous (result.next toLowerCase) with
      | none => (w.settle, [])
      | some change =>
        ({ w.settle with previous := result.next toLowerCase }, [.onChange change])

/-- The watcher after some events. -/
def after (w : Watcher) (events : List WatchEvent) : Watcher :=
  events.foldl (fun w e => (w.step toLowerCase e).1) w

/-- The poll result an event hands to a watcher that still looks at it. -/
def receives (w : Watcher) : WatchEvent → Option PollResult
  | .resolved result => if w.inFlight = 0 ∨ w.stopped then none else some result
  | _ => none

/-- The results a run of the watcher has looked at. -/
def results (w : Watcher) : List WatchEvent → List PollResult
  | [] => []
  | e :: events => (w.receives e).toList ++ (w.step toLowerCase e).1.results events

end Watcher

end TrusTrove
