import Mathlib.Data.List.Basic
import Mathlib.Tactic

/-!
# The wallet session of the web app

The store of `apps/web/store/wallet.ts` and the flows that write it: `useWallet`, its watcher and
`useAuth`. The code between two awaits runs in one go, but every setter it calls makes a state of
the store that subscribers are told of. A token is issued for the account its challenge names.

Every component that calls the hooks has its own: the address they were last rendered with, and the
`connectingRef` that keeps `connectWallet` from being called twice.
-/

namespace TrusTrove

inductive Role
  | issuer
  | buyer
  | lp
  deriving DecidableEq, Repr

/-- A JWT: its `sub` claim, and which of the tokens for that account. -/
structure Token where
  sub : String
  id : ℕ
  deriving DecidableEq, Repr

structure WalletState where
  address : Option String
  connected : Bool
  network : Option String
  token : Option Token
  role : Role
  deriving DecidableEq, Repr

namespace WalletState

def initial : WalletState := ⟨none, false, none, none, .issuer⟩

def connect (address network : String) (s : WalletState) : WalletState :=
  { s with address := some address, connected := true, network := some network }

def disconnect (s : WalletState) : WalletState :=
  { s with address := none, connected := false, network := none, token := none, role := .issuer }

def setAddress (address : Option String) (s : WalletState) : WalletState :=
  { s with address, connected := address.any (· ≠ "") }

def setNetwork (network : Option String) (s : WalletState) : WalletState := { s with network }

def setToken (token : Option Token) (s : WalletState) : WalletState := { s with token }

def setRole (role : Role) (s : WalletState) : WalletState := { s with role }

/-- `merge`: what a reload restores. -/
def merge (persistedRole : Option Role) (s : WalletState) : WalletState :=
  { s with address := none, connected := false, network := none, token := none
           role := persistedRole.getD s.role }

end WalletState

def expectedNetwork : String := "testnet"

/-- What `watchFreighterChanges` reports. -/
structure FreighterWalletChange where
  address : Option String
  disconnected : Bool
  network : Option String
  deriving DecidableEq, Repr

/-- Which promise of a `login` is pending. -/
inductive LoginStage
  | challenge
  | signing
  | verifying
  deriving DecidableEq, Repr

/-- A call of `login`, with the address it closed over. -/
structure Login where
  address : String
  stage : LoginStage
  deriving DecidableEq, Repr

/-- The store, and of the components that call the hooks, numbered as they are mounted, the address
each was last rendered with, those whose `connectWallet` is pending, and the pending logins. -/
structure Session where
  store : WalletState
  rendered : ℕ → Option String
  connecting : List ℕ
  logins : List Login

/-- A call of the user, a promise that settles, a report of the watcher, a render or a reload. -/
inductive WalletEvent
  | render (hook : ℕ)
  | reload (persistedRole : Option Role)
  | setRole (role : Role)
  | connectWallet (hook : ℕ)
  | connectResolved (hook : ℕ) (addr : String)
  | connectRejected (hook : ℕ)
  | disconnectWallet
  | login (hook : ℕ)
  | loginAdvanced (i : ℕ)
  | verified (i : ℕ) (id : ℕ)
  | loginRejected (i : ℕ)
  | logout
  | watcher (change : FreighterWalletChange)

/-- The callback of the watcher, as the setters it calls. -/
def onWatcherChange (change : FreighterWalletChange) (state : WalletState) :
    List (WalletState → WalletState) :=
  if !state.connected then []
  else if change.disconnected then [WalletState.disconnect]
  else
    (match change.address.filter fun a => a ≠ "" ∧ some a ≠ state.address with
      | some a => [WalletState.setAddress (some a), WalletState.setToken none]
      | none => []) ++
    (match change.network.filter fun n => n ≠ "" ∧ some n ≠ state.network with
      | some n => [WalletState.setNetwork (some n)]
      | none => [])

/-- The setters an event calls, in order. -/
def WalletEvent.setters (w : Session) : WalletEvent → List (WalletState → WalletState)
  | reload persistedRole => [WalletState.merge persistedRole]
  | setRole role => [WalletState.setRole role]
  | connectResolved hook addr =>
    if hook ∈ w.connecting then [WalletState.connect addr expectedNetwork] else []
  | connectRejected hook => if hook ∈ w.connecting then [WalletState.disconnect] else []
  | disconnectWallet => [WalletState.disconnect]
  | verified i id =>
    match w.logins[i]? with
    | some l => if l.stage = .verifying then [WalletState.setToken (some ⟨l.address, id⟩)] else []
    | none => []
  | loginRejected i => if i < w.logins.length then [WalletState.setToken none] else []
  | logout => [WalletState.setToken none, WalletState.disconnect]
  | watcher change => onWatcherChange change w.store
  | render _ | connectWallet _ | login _ | loginAdvanced _ => []

/-- What an event does to the pending calls. -/
def WalletEvent.pending (w : Session) : WalletEvent → Session
  | render hook => { w with rendered := Function.update w.rendered hook w.store.address }
  | reload _ => { w with rendered := fun _ => none, connecting := [], logins := [] }
  | connectWallet hook =>
    if hook ∈ w.connecting then w else { w with connecting := hook :: w.connecting }
  | connectResolved hook _ | connectRejected hook =>
    { w with connecting := w.connecting.erase hook }
  | login hook =>
    match (w.rendered hook).filter (· ≠ "") with
    | some address => { w with logins := w.logins ++ [⟨address, .challenge⟩] }
    | none => w
  | loginAdvanced i =>
    match w.logins[i]? with
    | some ⟨address, .challenge⟩ => { w with logins := w.logins.set i ⟨address, .signing⟩ }
    | some ⟨address, .signing⟩ => { w with logins := w.logins.set i ⟨address, .verifying⟩ }
    | _ => w
  | verified i _ =>
    if (w.logins[i]?.any fun l => l.stage = .verifying) then
      { w with logins := w.logins.eraseIdx i }
    else w
  | loginRejected i => { w with logins := w.logins.eraseIdx i }
  | setRole _ | disconnectWallet | logout | watcher _ => w

/-- The states a list of setters takes the store through. -/
def passes (setters : List (WalletState → WalletState)) (s : WalletState) : List WalletState :=
  match setters with
  | [] => []
  | f :: rest => f s :: passes rest (f s)

def WalletEvent.apply (w : Session) (e : WalletEvent) : Session :=
  { e.pending w with store := (e.setters w).foldl (fun s f => f s) w.store }

/-- The session after any interleaving. -/
def sessionRun (events : List WalletEvent) (w : Session) : Session :=
  events.foldl (fun w e => e.apply w) w

/-- The states of the store between the events of a run. -/
def settledStates : List WalletEvent → Session → List WalletState
  | [], w => [w.store]
  | e :: events, w => w.store :: settledStates events (e.apply w)

/-- Every state of the store in a run. -/
def storeStates : List WalletEvent → Session → List WalletState
  | [], w => [w.store]
  | e :: events, w => w.store :: passes (e.setters w) w.store ++ storeStates events (e.apply w)

/-- A page that was just loaded. -/
def Session.initial : Session := ⟨.initial, fun _ => none, [], []⟩

end TrusTrove
