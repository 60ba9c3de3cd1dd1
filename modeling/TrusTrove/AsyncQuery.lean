import Mathlib.Data.List.Basic
import Mathlib.Tactic

/-!
# The query hook of the React bindings

`useAsyncQuery` in `packages/sdk-react/src/async.ts`. The hook's cells and refs are one state; its
effect, its cleanup, `refetch` and the settling of a run's promise are the events. React runs a
cleanup and the effect after it without letting a promise settle between them, and the code from an
`await` to the end of `run` is one task.
-/

namespace TrusTrove

/-- What a `queryFn` promise rejects with: an `Error`, or a value with what `String` makes of it
(`none` if that throws too). -/
inductive Reason (ε : Type)
  | error (e : ε)
  | value (text : Option String)

inductive QueryOutcome (α ε : Type)
  | resolved (result : α)
  | rejected (reason : Reason ε)

/-- One call of `run`. -/
structure QueryRun where
  generation : ℕ
  aborted : Bool
  settled : Bool
  deriving DecidableEq, Repr

/-- A call of `setData` or `setError`, by the run with that index. -/
inductive CellWrite (α ε : Type)
  | data (run : ℕ) (value : α)
  | error (run : ℕ) (value : Option ε)
  deriving DecidableEq

def CellWrite.run {α ε : Type} : CellWrite α ε → ℕ
  | data run _ | error run _ => run

/-- Where the component is: rendered but its effect not yet run, its effect in force, or gone. -/
inductive QueryPhase
  | rendered
  | active
  | unmounted
  deriving DecidableEq, Repr

structure QueryState (α ε : Type) where
  data : Option α
  isLoading : Bool
  error : Option ε
  /-- `generationRef` -/
  generation : ℕ
  /-- `controllerRef`: the run it belongs to. -/
  controller : Option ℕ
  runs : List QueryRun
  phase : QueryPhase
  /-- Every call of `setData` and `setError` so far. -/
  writes : List (CellWrite α ε)

inductive QueryEvent (α ε : Type)
  /-- The effect runs for the first time, or again after a cleanup. -/
  | effect
  | depsChange
  | refetch
  | unmount
  /-- The `queryFn` promise of a run settles. -/
  | settle (run : ℕ) (outcome : QueryOutcome α ε)

variable {α ε : Type}

namespace QueryState

def initial : QueryState α ε := ⟨none, true, none, 0, none, [], .rendered, []⟩

def Mounted (s : QueryState α ε) : Prop := s.phase ≠ .unmounted

def setData (run : ℕ) (value : α) (s : QueryState α ε) : QueryState α ε :=
  { s with data := some value, writes := s.writes ++ [.data run value] }

def setError (run : ℕ) (value : Option ε) (s : QueryState α ε) : QueryState α ε :=
  { s with error := value, writes := s.writes ++ [.error run value] }

def setIsLoading (value : Bool) (s : QueryState α ε) : QueryState α ε :=
  { s with isLoading := value }

/-- `controllerRef.current?.abort()` -/
def abort (s : QueryState α ε) : QueryState α ε :=
  match s.controller with
  | none => s
  | some i => { s with runs := s.runs.modify i fun r => { r with aborted := true } }

/-- `run` up to its `await`. -/
def startRun (s : QueryState α ε) : QueryState α ε :=
  let s := s.abort
  let i := s.runs.length
  let s := { s with controller := some i, generation := s.generation + 1
                    runs := s.runs ++ [QueryRun.mk (s.generation + 1) false false] }
  (s.setIsLoading true).setError i none

/-- What the effect returns. -/
def cleanup (s : QueryState α ε) : QueryState α ε :=
  let s := { s with generation := s.generation + 1 }.abort
  { s with controller := none }

/-- `isCurrent()` of a run. -/
def isCurrent (r : QueryRun) (s : QueryState α ε) : Bool := r.generation == s.generation

/-- What `setError` is called with; `String(err)` may throw instead. -/
def asError (newError : String → ε) : Reason ε → Option ε
  | .error e => some e
  | .value text => text.map newError

/-- `run` from its `await` on. -/
def finishRun (newError : String → ε) (i : ℕ) (r : QueryRun) (outcome : QueryOutcome α ε)
    (s : QueryState α ε) : QueryState α ε :=
  let s := { s with runs := s.runs.modify i fun r => { r with settled := true } }
  let s := match outcome with
    | .resolved result => if isCurrent r s then s.setData i result else s
    | .rejected reason =>
      if isCurrent r s then
        match asError newError reason with
        | some e => s.setError i (some e)
        | none => s
      else s
  -- the `finally` block
  if isCurrent r s then s.setIsLoading false else s

/-- One event, if it can happen. -/
def step (newError : String → ε) (s : QueryState α ε) : QueryEvent α ε → Option (QueryState α ε)
  | .effect => if s.phase = .active then none else some { s.startRun with phase := .active }
  | .depsChange => if s.phase = .active then some s.cleanup.startRun else none
  | .refetch => some s.startRun
  | .unmount => if s.phase = .active then some { s.cleanup with phase := .unmounted } else none
  | .settle i outcome =>
    match s.runs[i]? with
    | none => none
    | some r => if r.settled then none else some (s.finishRun newError i r outcome)

/-- The state after a sequence of events, if each of them could happen. -/
def exec (newError : String → ε) : List (QueryEvent α ε) → QueryState α ε → Option (QueryState α ε)
  | [], s => some s
  | e :: events, s => (s.step newError e).bind (exec newError events)

end QueryState

end TrusTrove
