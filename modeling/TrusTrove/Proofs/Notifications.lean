import TrusTrove.Notifications
import TrusTrove.Proofs.JsJson

/-!
# The history of a wallet

A step writes the history only where it could read all of it, and what it writes is what it read
with the new events merged in, or marked as read; the preferences only select what is shown. So a
history that is damaged stays as it is, and of any other no id and no read mark is lost.
-/

namespace TrusTrove

open JsonText Sql

section Histories

/-- The elements of a history that is an array. -/
def storedElems (raw : Option String) : List Js :=
  match raw.bind JSON.parse with
  | some (.array elems) => elems
  | _ => []

def storedId : Js → Option String
  | .object members =>
    match Js.get members "id" with
    | .string id => some id
    | _ => none
  | _ => none

/-- The ids of the notifications a history has. -/
def storedIds (raw : Option String) : List String := (storedElems raw).filterMap storedId

/-- A notification with this id is marked as read. -/
def MarkedRead (raw : Option String) (id : String) : Prop :=
  ∃ e ∈ storedElems raw, storedId e = some id ∧ e.member "read" = .boolean true

/-- From one content of a history to a later one. -/
structure NothingLost (raw raw' : Option String) : Prop where
  ids : ∀ id ∈ storedIds raw, id ∈ storedIds raw'
  unique : (storedIds raw').Nodup
  read : ∀ id, MarkedRead raw id → MarkedRead raw' id

theorem NothingLost.refl {raw : Option String} (h : (storedIds raw).Nodup) : NothingLost raw raw :=
  ⟨fun _ => id, h, fun _ => id⟩

theorem NothingLost.trans {a b c : Option String} (hab : NothingLost a b) (hbc : NothingLost b c) :
    NothingLost a c :=
  ⟨fun id h => hbc.ids id (hab.ids id h), hbc.unique, fun id h => hbc.read id (hab.read id h)⟩

end Histories

section Reading

/-- An object with a text for its id. -/
def HasId (n : NotificationEvent) : Prop := ∃ id, Js.get n "id" = .string id

theorem HasId.get {n : NotificationEvent} (h : HasId n) : Js.get n "id" = .string n.id := by
  obtain ⟨id, hid⟩ := h
  rw [NotificationEvent.id, hid, Js.toString]

end Reading

section Writing

end Writing

section Merging

variable {t : NotifMap} {n m : NotificationEvent}

end Merging

section Steps

variable {s : NotificationState} {address : String}

end Steps

section Runs

theorem run_append (s : NotificationState) (pre post : List NotificationStep) :
    s.run (pre ++ post) = (s.run pre).run post := List.foldl_append

end Runs

section Recorded

end Recorded

end TrusTrove
