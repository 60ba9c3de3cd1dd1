import TrusTrove.CreateInvoice
import TrusTrove.Lib.Json

/-!
# The bodies of write requests

What the functions of `apps/web/lib/api.ts` write and what `decodeJSONBody` of `api/body.go` makes
of it. A string of the web app is any sequence of UTF-16 code units; `fetch` sends the text in
UTF-8.
-/

namespace TrusTrove

open JsonText

def maxAuthBodyBytes : ℕ := 8 * 2 ^ 10

def maxCreateInvoiceBodyBytes : ℕ := 4 * 2 ^ 10

def maxPatchInvoiceStatusBodyBytes : ℕ := 2 ^ 10

/-- A field of the struct decoded into: its JSON name, and what a value sets it to, unless the value
is of another type. -/
structure BodyField (α : Type) where
  name : String
  set : Value → α → Option α

section Fields

variable {α : Type}

def stringField (name : String) (set : String → α → α) : BodyField α where
  name := name
  set v a := match v with
    | .null => some a
    | .string s => some (set (String.ofList s) a)
    | _ => none

def int64Field (name : String) (set : ℤ → α → α) : BodyField α where
  name := name
  set v a := match v with
    | .null => some a
    | .number text => (parseInt64 (String.ofList text)).map (set · a)
    | _ => none

/-- `foldRune` of `encoding/json`, on the characters that fold to an ASCII one. -/
def foldRune (c : Char) : Char :=
  if c = 'ſ' then 'S' else if c = '\u212a' then 'K' else c.toUpper

/-- The field a key names: exactly, or else up to case. -/
def findField (fields : List (BodyField α)) (key : List Char) : Option (BodyField α) :=
  (fields.find? fun f => f.name.toList == key).or
    (fields.find? fun f => f.name.toList.map foldRune == key.map foldRune)

/-- `Decode` with `DisallowUnknownFields`. It goes on after a field it refuses, and refuses all. -/
def decodeMembers (fields : List (BodyField α)) : List (List Char × Value) → α → Option α
  | [], a => some a
  | (key, v) :: members, a =>
    match findField fields key with
    | none => none
    | some f => (f.set v a).bind (decodeMembers fields members)

def decodeInto (fields : List (BodyField α)) (v : Value) (a : α) : Option α :=
  match v with
  | .object members => decodeMembers fields members a
  | .null => some a
  | _ => none

def utf8Size (text : List Char) : ℕ := (text.map Char.utf8Size).sum

/-- The characters that start within the first `maxBytes` bytes. -/
def readLimited : ℕ → List Char → List Char
  | _, [] => []
  | maxBytes, c :: rest =>
    if maxBytes = 0 then [] else c :: readLimited (maxBytes - c.utf8Size) rest

/-- `readValue`: an object or an array ends with its bracket, anything else with a character after
it. -/
def readValue (text : List Char) : Scan Value :=
  match scanValue (2 * text.length + 2) text with
  | .done (.object members) rest => .done (.object members) rest
  | .done (.array elems) rest => .done (.array elems) rest
  | .done _ [] => .more
  | s => s

/-- `decodeJSONBody` into `zero`. The end of the body reads as a space, its limit as an error. -/
def decodeJSONBody (fields : List (BodyField α)) (zero : α) (maxBytes : ℕ) (body : List Char) :
    Except BodyError α :=
  let tooLarge := maxBytes < utf8Size body
  let text := if tooLarge then readLimited maxBytes body else body ++ [' ']
  let short : BodyError := if tooLarge then .tooLarge else .malformed
  match readValue text with
  | .bad => .error .malformed
  | .more => .error short
  | .done v rest =>
    match decodeInto fields v zero with
    | none => .error .malformed
    | some a =>
      if skipSpace rest = [] then if tooLarge then .error .tooLarge else .ok a
      else
        match readValue rest with
        | .more => .error short
        | _ => .error .malformed

end Fields

section Routes

/-- `POST /auth`. -/
def decodePostAuth : List Char → Except BodyError String :=
  decodeJSONBody [stringField "transaction" fun s _ => s] "" maxAuthBodyBytes

/-- `POST /invoices`. -/
def decodeCreateInvoice : List Char → Except BodyError CreateInvoiceRequest :=
  decodeJSONBody
    [stringField "buyer" fun s req => { req with buyer := s },
      stringField "face_value" fun s req => { req with faceValue := s },
      int64Field "due_date" fun n req => { req with dueDate := n },
      stringField "document_hash" fun s req => { req with documentHash := s }]
    ⟨"", "", 0, ""⟩ maxCreateInvoiceBodyBytes

/-- `PATCH /invoices/{id}/status`. -/
def decodePatchStatus : List Char → Except BodyError String :=
  decodeJSONBody [stringField "status" fun s _ => s] "" maxPatchInvoiceStatusBodyBytes

end Routes

section Client

/-- A number of the web app, as `JSON.stringify` writes it: a decimal text, or `null` if it is not
finite. -/
inductive JsNumber
  | finite (text : List Char) (isNumber : IsNumber text)
  | nonFinite

def JsNumber.json : JsNumber → List Char
  | finite text _ => text
  | nonFinite => "null".toList

inductive AssetType
  | usdc
  | xlm
  deriving DecidableEq, Repr

def AssetType.toString : AssetType → String
  | usdc => "USDC"
  | xlm => "XLM"

def jsString (s : String) : Utf16 := utf16 s.toList

def verifyChallengeBody (transaction : Utf16) : List Char :=
  writeObject [(jsString "transaction", quote transaction)]

def createInvoiceBody (buyer faceValue : Utf16) (dueDate : JsNumber) (asset : AssetType) :
    List Char :=
  writeObject [(jsString "buyer", quote buyer), (jsString "face_value", quote faceValue),
    (jsString "due_date", dueDate.json), (jsString "asset", quote (jsString asset.toString))]

def updateInvoiceStatusBody (status : Utf16) : List Char :=
  writeObject [(jsString "status", quote status)]

/-- A call of one of the functions that write. The id of an invoice goes into the path. -/
inductive WriteCall
  | verifyChallenge (transaction : Utf16)
  | createInvoice (buyer faceValue : Utf16) (dueDate : JsNumber) (asset : AssetType)
  | updateInvoiceStatus (id status : Utf16)

end Client

end TrusTrove
