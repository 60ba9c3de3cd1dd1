import TrusTrove.Lib.JsonWriter
import TrusTrove.Lib.Table
import TrusTrove.JsValue

/-!
# `JSON.parse` and `JSON.stringify`

Between JavaScript values and JSON texts. A member that is `undefined` is not written, and neither
is one that is a function, which stands as `undefined` here.
-/

namespace TrusTrove

open JsonText Sql

namespace Js

/-- The own members of an object: of two with one name the later, in the place of the earlier. -/
def ownMembers (members : List (String × Js)) : Table (String × Js) Prod.fst :=
  members.foldl Table.upsert Table.empty

/-- `{ ...obj, [key]: value }` -/
def spreadWith (members : List (String × Js)) (key : String) (value : Js) : List (String × Js) :=
  ((ownMembers members).upsert (key, value)).rows

mutual

/-- The value of a parsed JSON text. -/
def ofJson : Value → Js
  | .null => null
  | .bool b => boolean b
  | .number text => number (stringToNumber (String.ofList text))
  | .string s => string (String.ofList s)
  | .array elems => array (ofElems elems)
  | .object members => object (ownMembers (ofMembers members)).rows

def ofElems : List Value → List Js
  | [] => []
  | v :: vs => ofJson v :: ofElems vs

def ofMembers : List (List Char × Value) → List (String × Js)
  | [] => []
  | (key, v) :: ms => (String.ofList key, ofJson v) :: ofMembers ms

end

mutual

/-- What is written of a value, if anything is. -/
def toJson : Js → Option Value
  | undefined | bigint _ => none
  | null => some .null
  | boolean b => some (.bool b)
  | number x =>
    match x with
    | .finite _ => some (.number x.toString.toList)
    | _ => some .null
  | string s => some (.string s.toList)
  | uint8Array bytes => some (.object (bytes.zipIdx.map fun b =>
      ((Nat.repr b.2).toList, .number (Nat.repr b.1.toNat).toList)))
  | array elems => some (.array (elemsJson elems))
  | object members => some (.object (membersJson members))

def elemsJson : List Js → List Value
  | [] => []
  | v :: vs => (toJson v).getD .null :: elemsJson vs

def membersJson : List (String × Js) → List (List Char × Value)
  | [] => []
  | (key, v) :: ms =>
    match toJson v with
    | some j => (key.toList, j) :: membersJson ms
    | none => membersJson ms

end

mutual

def hasBigint : Js → Bool
  | bigint _ => true
  | array elems => elemsHaveBigint elems
  | object members => membersHaveBigint members
  | _ => false

def elemsHaveBigint : List Js → Bool
  | [] => false
  | v :: vs => hasBigint v || elemsHaveBigint vs

def membersHaveBigint : List (String × Js) → Bool
  | [] => false
  | (_, v) :: ms => hasBigint v || membersHaveBigint ms

end

end Js

namespace JSON

/-- `JSON.parse`; none is a `SyntaxError`. -/
def parse (text : String) : Option Js := (read text.toList).map Js.ofJson

/-- `JSON.stringify` of a value that is not `undefined`. -/
def stringify (value : Js) : Except Thrown String :=
  if value.hasBigint then .error (.typeError "Do not know how to serialize a BigInt")
  else .ok (String.ofList (write (value.toJson.getD .null)))

end JSON

end TrusTrove
