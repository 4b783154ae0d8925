/-!
# JSON values

- `Json`: a JSON value. The members of an object have distinct names in ascending order.
- `Json.ofMembers`: the object with given members.
- `Json.get?`, `Json.text?`, `Json.natural?`: views.
-/

namespace XrpLedger

/-- A JSON value. A number that is written with digits alone is a natural number; of any
other number only the spelling is kept. -/
inductive Json where
  | null
  | bool (b : Bool)
  | natural (n : Nat)
  | otherNumber (text : String)
  | string (s : String)
  | array (items : List Json)
  | object (members : List (String × Json))

namespace Json

/-- The members with one more, in ascending order of the names. A member of the same name
is replaced. -/
def insertMember (name : String) (value : Json) :
    List (String × Json) → List (String × Json)
  | [] => [(name, value)]
  | (n, v) :: rest =>
    if name < n then (name, value) :: (n, v) :: rest
    else if name = n then (name, value) :: rest
    else (n, v) :: insertMember name value rest

/-- The object with the given members. Of two members with one name the later counts. -/
def ofMembers (members : List (String × Json)) : Json :=
  .object (members.foldl (fun ms m => insertMember m.1 m.2 ms) [])

/-- The member of an object with a name. -/
def get? : Json → String → Option Json
  | .object members, name => (members.find? fun m => m.1 == name).map Prod.snd
  | _, _ => none

/-- The text of a string. -/
def text? : Json → Option String
  | .string s => some s
  | _ => none

/-- A natural number below a bound. -/
def natural? (bound : Nat) : Json → Option Nat
  | .natural n => if n < bound then some n else none
  | _ => none

end Json

end XrpLedger
