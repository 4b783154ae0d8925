import XrpLedger.Amount.Basic
import XrpLedger.Json.Basic
import XrpLedger.Json.Place
import XrpLedger.Text.Quoted

/-!
# Values in JSON

Most values are JSON strings that hold their text. A native amount is the text of its
count of drops, and an issued amount an object of three texts.

- `Json.Refusal`: why a JSON value is not the form of a value.
- `Json.readText`: the reading of a value from its text.
- `Amount.ofJson`, `Amount.toJson`: amounts.
-/

namespace XrpLedger

namespace Json

/-- Why a JSON value is not the form of a value: it is of the wrong sort, or its text is
refused. -/
inductive Refusal where
  | sort
  | text (message : String)

/-- The refusal of a text with a message, whose end may read as a place. -/
def Refusal.ofMessage (message : String) : Refusal :=
  .text (Place.restate message)

/-- The value whose text a JSON string holds. -/
def readText {α : Type} (parse : String → Except CodecError α) : Json → Except Refusal α
  | .string s =>
    match parse s with
    | .ok a => .ok a
    | .error e => .error (.ofMessage e.message)
  | _ => .error .sort

/-- The value whose text a member holds. -/
def readMember? {α : Type} (parse : String → Except CodecError α) : Option Json → Option α
  | some (.string s) => (parse s).toOption
  | _ => none

end Json

/-- The native amount whose count of drops a JSON string holds. -/
def Drops.ofJson : Json → Except Json.Refusal Drops
  | .string s =>
    match ofDropsText s with
    | .ok d => .ok d
    | .error fault => .error (.ofMessage fault.message)
  | _ => .error .sort

namespace IssuedAmount

/-- The issued amount with the given parts, each a JSON string. -/
def ofParts? (currency issuer value : Option Json) : Option IssuedAmount :=
  match Json.readMember? CurrencyCode.ofText currency,
    Json.readMember? AccountId.ofAddress issuer,
    Json.readMember? IssuedValue.ofText value with
  | some c, some i, some v => (make v c i).toOption
  | _, _, _ => none

/-- The issued amount of an object with its three parts, or of a list of them. -/
def ofJson? (j : Json) : Option IssuedAmount :=
  match j with
  | .object _ => ofParts? (j.get? "currency") (j.get? "issuer") (j.get? "value")
  | .array [currency, issuer, value] =>
    ofParts? (some currency) (some issuer) (some value)
  | _ => none

/-- The issued amount of a JSON value, or the refusal of it. -/
def ofJson (j : Json) : Except Json.Refusal IssuedAmount :=
  match j with
  | .string s =>
    .error (.ofMessage ("invalid type: string " ++ Text.quotedText s ++
      ", expected struct IssuedAmountFields"))
  | _ =>
    match ofJson? j with
    | some a => .ok a
    | none => .error .sort

/-- The object with the three parts of an issued amount. -/
def toJson (a : IssuedAmount) : Json :=
  .ofMembers [("currency", .string a.currency.toText),
    ("issuer", .string a.issuer.toAddress), ("value", .string a.value.toText)]

end IssuedAmount

namespace Amount

/-- The amount of a JSON value: native for a string, issued otherwise. -/
def ofJson? : Json → Option Amount
  | .string s => (Drops.ofDropsText s).toOption.map .native
  | j => (IssuedAmount.ofJson? j).map .issued

/-- The amount of a JSON value, or the refusal of it. -/
def ofJson (j : Json) : Except CodecError Amount :=
  match ofJson? j with
  | some a => .ok a
  | none => .error (.json .notAnAmount)

/-- The JSON form of an amount. -/
def toJson : Amount → Json
  | .native d => .string d.toDropsText
  | .issued a => a.toJson

end Amount

end XrpLedger
