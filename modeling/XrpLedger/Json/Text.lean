import XrpLedger.Json.Token

/-!
# JSON text

- `Json.ofText?`: the value of a JSON text.
- `Json.toText`: the text of a JSON value, without blanks.
-/

namespace XrpLedger.Json

/-! ## Reading -/

mutual

/-- The value in front of a token list, and what follows. Every round takes a token. -/
def value? : (rounds : Nat) → List Token → Option (Json × List Token)
  | 0, _ => none
  | rounds + 1, tokens =>
    match tokens with
    | .atom value :: rest => some (value, rest)
    | .openArray :: .closeArray :: rest => some (.array [], rest)
    | .openArray :: rest =>
      match items? rounds rest with
      | some (items, rest) => some (.array items, rest)
      | none => none
    | .openObject :: .closeObject :: rest => some (.object [], rest)
    | .openObject :: rest =>
      match members? rounds rest with
      | some (members, rest) => some (ofMembers members, rest)
      | none => none
    | _ => none

/-- The items of an array up to its closing mark, and what follows. -/
def items? : (rounds : Nat) → List Token → Option (List Json × List Token)
  | 0, _ => none
  | rounds + 1, tokens =>
    match value? rounds tokens with
    | some (item, .closeArray :: rest) => some ([item], rest)
    | some (item, .comma :: rest) =>
      match items? rounds rest with
      | some (items, rest) => some (item :: items, rest)
      | none => none
    | _ => none

/-- The members of an object up to its closing mark, and what follows. -/
def members? : (rounds : Nat) → List Token → Option (List (String × Json) × List Token)
  | 0, _ => none
  | rounds + 1, tokens =>
    match tokens with
    | .atom (.string name) :: .colon :: rest =>
      match value? rounds rest with
      | some (item, .closeObject :: rest) => some ([(name, item)], rest)
      | some (item, .comma :: rest) =>
        match members? rounds rest with
        | some (members, rest) => some ((name, item) :: members, rest)
        | none => none
      | _ => none
    | _ => none

end

/-- The value of a JSON text, which must hold nothing else. -/
def ofText? (text : String) : Option Json :=
  match Token.listOfText? text with
  | none => none
  | some tokens =>
    match value? (2 * tokens.length) tokens with
    | some (value, []) => some value
    | _ => none

/-! ## Writing -/

/-- A character as it stands in a string. -/
def escape (c : Char) : List Char :=
  if c = '"' then ['\\', '"']
  else if c = '\\' then ['\\', '\\']
  else if c.toNat < 0x20 then
    ['\\', 'u', '0', '0', Text.upperHexDigit (c.toNat / 16),
      Text.upperHexDigit (c.toNat % 16)]
  else [c]

/-- The text of a string, in quotes. -/
def stringText (s : String) : String :=
  String.ofList ('"' :: (s.toList.flatMap escape ++ ['"']))

mutual

/-- The text of a value. -/
def toText : Json → String
  | .null => "null"
  | .bool true => "true"
  | .bool false => "false"
  | .natural n => toString n
  | .otherNumber text => text
  | .string s => stringText s
  | .array items => "[" ++ (",".intercalate (itemTexts items) ++ "]")
  | .object members => "\x7b" ++ (",".intercalate (memberTexts members) ++ "\x7d")

/-- The texts of items. -/
def itemTexts : List Json → List String
  | [] => []
  | item :: rest => toText item :: itemTexts rest

/-- The texts of members. -/
def memberTexts : List (String × Json) → List String
  | [] => []
  | (name, item) :: rest => (stringText name ++ (":" ++ toText item)) :: memberTexts rest

end

end XrpLedger.Json
