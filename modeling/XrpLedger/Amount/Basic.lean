import XrpLedger.AccountId
import XrpLedger.Amount.Drops
import XrpLedger.Amount.IssuedValue
import XrpLedger.CurrencyCode

/-!
# Amounts

An amount is either native or issued. An issued amount names its currency, which is not
XRP, and the account that owes it.

- `IssuedAmount`, `Amount`: the two levels of the type.
- `Amount.toBytes`: the serialized form, eight octets or forty-eight.
-/

namespace XrpLedger

/-- An amount of an issued currency. -/
structure IssuedAmount where
  value : IssuedValue
  currency : CurrencyCode
  issuer : AccountId
  not_isXrp : currency.isXrp = false
  deriving DecidableEq

namespace IssuedAmount

/-- The amount of a currency that an account owes. -/
def make (value : IssuedValue) (currency : CurrencyCode) (issuer : AccountId) :
    Except CodecError IssuedAmount :=
  if h : currency.isXrp = false then .ok ⟨value, currency, issuer, h⟩
  else .error (.invalidCurrencyCode "XRP cannot be an issued currency")

/-- The serialized form: the value's word, the currency and the issuer. -/
def toBytes (a : IssuedAmount) : Bytes :=
  Bytes.ofNat 8 a.value.toWord.toNat ++ (a.currency.toBytes ++ a.issuer.toBytes)

end IssuedAmount

/-- The value of an amount field. -/
inductive Amount where
  | native (drops : Drops)
  | issued (amount : IssuedAmount)
  deriving DecidableEq

namespace Amount

/-- Whether the amount is native. -/
def isXrp : Amount → Bool
  | .native _ => true
  | .issued _ => false

/-- The serialized form. -/
def toBytes : Amount → Bytes
  | .native d => Bytes.ofNat 8 d.toWord.toNat
  | .issued a => a.toBytes

end Amount

end XrpLedger
