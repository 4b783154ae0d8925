import XrpLedger.Transaction

/-!
# The demonstration

Derives an account from a seed in the environment, then signs a payment and checks the
signature.

- `Demo.run`: the lines that are printed and how the run ends.
-/

namespace XrpLedger.Demo

/-- How a run ends. -/
inductive Ending where
  | finished
  /-- A setting or an input was refused. -/
  | refused (e : CodecError)
  /-- The environment contradicts itself or lacks the seed. -/
  | aborted (reason : String)

/-- The exit code of a run. -/
def Ending.exitCode : Ending → UInt8
  | .finished => 0
  | .refused _ => 1
  | .aborted _ => 101

/-- The lines that a run prints, and how it ends. -/
structure Outcome where
  lines : List String
  ending : Ending

/-- The settings that a run looks up. -/
abbrev Environment := String → Option String

/-- The receiver of the payment, if none is set. -/
def defaultDestination : String := "rHb9CJAWyB4rj91VRWn96DkukG4bwdtyTh"

/-- An integer setting below a bound. -/
def naturalSetting (env : Environment) (name default : String) (bound : Nat) :
    Except CodecError Nat :=
  match Text.parseNat 10 bound ((env name).getD default) with
  | .ok n => .ok n
  | .error fault => .error (.parseInt fault)

/-- The payment that the settings ask for. -/
def paymentOf (env : Environment) (account : AccountId) :
    Except CodecError Transaction := do
  let destination ← AccountId.ofAddress ((env "DESTINATION").getD defaultDestination)
  let drops ← naturalSetting env "AMOUNT_DROPS" "1000000" UInt64.size
  let amount ← Drops.ofCount drops
  let feeDrops ← naturalSetting env "FEE_DROPS" "12" UInt64.size
  let fee ← Drops.ofCount feeDrops
  let sequence ← naturalSetting env "SEQUENCE" "1" UInt32.size
  return Transaction.payment account destination (.native amount) fee
    (UInt32.ofNat sequence)

/-- The lines about a signed and checked payment. -/
def paymentLines (env : Environment) (pair : KeyPair) :
    Except CodecError (List String) := do
  let tx ← paymentOf env pair.accountId
  let signed ← tx.sign pair
  let _ ← Signing.verify signed.blob
  return ["✓ Payment signed and verified", "  Hash: " ++ signed.hash.toHex,
    "  Blob: " ++ signed.blobText]

/-- The lines about a derived account. -/
def accountLines (pair : KeyPair) : List String :=
  ["Key type: " ++ pair.keyType.name, "Derived address: " ++ pair.address]

/-- The payment part of a run, behind the lines that have been printed. -/
def runPayment (env : Environment) (pair : KeyPair) (lines : List String) : Outcome :=
  match paymentLines env pair with
  | .ok more => ⟨lines ++ more, .finished⟩
  | .error e => ⟨lines, .refused e⟩

/-- A run of the demonstration. -/
def run (env : Environment) : Outcome :=
  match env "SECRET_STR" with
  | none => ⟨[], .aborted "SECRET_STR must be set in .env"⟩
  | some secret =>
    match KeyPair.ofSecret secret with
    | .error e => ⟨[], .refused e⟩
    | .ok pair =>
      match env "ADDRESS" with
      | none => runPayment env pair (accountLines pair)
      | some address =>
        if address = pair.address then
          runPayment env pair (accountLines pair ++ ["✓ Address derivation is correct"])
        else ⟨accountLines pair, .aborted "Derived address does not match ADDRESS"⟩

end XrpLedger.Demo
