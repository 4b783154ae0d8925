import XrpLedger.Key.KeyPair
import XrpLedger.Tree.Json
import XrpLedger.Wire.Reader
import XrpLedger.Wire.Writer

/-!
# Signing transactions

A signature covers a marker and the signing part of a transaction. The signed transaction
holds the public key and the signature as fields, and its identifier is a hash of a marker
and its serialized form.

- `signingData`: the octets that a signature covers.
- `sign`, `signWithSeed`, `signJson`: the signed form of a transaction.
- `verify`: the transaction of a signed form whose signature is right.
- `transactionHash`: the identifier of a signed form.
-/

namespace XrpLedger.Signing

/-- Stands in front of what a signature covers: `STX` and a zero. -/
def signingMarker : Bytes := [0x53, 0x54, 0x58, 0x00]

/-- Stands in front of what identifies a transaction: `TXN` and a zero. -/
def identityMarker : Bytes := [0x54, 0x58, 0x4E, 0x00]

/-- A signed transaction. -/
structure SignedTransaction where
  blob : Bytes
  hash : Hash256
  deriving DecidableEq

/-- The hexadecimal text of a signed transaction. -/
def SignedTransaction.blobText (s : SignedTransaction) : String :=
  Text.Hex.encode s.blob

/-- The octets that a signature of a transaction covers. -/
def signingData (tx : Object) : Except CodecError Bytes :=
  match Object.encodeSigning tx with
  | .ok bs => .ok (signingMarker ++ bs)
  | .error e => .error e

/-- The identifier of a signed form. -/
def transactionHash (blob : Bytes) : Hash256 :=
  Hash.sha512Half (identityMarker ++ blob)

/-- A blob as the value of a field. -/
def blobValue (bs : Bytes) : Value :=
  .scalar (.blob bs)

/-- The transaction with the signer's public key. One that names another key
is refused. -/
def withSigner (tx : Object) (signer : PublicKey) : Except CodecError Object :=
  match Object.getAs tx Field.signingPubKey Value.blob? with
  | .error e => .error e
  | .ok none => .ok (Object.insert Field.signingPubKey (blobValue signer.toBytes) tx)
  | .ok (some named) =>
    if named = signer.toBytes then .ok tx
    else .error (.invalidPublicKey (.notTheSigner named signer.toBytes))

/-- The signed form of a transaction. A signature that it has already is replaced. -/
def sign (tx : Object) (pair : KeyPair) : Except CodecError SignedTransaction :=
  match withSigner tx pair.publicKey with
  | .error e => .error e
  | .ok named =>
    let unsigned := Object.erase Field.txnSignature named
    match signingData unsigned with
    | .error e => .error e
    | .ok data =>
      match pair.sign data with
      | .error e => .error e
      | .ok signature =>
        let signed := Object.insert Field.txnSignature (blobValue signature) unsigned
        match Object.encode signed with
        | .error e => .error e
        | .ok blob => .ok ⟨blob, transactionHash blob⟩

/-- The signed form of a transaction under the keys of a seed. -/
def signWithSeed (tx : Object) (seed : Seed) : Except CodecError SignedTransaction :=
  match KeyPair.ofSeed seed with
  | .ok pair => sign tx pair
  | .error e => .error e

/-- The signed form of a transaction given in JSON. -/
def signJson (j : Json) (seed : Seed) : Except CodecError SignedTransaction :=
  match Object.ofJson j with
  | .ok tx => signWithSeed tx seed
  | .error e => .error e

/-- The transaction of a signed form whose signature is right. -/
def verify (blob : Bytes) : Except CodecError Object :=
  match Object.decode blob with
  | .error e => .error e
  | .ok tx =>
    match Object.require tx Field.signingPubKey Value.blob? with
    | .error e => .error e
    | .ok keyBytes =>
      match PublicKey.ofBytes keyBytes with
      | .error e => .error e
      | .ok key =>
        match Object.require tx Field.txnSignature Value.blob? with
        | .error e => .error e
        | .ok signature =>
          match signingData tx with
          | .error e => .error e
          | .ok data =>
            match key.verify data signature with
            | .error e => .error e
            | .ok () => .ok tx

end XrpLedger.Signing
