import XrpLedger.AccountId
import XrpLedger.Amount.Basic
import XrpLedger.Amount.Decimal96
import XrpLedger.Amount.Drops
import XrpLedger.Amount.IssuedValue
import XrpLedger.Amount.Json
import XrpLedger.Amount.Word
import XrpLedger.Bytes
import XrpLedger.Bytes.Lemmas
import XrpLedger.CurrencyCode
import XrpLedger.Curve.Edwards25519
import XrpLedger.Curve.Modular
import XrpLedger.Curve.Secp256k1
import XrpLedger.Demo
import XrpLedger.Error
import XrpLedger.Field.Header
import XrpLedger.Field.Id
import XrpLedger.Field.Kind
import XrpLedger.Field.Table
import XrpLedger.Hash.Composite
import XrpLedger.Hash.Ripemd160
import XrpLedger.Hash.Sha256
import XrpLedger.Hash.Sha512
import XrpLedger.Json.Basic
import XrpLedger.Json.Place
import XrpLedger.Json.Text
import XrpLedger.Json.Token
import XrpLedger.Key.KeyPair
import XrpLedger.Key.PublicKey
import XrpLedger.Key.Seed
import XrpLedger.Ledger.AccountRoot
import XrpLedger.Ledger.Entry
import XrpLedger.Ledger.Header
import XrpLedger.Main
import XrpLedger.OpaqueHash
import XrpLedger.Proofs.AccountRoots
import XrpLedger.Proofs.AmountWords
import XrpLedger.Proofs.AsciiText
import XrpLedger.Proofs.Base58Spelling
import XrpLedger.Proofs.Base58Text
import XrpLedger.Proofs.BuiltTrees
import XrpLedger.Proofs.CanonicalOrder
import XrpLedger.Proofs.CorrectRounding
import XrpLedger.Proofs.CurrencyForms
import XrpLedger.Proofs.CurrencyText
import XrpLedger.Proofs.CursorCalls
import XrpLedger.Proofs.DecimalConversion
import XrpLedger.Proofs.DecimalRoundTrip
import XrpLedger.Proofs.DecimalText
import XrpLedger.Proofs.DigitReading
import XrpLedger.Proofs.DropsText
import XrpLedger.Proofs.ExactText
import XrpLedger.Proofs.FieldEntries
import XrpLedger.Proofs.Filling
import XrpLedger.Proofs.GuardedTexts
import XrpLedger.Proofs.Headers
import XrpLedger.Proofs.HexBuffers
import XrpLedger.Proofs.JsonMembers
import XrpLedger.Proofs.JsonRoundTrip
import XrpLedger.Proofs.JsonSigning
import XrpLedger.Proofs.Layout
import XrpLedger.Proofs.LedgerEntries
import XrpLedger.Proofs.LedgerHeaders
import XrpLedger.Proofs.LengthPrefixes
import XrpLedger.Proofs.NumberLiterals
import XrpLedger.Proofs.NumberText
import XrpLedger.Proofs.NumericOrder
import XrpLedger.Proofs.ObjectMap
import XrpLedger.Proofs.ObtainableValues
import XrpLedger.Proofs.PathSteps
import XrpLedger.Proofs.Phrases
import XrpLedger.Proofs.PrefixStability
import XrpLedger.Proofs.RationalRounding
import XrpLedger.Proofs.Reading
import XrpLedger.Proofs.Reencoding
import XrpLedger.Proofs.Resigning
import XrpLedger.Proofs.RoundTrip
import XrpLedger.Proofs.Rounding
import XrpLedger.Proofs.ScalarDerivation
import XrpLedger.Proofs.ScalarSpelling
import XrpLedger.Proofs.SeedMnemonics
import XrpLedger.Proofs.Segments
import XrpLedger.Proofs.SignatureCoverage
import XrpLedger.Proofs.SignatureForms
import XrpLedger.Proofs.StrictForm
import XrpLedger.Proofs.TreeShape
import XrpLedger.Proofs.TreeSpelling
import XrpLedger.Proofs.TreeWriting
import XrpLedger.Proofs.Truncation
import XrpLedger.Proofs.TypedFields
import XrpLedger.Proofs.TypedReading
import XrpLedger.Proofs.TypedSigning
import XrpLedger.Proofs.TypedTrees
import XrpLedger.Proofs.ValueText
import XrpLedger.Proofs.VerifiedForms
import XrpLedger.Proofs.WordList
import XrpLedger.Proofs.Writability
import XrpLedger.Signature.Der
import XrpLedger.Signature.Ecdsa
import XrpLedger.Signature.Eddsa
import XrpLedger.Signing
import XrpLedger.Text.Base58
import XrpLedger.Text.Base58Check
import XrpLedger.Text.Blank
import XrpLedger.Text.CharRange
import XrpLedger.Text.Decimal
import XrpLedger.Text.DefaultIgnorable
import XrpLedger.Text.GraphemeExtend
import XrpLedger.Text.Hex
import XrpLedger.Text.Mnemonic.Basic
import XrpLedger.Text.Mnemonic.Words
import XrpLedger.Text.Number
import XrpLedger.Text.Positional
import XrpLedger.Text.Quoted
import XrpLedger.Text.Unprintable
import XrpLedger.Transaction
import XrpLedger.Tree.Basic
import XrpLedger.Tree.Json
import XrpLedger.Wire.Length
import XrpLedger.Wire.Mark
import XrpLedger.Wire.Output
import XrpLedger.Wire.Reader
import XrpLedger.Wire.Writer
