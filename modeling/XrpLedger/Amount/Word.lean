/-!
# Amount words

A serialized amount starts with a word of 64 bits. Native and issued amounts share the
meaning of its two top bits.

- `AmountWord.issuedBit`, `AmountWord.positiveBit`: the two top bits.
- `AmountWord.exponentUnit`: the lowest bit of an issued amount's exponent.
-/

namespace XrpLedger.AmountWord

/-- The top bit tells issued amounts from native ones. -/
def issuedBit : Nat := 0x8000_0000_0000_0000

/-- The next bit tells positive amounts from negative ones. -/
def positiveBit : Nat := 0x4000_0000_0000_0000

/-- The exponent of an issued amount takes eight bits from this one on, and the mantissa
those below. -/
def exponentUnit : Nat := 0x0040_0000_0000_0000

end XrpLedger.AmountWord
