/-!
# Marks of the serialized form

Octets with a meaning of their own, which the forms of paths, objects and arrays share.
-/

namespace XrpLedger

namespace PathStep

/-- The bit of a step that names an account. -/
def accountBit : UInt8 := 0x01

/-- The bit of a step that names a currency. -/
def currencyBit : UInt8 := 0x10

/-- The bit of a step that names an issuer. -/
def issuerBit : UInt8 := 0x20

end PathStep

namespace PathSet

/-- Stands between two paths. -/
def separator : UInt8 := 0xFF

/-- Stands behind the last path. -/
def terminator : UInt8 := 0x00

end PathSet

/-- The header of the end marker of an inner object. -/
def objectEndOctet : UInt8 := 0xE1

/-- The header of the end marker of an array. -/
def arrayEndOctet : UInt8 := 0xF1

end XrpLedger
