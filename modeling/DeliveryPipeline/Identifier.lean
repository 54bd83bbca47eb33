import DeliveryPipeline.Text.Quoted

/-!
# Identifiers ordered by time

An identifier has 128 bits: the milliseconds since the start of the epoch in 48 bits, the version 7,
twelve random bits, the variant, and 62 random bits. Its text has groups of 8, 4, 4, 4 and 12
hexadecimal digits.
-/
namespace DeliveryPipeline.Identifier

/-- A number in `width` hexadecimal digits, of which the lowest are kept. -/
def hexField (width n : Nat) : String :=
  let digits := Text.hexDigits (n % Nat.pow 16 width)
  String.ofList (List.replicate (width - digits.length) '0' ++ digits)

/-- The identifier for a time with random bits. -/
def ofTime (milliseconds randomBits : Nat) : String :=
  "-".intercalate [
    hexField 8 (milliseconds / Nat.pow 2 16),
    hexField 4 milliseconds,
    "7" ++ hexField 3 randomBits,
    hexField 4 (0x8000 + randomBits / Nat.pow 2 12 % 0x4000),
    hexField 12 (randomBits / Nat.pow 2 26)]

end DeliveryPipeline.Identifier
