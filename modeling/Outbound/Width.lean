/-!
# Numbers of 64 bits

Which whole numbers fit 64 bits, with and without a sign.
-/

namespace Outbound

/-- The number fits without a sign. -/
def fitsUnsigned (n : Int) : Bool :=
  0 ≤ n && n < 0x10000000000000000

/-- The number fits with a sign. -/
def fitsSigned (n : Int) : Bool :=
  -0x8000000000000000 ≤ n && n < 0x8000000000000000

end Outbound
