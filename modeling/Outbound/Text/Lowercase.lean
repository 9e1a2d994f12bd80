/-!
# Small letters

The letters of the Latin, Greek, Cyrillic and Armenian alphabets in small form.
-/

namespace Outbound.Text

/-- Whether capital letters stand at even places of a block in which each is followed by its
small letter. -/
private def inEvenPairs (n : Nat) : Bool :=
  (0x100 ≤ n && n ≤ 0x137) || (0x14a ≤ n && n ≤ 0x177) || (0x460 ≤ n && n ≤ 0x481) ||
    (0x48a ≤ n && n ≤ 0x4bf) || (0x4d0 ≤ n && n ≤ 0x52f) || (0x1e00 ≤ n && n ≤ 0x1e95) ||
    (0x1ea0 ≤ n && n ≤ 0x1eff)

private def inOddPairs (n : Nat) : Bool :=
  (0x139 ≤ n && n ≤ 0x148) || (0x179 ≤ n && n ≤ 0x17e)

/-- The small letter of a letter, by its code. Other characters stay. -/
def lowerPoint (n : Nat) : Nat :=
  if 0x41 ≤ n && n ≤ 0x5a then n + 32
  else if 0xff21 ≤ n && n ≤ 0xff3a then n + 32
  else if 0xc0 ≤ n && n ≤ 0xde && n != 0xd7 then n + 32
  else if n = 0x178 then 0xff
  else if inEvenPairs n && n % 2 = 0 then n + 1
  else if inOddPairs n && n % 2 = 1 then n + 1
  else if 0x391 ≤ n && n ≤ 0x3ab then n + 32
  else if n = 0x386 then 0x3ac
  else if 0x388 ≤ n && n ≤ 0x38a then n + 37
  else if n = 0x38c then 0x3cc
  else if n = 0x38e || n = 0x38f then n + 63
  else if 0x410 ≤ n && n ≤ 0x42f then n + 32
  else if 0x400 ≤ n && n ≤ 0x40f then n + 80
  else if 0x531 ≤ n && n ≤ 0x556 then n + 48
  else n

def lowercase (s : String) : String :=
  s.map fun c ↦ Char.ofNat (lowerPoint c.toNat)

end Outbound.Text
