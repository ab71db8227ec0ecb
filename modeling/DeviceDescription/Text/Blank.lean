/-!
# Blank characters

Lines are cut into tokens at white space in the sense of the Unicode property `White_Space`, which
has twenty-five members. The test is a union of intervals of code points.
-/

namespace DeviceDescription

/-- Membership in the Unicode property `White_Space`. -/
def isBlank (c : Char) : Bool :=
  (0x09 ≤ c.toNat && c.toNat ≤ 0x0d) || c.toNat == 0x20 || c.toNat == 0x85 || c.toNat == 0xa0 ||
    c.toNat == 0x1680 || (0x2000 ≤ c.toNat && c.toNat ≤ 0x200a) || c.toNat == 0x2028 ||
    c.toNat == 0x2029 || c.toNat == 0x202f || c.toNat == 0x205f || c.toNat == 0x3000

end DeviceDescription
