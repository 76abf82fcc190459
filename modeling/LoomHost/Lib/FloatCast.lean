/-!
# Casts between Floating-Point Formats

The IEEE 754 interchange formats of the standard library's float model, with
binary16 added, and the cast of a bit pattern from one to another: the value is
rounded to nearest, ties to even, and overflows to infinity.

## Main definitions

* `binary16`: The half-precision format.
* `cast`: The pattern of the same value, rounded to another format.
* `eq`: The comparison of the standard on patterns.
-/

namespace LoomHost

namespace FloatCast

open Float.Model

/-- The half-precision format. -/
abbrev binary16 : Format where
  mantissaBitsWithoutImplicit := 10
  exponentBits := 5

/-- The pattern of a value in another format, rounded to nearest even. -/
def cast (src dst : Format) (bits : BitVec src.numBits) : BitVec dst.numBits :=
  match UnpackedFloat.unpack src bits with
  | .finite sign mantissa exponent _ =>
    UnpackedFloat.pack dst (UnpackedFloat.round dst sign mantissa exponent)
  | f => UnpackedFloat.pack dst f

/-- The values are equal; the two zeros are, and no NaN is. -/
def eq (spec : Format) (a b : BitVec spec.numBits) : Bool :=
  (UnpackedFloat.unpack spec a).beq (UnpackedFloat.unpack spec b)

/-- 2.5 is a half, the smallest half subnormal is a normal double, and 0.1
    loses bits even as a single. -/
example : cast Format.binary64 binary16 0x4004000000000000#64 = 0x4100#16 ∧
    cast binary16 Format.binary64 0x0001#16 = 0x3e70000000000000#64 ∧
    cast Format.binary32 Format.binary64
      (cast Format.binary64 Format.binary32 0x3fb999999999999a#64) ≠ 0x3fb999999999999a#64 := by
  decide

end FloatCast

end LoomHost
