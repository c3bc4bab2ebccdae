/-!
# Powers

The powers of the two bases that widths and places count in.

## Main definitions

* `twoTo`: the number of values of a width in bits.
* `tenTo`: the number of values of a count of decimal places.
-/

namespace NodeFeatureOperator

/-- The power of two. -/
abbrev twoTo (n : Nat) : Nat := Nat.pow 2 n

/-- The power of ten. -/
abbrev tenTo (n : Nat) : Nat := Nat.pow 10 n

end NodeFeatureOperator
