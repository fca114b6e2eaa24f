/-
Powers of natural numbers.

Sizes, bounds and digits are powers of 2, 10 and 256 all over the
library. An algebra library has powers of its own, equal to these but
not the same term; here they are always the ones of the language, also
where such a library is loaded beside this one.

Consumed by every module that has a power in a definition or statement.
-/

namespace RouterSeed.Number

/-- The power of the language, ahead of any other. -/
@[default_instance 20000]
instance (priority := 20000) natPower : Pow Nat Nat := instPowNat

end RouterSeed.Number
