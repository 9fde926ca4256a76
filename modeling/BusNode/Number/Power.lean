/-!
# Powers

`b ^ n` is the power of natural numbers and of integers, also where the powers of monoids are known: definitions are
read there and here alike.
-/

attribute [instance (high), default_instance high + 1] instPowNat
