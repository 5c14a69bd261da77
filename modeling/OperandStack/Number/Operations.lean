/-!
# Sums and powers of numbers

The zero that sums start from and the powers of a number are those of the core library, also
where a richer structure on numbers is in scope that brings its own.
-/

namespace OperandStack.Number

/-- Sums start from the number that is written 0. -/
instance (priority := 1100) zeroOfLiteral {α : Type} [OfNat α 0] : Zero α := Zero.ofOfNat0

/-- Exponents are natural numbers, also where they are literals. -/
@[default_instance 11000]
instance (priority := 1100) powOfNatPow {α : Type} [NatPow α] : Pow α Nat := instPowNat

end OperandStack.Number
