/-
  ClusterRounds.Number.Power

  Powers with natural exponents. Where algebra is known there are several ways to read a
  power, which all come to the same number; the one of the core library is preferred, so
  that a power is the same term in every module.
-/

namespace ClusterRounds

@[default_instance 20000]
instance (priority := high) corePower {α : Type} [NatPow α] : Pow α Nat := instPowNat

end ClusterRounds
