import Mathlib.Algebra.Group.Nat.Defs

namespace ApolloContrib.Ros

/-! `ros::Time`, which is not of this repository. -/

/-- With what a time of seconds and nanoseconds is in nanoseconds. -/
structure RosTime where
  Time : Type
  zero : Time
  make : BitVec 32 → BitVec 32 → Time
  toNSec : Time → Nat
  toNSec_make : ∀ sec nsec, nsec.toNat < 10 ^ 9 →
    toNSec (make sec nsec) = sec.toNat * 10 ^ 9 + nsec.toNat

def nanoseconds : RosTime where
  Time := Nat
  zero := 0
  make := fun sec nsec => sec.toNat * 10 ^ 9 + nsec.toNat
  toNSec := id
  toNSec_make := fun _ _ _ => rfl

end ApolloContrib.Ros
