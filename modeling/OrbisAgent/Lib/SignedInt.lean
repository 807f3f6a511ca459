/- OrbisAgent/Lib/SignedInt
   generality: G
   digest: Operations on signed numbers of fixed size, when they stay in range, and arithmetics
   that may give anything where they do not. -/

import Mathlib.Algebra.Ring.Int.Defs
import Mathlib.Tactic.NormNum.Basic

set_option autoImplicit false
set_option relaxedAutoImplicit false

namespace OrbisAgent.Lib.SignedInt

/-- The numbers of a signed type with `size` bits beside the sign. -/
def Fits (size : Nat) (x : Int) : Prop := -2 ^ size ≤ x ∧ x < 2 ^ size

instance (size : Nat) (x : Int) : Decidable (Fits size x) :=
  inferInstanceAs (Decidable (_ ∧ _))

inductive IntOp
  | add (x y : Int)
  | mul (x y : Int)
  | shl (x : Int) (count : Nat)
  deriving DecidableEq

def IntOp.exact : IntOp → Int
  | add x y => x + y
  | mul x y => x * y
  | shl x count => x * 2 ^ count

/-- The operation stays in range, and no negative number is shifted. -/
def IntOp.Defined (size : Nat) : IntOp → Prop
  | shl x count => 0 ≤ x ∧ Fits size (x * 2 ^ count)
  | op => Fits size op.exact

instance (size : Nat) (op : IntOp) : Decidable (op.Defined size) :=
  match op with
  | .shl _ _ => inferInstanceAs (Decidable (_ ∧ _))
  | .add _ _ => inferInstanceAs (Decidable (Fits _ _))
  | .mul _ _ => inferInstanceAs (Decidable (Fits _ _))

theorem IntOp.Defined.fits {size : Nat} {op : IntOp} (defined : op.Defined size) :
    Fits size op.exact := by
  cases op with
  | add x y => exact defined
  | mul x y => exact defined
  | shl x count => exact defined.2

/-- What a compiler makes of the operations. It is bound by those that stay in range only. -/
structure Arith (size : Nat) where
  result : IntOp → Int
  result_of_defined : ∀ op : IntOp, op.Defined size → result op = op.exact

namespace Arith

variable {size : Nat}

theorem agree (arith other : Arith size) {op : IntOp} (defined : op.Defined size) :
    arith.result op = other.result op := by
  rw [arith.result_of_defined op defined, other.result_of_defined op defined]

/-- Two's complement that wraps around. -/
def wrapping (size : Nat) : Arith size where
  result op := op.exact.bmod (2 ^ (size + 1))
  result_of_defined := by
    intro op defined
    obtain ⟨low, high⟩ := defined.fits
    have half : ((2 ^ (size + 1) : Nat) : Int) = 2 * 2 ^ size := by
      push_cast
      rw [pow_succ, Int.mul_comm]
    apply Int.bmod_eq_of_le
    · omega
    · omega

end Arith

end OrbisAgent.Lib.SignedInt
