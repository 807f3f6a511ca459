/- OrbisAgent/Lib/MachineNumbers
   generality: G
   digest: Unsigned 64-bit arithmetic, and floating point numbers as a parameter: what a program
   computes, prints and serialises with them. -/

import OrbisAgent.Lib.Utf8

set_option autoImplicit false
set_option relaxedAutoImplicit false

namespace OrbisAgent.Lib.MachineNumbers

open OrbisAgent.Lib.ByteString
open OrbisAgent.Lib.Json
open OrbisAgent.Lib.Utf8

/-- The type `double`. `fixed1` is what the format `%.1f` prints: digits, a sign, a point, or
the name of a value that is no number. -/
structure Doubles (δ : Type) where
  ofInt : Int → δ
  sub : δ → δ → δ
  mul : δ → δ → δ
  div : δ → δ → δ
  eq : δ → δ → Bool
  le : δ → δ → Bool
  lt : δ → δ → Bool
  fixed1 : δ → Bytes
  toJson : δ → Json
  ascii_fixed1 : ∀ x, Ascii (fixed1 x)
  wellEncoded_toJson : ∀ x, (toJson x).wellEncoded = true

attribute [simp] Doubles.wellEncoded_toJson

/-- A sum of unsigned 64-bit numbers. -/
def addU64 (m n : Nat) : Nat := (m + n) % 2 ^ 64

/-- A difference of unsigned 64-bit numbers. -/
def subU64 (m n : Nat) : Nat := (m + 2 ^ 64 - n) % 2 ^ 64

/-- A product of unsigned 64-bit numbers. -/
def mulU64 (m n : Nat) : Nat := m * n % 2 ^ 64

end OrbisAgent.Lib.MachineNumbers
