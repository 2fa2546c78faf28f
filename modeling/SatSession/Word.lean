/-
Literals as they lie in a clause store: 32-bit words in two's complement,
the least significant byte first.

Main statement: a word read back is the number written, for every number
that fits (`ofBytes_toBytes`).
-/

namespace SatSession.Word

/-- The bytes of a word. -/
def width : Nat := 4

/-- The number of different words, `2 ^ 32`. -/
def modulus : Int := 0x100000000

/-- The largest magnitude that a literal may have, `2 ^ 31 - 1`. -/
def literalMax : Int := 0x7fffffff

/-- The bytes of a number, which count it modulo `2 ^ 32`. -/
def toBytes (n : Int) : List UInt8 :=
  let u := (n % modulus).toNat
  [UInt8.ofNat u, UInt8.ofNat (u / 0x100), UInt8.ofNat (u / 0x10000),
    UInt8.ofNat (u / 0x1000000)]

/-- The number that four bytes stand for. -/
def ofBytes (b₀ b₁ b₂ b₃ : UInt8) : Int :=
  let u : Nat := b₀.toNat + 0x100 * b₁.toNat + 0x10000 * b₂.toNat
    + 0x1000000 * b₃.toNat
  if (u : Int) ≤ literalMax then u else (u : Int) - modulus

/-- A number that fits into a word is read back as written. -/
theorem ofBytes_toBytes {n : Int} (low : -literalMax ≤ n)
    (high : n ≤ literalMax) :
    ∃ b₀ b₁ b₂ b₃, toBytes n = [b₀, b₁, b₂, b₃] ∧ ofBytes b₀ b₁ b₂ b₃ = n := by
  refine ⟨_, _, _, _, rfl, ?_⟩
  simp only [literalMax] at low high
  simp only [ofBytes, modulus, literalMax, UInt8.toNat_ofNat']
  split <;> omega

end SatSession.Word
