/-
  DOUBLES AS EXACT NUMBERS.

  A number that is not whole within 64 bits is kept in double precision: 53 significant bits, and no
  bit below 2 ^ (-1074).  Here such a number is the exact `significand * 2 ^ exponent`, so that
  rounding is arithmetic on naturals.  The sign is kept elsewhere.

  1. **Program** — `divRound` is a quotient rounded to the nearest natural, a half to the even
     neighbour.  `Double.ofRatio?` finds the scale on which a ratio has 53 bits and rounds it there;
     products and quotients of doubles are ratios, so they are rounded once.
  2. **Specification** — `divRound_le` and `le_divRound`: the result is at most half a unit away.
     `significand_lt_of_ofScale?` bounds the significand.
  3. **The crux** — rounding may carry into a 54th bit.  The result is then a power of two, which
     has its 53 bits on the next scale, and that scale may be the one too many.
-/

namespace SchemaComment.Json

/-! ## Rounding a quotient -/

/-- The quotient rounded to the nearest natural.  A half goes to the even neighbour. -/
def divRound (n d : Nat) : Nat :=
  if 2 * (n % d) < d ∨ (2 * (n % d) = d ∧ n / d % 2 = 0) then n / d else n / d + 1

/-- Rounding adds half a unit at most. -/
theorem divRound_le {n d : Nat} (h : 0 < d) : 2 * (d * divRound n d) ≤ 2 * n + d := by
  have hn := Nat.div_add_mod n d
  have hr := Nat.mod_lt n h
  unfold divRound
  split
  · omega
  · rw [Nat.mul_add]
    omega

/-- Rounding takes away half a unit at most. -/
theorem le_divRound {n d : Nat} (h : 0 < d) : 2 * n ≤ 2 * (d * divRound n d) + d := by
  have hn := Nat.div_add_mod n d
  have hr := Nat.mod_lt n h
  unfold divRound
  split
  · omega
  · rw [Nat.mul_add]
    omega

/-! ## Doubles -/

/-- A finite number of double precision, without its sign: `significand * 2 ^ exponent`. -/
structure Double where
  significand : Nat
  exponent : Int
deriving DecidableEq, Repr

namespace Double

/-- The number of significant bits. -/
def bits : Nat := 53

/-- The exponent of the finest scale. -/
def least : Int := -1074

/-- The exponent of the coarsest scale. -/
def greatest : Int := 971

/-- Zero, on the finest scale. -/
def zero : Double := ⟨0, least⟩

/-- The exponent of the greatest power of two that is not above `n / d`. -/
def log2Ratio (n d : Nat) : Int :=
  let e : Int := n.log2 - d.log2
  if d * Nat.pow 2 e.toNat ≤ n * Nat.pow 2 (-e).toNat then e else e - 1

/-- The double of a rounded significand.  One of 54 bits is a power of two and goes to the next
    scale; beyond the coarsest scale there is none. -/
def ofScale? (m : Nat) (e : Int) : Option Double :=
  if m < Nat.pow 2 bits then if e ≤ greatest then some ⟨m, e⟩ else none
  else if e + 1 ≤ greatest then some ⟨Nat.pow 2 (bits - 1), e + 1⟩
  else none

/-- A double has no more than its 53 bits. -/
theorem significand_lt_of_ofScale? {m : Nat} {e : Int} {x : Double} (h : ofScale? m e = some x) :
    x.significand < Nat.pow 2 bits := by
  unfold ofScale? at h
  split at h
  · split at h
    · cases h
      assumption
    · cases h
  · split at h
    · cases h
      show Nat.pow 2 (bits - 1) < Nat.pow 2 bits
      decide
    · cases h

/-- The double nearest to `n / d`, a half going to the even neighbour. -/
def ofRatio? (n d : Nat) : Option Double :=
  if n = 0 then some zero
  else
    let e := max (log2Ratio n d + 1 - bits) least
    ofScale? (divRound (n * Nat.pow 2 (-e).toNat) (d * Nat.pow 2 e.toNat)) e

/-- The numerator of a double. -/
def num (x : Double) : Nat := x.significand * Nat.pow 2 x.exponent.toNat

/-- The denominator of a double. -/
def den (x : Double) : Nat := Nat.pow 2 (-x.exponent).toNat

/-- The product, rounded. -/
def mul? (x y : Double) : Option Double := ofRatio? (x.num * y.num) (x.den * y.den)

/-- The quotient, rounded. -/
def div? (x y : Double) : Option Double := ofRatio? (x.num * y.den) (x.den * y.num)

end Double
end SchemaComment.Json
