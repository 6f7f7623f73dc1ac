/-
  THE SHORTEST DECIMAL OF A DOUBLE.

  A message tells a double by the decimal with the fewest digits that rounds to it.  Of several
  decimals with so few digits it is the nearest one, and the even one of two that are equally near.

  1. **Program** — `Double.onGrid?` looks at the two multiples of `10 ^ k` around a double;
     `Double.shortest` goes through the grids from the coarsest to the finest and takes the first
     multiple that rounds to the double.
  2. **Specification** — `covers_of_onGrid?`: what a grid answers does round to the double.
  3. **The crux** — the numbers that round to a double end half way to its neighbours, and below a
     power of two the neighbour is only half as far.  In quarters of the double's scale all of this
     is natural, and a grid is a ratio to these quarters.
-/
import SchemaComment.Json.Decimal

namespace SchemaComment.Json
namespace Double

/-! ## The numbers that round to a double -/

/-- The lower end of the numbers that round to `x`, in quarters of its scale. -/
def lower (x : Double) : Nat :=
  4 * x.significand - if x.significand = Nat.pow 2 (bits - 1) ∧ least < x.exponent then 1 else 2

/-- The upper end of the numbers that round to `x`, in quarters of its scale. -/
def upper (x : Double) : Nat := 4 * x.significand + 2

/-- A quarter of the scale of `x` over `10 ^ k`: numerator and denominator. -/
def quarter (x : Double) (k : Int) : Nat × Nat :=
  (Nat.pow 2 (x.exponent - 2).toNat * Nat.pow 10 (-k).toNat,
    Nat.pow 2 (2 - x.exponent).toNat * Nat.pow 10 k.toNat)

/-- Whether `j * 10 ^ k` rounds to `x`.  The ends do so where `x` is even. -/
def covers (x : Double) (k : Int) (j : Nat) : Bool :=
  let (p, q) := x.quarter k
  if x.significand % 2 = 0 then x.lower * p ≤ j * q && j * q ≤ x.upper * p
  else x.lower * p < j * q && j * q < x.upper * p

/-! ## Grids -/

/-- The factor of the multiple of `10 ^ k` next to `x`: the nearest one if it rounds to `x`, else the
    one on the other side. -/
def factor (x : Double) (k : Int) : Nat :=
  let (p, q) := x.quarter k
  let n := 4 * x.significand * p
  if x.covers k (divRound n q) then divRound n q
  else if x.covers k (n / q) then n / q
  else n / q + 1

/-- The multiple of `10 ^ k` next to `x` that rounds to `x`. -/
def onGrid? (x : Double) (k : Int) : Option Decimal :=
  if x.covers k (x.factor k) then some ⟨x.factor k, k⟩ else none

/-- What a grid answers rounds to the double. -/
theorem covers_of_onGrid? {x : Double} {k : Int} {d : Decimal} (h : x.onGrid? k = some d) :
    x.covers d.exponent d.significand = true := by
  unfold onGrid? at h
  split at h
  · cases h
    assumption
  · cases h

/-- The grids from the coarsest to the finest that can be needed: `10 ^ 309` is beyond all doubles,
    and `10 ^ (-324)` is less than half of the finest scale. -/
def grids : List Int := (List.range 634).map fun (i : Nat) => 309 - (i : Int)

/-- The shortest decimal that rounds to `x`. -/
def shortest (x : Double) : Decimal :=
  if x.significand = 0 then ⟨0, 0⟩ else (grids.findSome? x.onGrid?).getD ⟨0, 0⟩

/-- The spelling of `x`. -/
def text (x : Double) : Text := x.shortest.text

end Double
end SchemaComment.Json
