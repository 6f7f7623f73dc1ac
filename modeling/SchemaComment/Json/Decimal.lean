/-
  DECIMALS.

  A number of a JSON text is spelled in decimal digits, with a fraction and an exponent if need be.

  1. **Program** — `Decimal.ofDigits` gathers the digits into a significand of 64 bits and an
     exponent of ten.  `Decimal.toDouble?` makes it a double in two roundings: the significand
     becomes a double, and that is multiplied or divided by the double of a power of ten.  A number
     that is too large for a double has none.
  2. **Specification** — `absorb_append` and `absorb_lt`: the digits are either in the significand
     or left over, and the significand stays within 64 bits.
  3. **The crux** — the first digit that does not fit ends the significand.  What is left before the
     point still counts for the exponent, and what is left behind it counts for nothing.
-/
import SchemaComment.Text.Basic
import SchemaComment.Json.Double

namespace SchemaComment.Json

/-! ## Digits -/

/-- The value of a decimal digit. -/
def digitValue (d : Char) : Nat := d.toNat - 48

/-- The number of a run of decimal digits. -/
def natOfDigits (ds : Text) : Nat := ds.foldl (fun n d => 10 * n + digitValue d) 0

/-- What a significand stays below. -/
def limit : Nat := Nat.pow 2 64

/-- Puts digits behind a significand as long as it stays within 64 bits: the new significand, and
    the digits from the first on that does not fit. -/
def absorb (s : Nat) : Text → Nat × Text
  | [] => (s, [])
  | d :: ds =>
    if 10 * s + digitValue d < limit then absorb (10 * s + digitValue d) ds else (s, d :: ds)

/-- The significand stays within 64 bits. -/
theorem absorb_lt {s : Nat} (h : s < limit) (ds : Text) : (absorb s ds).1 < limit := by
  induction ds generalizing s with
  | nil => exact h
  | cons d ds ih =>
    unfold absorb
    split
    · exact ih (by assumption)
    · exact h

/-- The digits are in the significand or left over. -/
theorem absorb_append (s : Nat) (ds : Text) :
    ∃ taken, ds = taken ++ (absorb s ds).2 ∧
      (absorb s ds).1 = taken.foldl (fun n d => 10 * n + digitValue d) s := by
  induction ds generalizing s with
  | nil => exact ⟨[], rfl, rfl⟩
  | cons d ds ih =>
    unfold absorb
    split
    · obtain ⟨taken, hds, hs⟩ := ih (10 * s + digitValue d)
      exact ⟨d :: taken, by rw [List.cons_append, ← hds], hs⟩
    · exact ⟨[], rfl, rfl⟩

/-! ## Decimals -/

/-- A decimal without its sign: `significand * 10 ^ exponent`. -/
structure Decimal where
  significand : Nat
  exponent : Int
deriving DecidableEq, Repr

namespace Decimal

/-- The decimal of the digits before the point, those behind it, and the exponent written. -/
def ofDigits (whole fraction : Text) (exponent : Int) : Decimal :=
  let (s, dropped) := absorb 0 whole
  let (s, ignored) := absorb s fraction
  ⟨s, exponent + dropped.length + ignored.length - fraction.length⟩

/-! ## The double of a decimal -/

/-- The exponent of the greatest power of ten that is a double. -/
def greatestPower : Nat := 308

/-- The double of a power of ten. -/
def powerOfTen? (n : Nat) : Option Double :=
  if n ≤ greatestPower then Double.ofRatio? (Nat.pow 10 n) 1 else none

/-- A double times a power of ten. -/
def scaleUp? (x : Double) (n : Nat) : Option Double :=
  if x.significand = 0 then some x else (powerOfTen? n).bind x.mul?

/-- A double divided by a power of ten. -/
def divide? (x : Double) (n : Nat) : Option Double := (powerOfTen? n).bind x.div?

/-- A double divided by any power of ten, in steps of the greatest one. -/
def scaleDown? (x : Double) (n : Nat) : Option Double :=
  if x.significand = 0 then some x
  else if _h : n ≤ greatestPower then divide? x n
  else (divide? x greatestPower).bind fun y => scaleDown? y (n - greatestPower)
termination_by n
decreasing_by
  have : 0 < greatestPower := by decide
  omega

/-- The double of a decimal.  A decimal that is too large has none. -/
def toDouble? (d : Decimal) : Option Double :=
  (Double.ofRatio? d.significand 1).bind fun x =>
    if 0 ≤ d.exponent then scaleUp? x d.exponent.toNat else scaleDown? x (-d.exponent).toNat

/-! ## The spelling of a decimal -/

/-- The digits in full, with a point and at least one digit on either side of it. -/
def positional (d : Decimal) : Text :=
  let places := (-d.exponent).toNat
  let digits := Nat.toDigits 10 d.significand ++ List.replicate d.exponent.toNat '0'
  let digits := List.replicate (places + 1 - digits.length) '0' ++ digits
  let point := digits.length - places
  digits.take point ++ '.' :: if places = 0 then ['0'] else digits.drop point

/-- The exponent of the first digit. -/
def magnitude (d : Decimal) : Int := d.exponent + (Nat.toDigits 10 d.significand).length - 1

/-- The digits with a point behind the first, if there are others, and the exponent of the first
    with its sign. -/
def scientific (d : Decimal) : Text :=
  let digits := Nat.toDigits 10 d.significand
  let fraction := if digits.length = 1 then [] else '.' :: digits.drop 1
  let sign := if d.magnitude < 0 then '-' else '+'
  digits.take 1 ++ fraction ++ 'e' :: sign :: Nat.toDigits 10 d.magnitude.natAbs

/-- The spelling of a decimal: in full with up to 16 digits before the point or up to four zeros
    behind it, with an exponent beyond that. -/
def text (d : Decimal) : Text :=
  if -5 ≤ d.magnitude ∧ d.magnitude ≤ 15 then d.positional else d.scientific

end Decimal
end SchemaComment.Json
