/-
  TABLES OF CHARACTERS.

  A property of characters that a standard lists code point by code point is kept as the ascending
  list of its ranges, both ends included.  Membership walks the list and stops at the first range
  that begins above the character, so a common character is decided after a few comparisons.
-/
import SchemaComment.Text.Basic

namespace SchemaComment

/-- Ranges of code points, both ends included, in ascending order. -/
abbrev CharTable := List (Nat × Nat)

namespace CharTable

/-- Whether the code point `n` lies in one of the ranges. -/
def covers : CharTable → Nat → Bool
  | [], _ => false
  | (lo, hi) :: rest, n => if n < lo then false else n ≤ hi || covers rest n

/-- Membership of a character. -/
def has (table : CharTable) (c : Char) : Bool := table.covers c.toNat

/-- A code point that a table covers lies in one of its ranges. -/
theorem exists_of_covers {table : CharTable} {n : Nat} (h : table.covers n = true) :
    ∃ r ∈ table, r.1 ≤ n ∧ n ≤ r.2 := by
  induction table with
  | nil => simp [covers] at h
  | cons r rest ih =>
    obtain ⟨lo, hi⟩ := r
    by_cases hlo : n < lo
    · simp [covers, hlo] at h
    · simp only [covers, hlo, if_false, Bool.or_eq_true, decide_eq_true_eq] at h
      rcases h with h | h
      · exact ⟨(lo, hi), by simp, by omega, h⟩
      · obtain ⟨r, hr, hn⟩ := ih h
        exact ⟨r, by simp [hr], hn⟩

end CharTable
end SchemaComment
