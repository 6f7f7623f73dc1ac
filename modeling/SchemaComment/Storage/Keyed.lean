/-
  VALUES BY KEY.

  A list of pairs holds one value for each key, and the first pair of a key counts.  `putAt` changes
  the value of a key where it stands, so the keys keep their order.

  What can be looked up afterwards is all there is to know about it: the new value under its own key
  (`lookup_putAt_self`), and what was there before under any other (`lookup_putAt_of_ne`).  Two keys
  that are there already can be given their values in either order (`putAt_comm`).
-/

namespace SchemaComment

variable {κ ν : Type} [BEq κ] [LawfulBEq κ]

/-- The list with a value under a key, in place where the key is there. -/
def putAt (k : κ) (v : ν) : List (κ × ν) → List (κ × ν)
  | [] => [(k, v)]
  | (j, w) :: rest => if j == k then (j, v) :: rest else (j, w) :: putAt k v rest

theorem lookup_putAt_self (k : κ) (v : ν) (l : List (κ × ν)) : (putAt k v l).lookup k = some v := by
  induction l with
  | nil => simp [putAt]
  | cons x l ih =>
    obtain ⟨j, w⟩ := x
    by_cases h : j = k
    · simp [putAt, h]
    · simpa [putAt, h, List.lookup_cons, beq_eq_false_iff_ne.mpr (Ne.symm h)] using ih

theorem lookup_putAt_of_ne {k j : κ} (h : j ≠ k) (v : ν) (l : List (κ × ν)) :
    (putAt k v l).lookup j = l.lookup j := by
  induction l with
  | nil => simp [putAt, List.lookup_cons, beq_eq_false_iff_ne.mpr h]
  | cons x l ih =>
    obtain ⟨i, w⟩ := x
    by_cases hi : i = k
    · subst hi
      simp [putAt, List.lookup_cons, beq_eq_false_iff_ne.mpr h]
    · simp only [putAt, beq_eq_false_iff_ne.mpr hi, Bool.false_eq_true, if_false, List.lookup_cons]
      cases j == i <;> simp [ih]

/-- Values under two keys can be put in either order.  One of the keys has to be there, as a new one
    goes to the end. -/
theorem putAt_comm {k j : κ} (h : j ≠ k) (v w : ν) {l : List (κ × ν)} (hk : (l.lookup k).isSome) :
    putAt k v (putAt j w l) = putAt j w (putAt k v l) := by
  induction l with
  | nil => cases hk
  | cons x l ih =>
    obtain ⟨i, u⟩ := x
    by_cases hi : i = k
    · subst hi
      simp [putAt, beq_eq_false_iff_ne.mpr (Ne.symm h)]
    · by_cases hj : i = j
      · subst hj
        simp [putAt, beq_eq_false_iff_ne.mpr h]
      · rw [List.lookup_cons, beq_eq_false_iff_ne.mpr (Ne.symm hi)] at hk
        simp [putAt, beq_eq_false_iff_ne.mpr hi, beq_eq_false_iff_ne.mpr hj, ih hk]

end SchemaComment
