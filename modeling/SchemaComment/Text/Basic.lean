/-
  TEXT AS A LIST OF CHARACTERS.

  Everything the library decides about a file it decides from the file's characters, so a text is
  the plain list of them and its algebra is the algebra of lists.

  1. **Size** — `size t` counts the bytes of the UTF-8 form.  Places in a file are reported in
     these units, and `size_append` makes the place after a piece the sum of the pieces before it.
  2. **Beginnings** — `after? lead t` cuts a fixed piece off the front of `t`, and
     `eq_append_of_after?` puts it back.
  3. **Occurrence** — `occursIn needle t` looks for a fixed piece anywhere in `t`; `occursIn_iff`
     says that this is the infix order on lists.
-/

namespace SchemaComment

/-- A beginning that was split off goes back in front. -/
theorem eq_append_of_isPrefixOf? {α : Type} [BEq α] [LawfulBEq α] {ks ls rest : List α}
    (h : ks.isPrefixOf? ls = some rest) : ls = ks ++ rest := by
  induction ks generalizing ls with
  | nil => exact Option.some.inj h
  | cons k ks ih =>
    cases ls with
    | nil => cases h
    | cons l ls =>
      change (if k == l then ks.isPrefixOf? ls else none) = some rest at h
      split at h
      · rename_i hkl
        rw [ih h, eq_of_beq hkl, List.cons_append]
      · simp at h

/-- A text is the list of its characters. -/
abbrev Text := List Char

namespace Text

/-! ## Size in bytes -/

/-- The number of bytes of the UTF-8 form of `t`. -/
def size : Text → Nat
  | [] => 0
  | c :: t => c.utf8Size + size t

@[simp] theorem size_nil : size [] = 0 := rfl

/-- The size of a text put together is the sum of the sizes. -/
@[simp] theorem size_append (s t : Text) : size (s ++ t) = size s + size t := by
  induction s with
  | nil => simp [size]
  | cons c s ih => simp [size, ih, Nat.add_assoc]

/-! ## Beginnings -/

/-- What follows `lead` in the text, if the text begins with it. -/
def after? (lead : String) (t : Text) : Option Text := lead.toList.isPrefixOf? t

/-- What was cut off the front goes back in front. -/
theorem eq_append_of_after? {lead : String} {t rest : Text} (h : after? lead t = some rest) :
    t = lead.toList ++ rest := eq_append_of_isPrefixOf? h

/-! ## Occurrence of a fixed piece -/

/-- `occursIn needle t` holds when `needle` stands somewhere in `t`. -/
def occursIn (needle : Text) : Text → Bool
  | [] => needle.isEmpty
  | c :: t => needle.isPrefixOf (c :: t) || occursIn needle t

/-- Occurrence is the infix order. -/
theorem occursIn_iff (needle t : Text) : occursIn needle t = true ↔ needle <:+: t := by
  induction t with
  | nil => simp [occursIn]
  | cons c t ih => simp [occursIn, ih, List.infix_cons_iff]

end Text
end SchemaComment
