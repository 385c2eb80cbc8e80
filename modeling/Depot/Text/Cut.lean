/-!
Cutting text: what follows a given beginning, the two sides of the first separator, and the pieces
between all of them.
-/

set_option autoImplicit false
set_option relaxedAutoImplicit false

namespace Depot.Text

/-- What follows the given characters, if the text begins with them. -/
def behind? : List Char → List Char → Option (List Char)
  | [], s => some s
  | c :: cs, d :: s => if c = d then behind? cs s else none
  | _ :: _, [] => none

theorem behind?_append (front s : List Char) : behind? front (front ++ s) = some s := by
  induction front with
  | nil => cases s <;> rfl
  | cons c cs ih => simp [behind?, ih]

/-- The two sides of the first separator. -/
def cutAt? (separator : Char) : List Char → Option (List Char × List Char)
  | [] => none
  | c :: s =>
    if c = separator then some ([], s)
    else (cutAt? separator s).map fun p ↦ (c :: p.1, p.2)

theorem cutAt?_append {separator : Char} {front : List Char} (hfront : separator ∉ front)
    (s : List Char) : cutAt? separator (front ++ separator :: s) = some (front, s) := by
  induction front with
  | nil => exact if_pos rfl
  | cons c front ih =>
    have hc : c ≠ separator := fun h ↦ hfront (h ▸ List.mem_cons_self)
    have hrest := ih fun h ↦ hfront (List.mem_cons_of_mem _ h)
    simp only [List.cons_append, cutAt?, hc, if_false, hrest, Option.map_some]

theorem cutAt?_eq_none {separator : Char} {s : List Char} (hs : separator ∉ s) :
    cutAt? separator s = none := by
  induction s with
  | nil => rfl
  | cons c s ih =>
    have hc : c ≠ separator := fun h ↦ hs (h ▸ List.mem_cons_self)
    have hrest := ih fun h ↦ hs (List.mem_cons_of_mem _ h)
    simp only [cutAt?, hc, if_false, hrest, Option.map_none]

/-- The pieces between separators, empty ones included; there is always at least one. -/
def pieces (separator : Char) : List Char → List (List Char)
  | [] => [[]]
  | c :: s =>
    if c = separator then [] :: pieces separator s
    else
      match pieces separator s with
      | [] => [[c]]
      | p :: ps => (c :: p) :: ps

theorem pieces_ne_nil (separator : Char) (s : List Char) : pieces separator s ≠ [] := by
  cases s with
  | nil => simp [pieces]
  | cons c s =>
    unfold pieces
    split
    · simp
    · split <;> simp

theorem pieces_eq_splitOn (separator : Char) (s : List Char) :
    pieces separator s = s.splitOn separator := by
  induction s with
  | nil => rfl
  | cons c s ih =>
    rw [List.splitOn_cons_eq_if_modifyHead, ← ih]
    by_cases hc : c = separator
    · simp only [pieces, hc, if_true, beq_self_eq_true]
    · have hne : (c == separator) = false := beq_false_of_ne hc
      simp only [pieces, hc, if_false, hne, Bool.false_eq_true]
      cases hp : pieces separator s with
      | nil => exact absurd hp (pieces_ne_nil separator s)
      | cons p ps => rfl

theorem not_mem_of_mem_pieces {separator : Char} {s p : List Char}
    (h : p ∈ pieces separator s) : separator ∉ p := by
  induction s generalizing p with
  | nil =>
    rw [List.mem_singleton.1 h]
    exact List.not_mem_nil
  | cons c s ih =>
    unfold pieces at h
    split at h
    · rcases List.mem_cons.1 h with rfl | h
      · exact List.not_mem_nil
      · exact ih h
    · rename_i hc
      split at h
      · rename_i hnil
        exact absurd hnil (pieces_ne_nil separator s)
      · rename_i q qs hcons
        rw [hcons] at ih
        rcases List.mem_cons.1 h with rfl | h
        · exact List.not_mem_cons_of_ne_of_not_mem (Ne.symm hc) (ih List.mem_cons_self)
        · exact ih (List.mem_cons_of_mem _ h)

end Depot.Text
