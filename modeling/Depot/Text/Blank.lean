/-!
Blank characters, and text cut down at both ends to what is not blank. A character is blank when
it has the property `White_Space`; core's class holds four of these twenty-five.
-/

set_option autoImplicit false
set_option relaxedAutoImplicit false

namespace Depot.Text

/-- The ranges of the property `White_Space`, by first and last code point. -/
def blankRanges : List (Nat × Nat) :=
  [(0x09, 0x0D), (0x20, 0x20), (0x85, 0x85), (0xA0, 0xA0), (0x1680, 0x1680), (0x2000, 0x200A),
    (0x2028, 0x2029), (0x202F, 0x202F), (0x205F, 0x205F), (0x3000, 0x3000)]

def isBlank (c : Char) : Bool :=
  blankRanges.any fun r ↦ r.1 ≤ c.toNat && c.toNat ≤ r.2

def trimLeft (s : List Char) : List Char := s.dropWhile isBlank

def trimRight (s : List Char) : List Char := (s.reverse.dropWhile isBlank).reverse

/-- Drops the blank characters at both ends; those inside stay. -/
def trim (s : List Char) : List Char := trimRight (trimLeft s)

/-- Of a text in blanks, all is kept from its first character that is not blank to its last one. -/
theorem trim_append {front s back : List Char} (hfront : ∀ c ∈ front, isBlank c = true)
    (hback : ∀ c ∈ back, isBlank c = true) (hs : s ≠ []) (hhead : isBlank (s.head hs) = false)
    (hlast : isBlank (s.getLast hs) = false) : trim (front ++ s ++ back) = s := by
  have hleft : trimLeft (front ++ s ++ back) = s ++ back := by
    rw [trimLeft, List.append_assoc, List.dropWhile_append_of_pos hfront]
    obtain ⟨c, r, rfl⟩ := List.exists_cons_of_ne_nil hs
    rw [List.cons_append, List.dropWhile_cons_of_neg (by simpa using hhead)]
  have hs' : s.reverse ≠ [] := by simpa using hs
  have hlast' : isBlank (s.reverse.head hs') = false := by rwa [List.head_reverse]
  have hright : (s ++ back).reverse.dropWhile isBlank = s.reverse := by
    rw [List.reverse_append,
      List.dropWhile_append_of_pos fun c hc ↦ hback c (List.mem_reverse.1 hc)]
    obtain ⟨c, r, hr⟩ := List.exists_cons_of_ne_nil hs'
    simp only [hr, List.head_cons] at hlast' ⊢
    rw [List.dropWhile_cons_of_neg (by simpa using hlast')]
  rw [trim, hleft, trimRight, hright, List.reverse_reverse]

theorem trim_ne_nil {c : Char} {s : List Char} (hc : isBlank c = false) : trim (c :: s) ≠ [] := by
  have hleft : trimLeft (c :: s) = c :: s := List.dropWhile_cons_of_neg (by simpa using hc)
  have hlast : [c].dropWhile isBlank = [c] := List.dropWhile_cons_of_neg (by simpa using hc)
  rw [trim, hleft, trimRight, List.reverse_cons, List.dropWhile_append, hlast]
  split <;> simp

end Depot.Text
