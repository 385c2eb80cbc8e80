/-!
Unsigned decimal numerals. `write` gives the digits of a number without leading zeros; `below?`
reads a numeral under a limit and accepts one plus sign and any leading zeros.
-/

set_option autoImplicit false
set_option relaxedAutoImplicit false

namespace Depot.Text

/-- The first number that 64 bits cannot hold. -/
def limit64 : Nat := UInt64.size

def writeNumeral (n : Nat) : List Char := Nat.toDigits 10 n

/-- A run of digits and nothing else; the empty run is no numeral. -/
def digits? (s : List Char) : Option Nat :=
  if s ≠ [] ∧ s.all Char.isDigit = true then some (Nat.ofDigitChars 10 s 0) else none

def dropPlus : List Char → List Char
  | '+' :: rest => rest
  | s => s

/-- The number that a numeral names, if it is under the limit. -/
def numeralBelow? (limit : Nat) (s : List Char) : Option Nat :=
  (digits? (dropPlus s)).filter (· < limit)

theorem writeNumeral_ne_nil (n : Nat) : writeNumeral n ≠ [] := Nat.toDigits_ne_nil

theorem isDigit_of_mem_writeNumeral {n : Nat} {c : Char} (hc : c ∈ writeNumeral n) :
    c.isDigit = true :=
  Nat.isDigit_of_mem_toDigits (by omega) (by omega) hc

/-- Only the numeral of zero begins with a zero. -/
theorem head?_writeNumeral {n : Nat} (hn : 0 < n) : (writeNumeral n).head? ≠ some '0' := by
  induction n using Nat.strongRecOn with
  | ind n ih =>
    by_cases hsmall : n < 10
    · have hdigit : ∀ d, d < 10 → 0 < d → some (Nat.digitChar d) ≠ some '0' := by decide
      rw [writeNumeral, Nat.toDigits_of_lt_base hsmall]
      exact hdigit n hsmall hn
    · have hfront := ih (n / 10) (by omega) (by omega)
      obtain ⟨c, front, hcons⟩ := List.exists_cons_of_ne_nil (writeNumeral_ne_nil (n / 10))
      have happend : writeNumeral n = writeNumeral (n / 10) ++ [Nat.digitChar (n % 10)] :=
        Nat.toDigits_of_base_le (by omega) (by omega)
      rw [hcons] at hfront happend
      rw [happend]
      exact hfront

theorem digits?_writeNumeral (n : Nat) : digits? (writeNumeral n) = some n := by
  have hd : (writeNumeral n).all Char.isDigit = true :=
    List.all_eq_true.2 fun c hc ↦ isDigit_of_mem_writeNumeral hc
  simp only [digits?, writeNumeral_ne_nil n, hd, ne_eq, not_false_eq_true, and_self, if_true]
  exact congrArg some (Nat.ofDigitChars_toDigits (by omega) (by omega))

theorem dropPlus_writeNumeral (n : Nat) : dropPlus (writeNumeral n) = writeNumeral n := by
  unfold dropPlus
  split
  · rename_i rest h
    have hp : ('+' : Char).isDigit = true :=
      isDigit_of_mem_writeNumeral (h ▸ List.mem_cons_self)
    exact absurd hp (by decide)
  · rfl

theorem numeralBelow?_writeNumeral {limit n : Nat} (h : n < limit) :
    numeralBelow? limit (writeNumeral n) = some n := by
  simp [numeralBelow?, dropPlus_writeNumeral, digits?_writeNumeral, h]

end Depot.Text
