import Depot.SipHash

/-!
Random identifiers in their usual text: thirty-two hexadecimal digits in five groups, with the mark
of version four.
-/

set_option autoImplicit false
set_option relaxedAutoImplicit false

namespace Depot.Uuid

/-- The last digits of a number in base sixteen. -/
def hex (width n : Nat) : String :=
  String.ofList ((List.range width).reverse.map fun i ↦ Nat.digitChar (n >>> (4 * i) % 16))

/-- The text of two random words, with version and variant put in. -/
def text (high low : UInt64) : String :=
  let h := high.toNat
  let l := low.toNat
  String.intercalate "-" [hex 8 (h >>> 32), hex 4 (h >>> 16), hex 4 (0x4000 + h % 0x1000),
    hex 4 (0x8000 + l >>> 48 % 0x4000), hex 12 l]

@[simp] theorem length_hex (width n : Nat) : (hex width n).length = width := by simp [hex]

@[simp] theorem length_text (high low : UInt64) : (text high low).length = 36 := by
  rw [← String.length_toList, text, String.toList_intercalate]
  simp [List.intercalate, String.length_toList]

/-- The text of some identifier. -/
def IsText (t : String) : Prop := ∃ high low, t = text high low

theorem IsText.length_eq {t : String} (h : IsText t) : t.length = 36 := by
  obtain ⟨high, low, rfl⟩ := h
  exact length_text high low

/-- The bytes of a word, the first lowest. -/
def bytes (n : UInt64) : List UInt8 := (List.range 8).map fun i ↦ (n >>> (8 * .ofNat i)).toUInt8

/-- The n-th of the words that follow from a stem. -/
def word (stem : UInt64) (n : Nat) : UInt64 := SipHash.hash (bytes stem ++ bytes (.ofNat n))

/-- The n-th identifier that follows from a stem. -/
def nth (stem : UInt64) (n : Nat) : String := text (word stem (2 * n)) (word stem (2 * n + 1))

end Depot.Uuid
