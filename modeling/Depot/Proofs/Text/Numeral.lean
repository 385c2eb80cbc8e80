import Depot.Text.Blank
import Depot.Text.Numeral
import Depot.Text.Utf8

/-!
# Numerals among blanks

What a reader of numerals accepts, told without the reader: `Names` is the grammar of a numeral, one
plus sign and any leading zeros allowed (`numeralBelow?_eq_some_iff`). Blanks around it make no
difference, since a numeral neither begins nor ends with one (`trim_around`), and whatever is left
when blanks are dropped stood among blanks (`exists_trim`). What is written is the decimal digits of
the number, a byte for each (`encodeChars_writeNumeral`).
-/

set_option autoImplicit false
set_option relaxedAutoImplicit false

namespace Depot.Text

variable {s digits : List Char} {n limit : Nat}

/-- The text is a numeral of the number: digits, of which the first may be zeros, with or without a
plus sign before them. -/
def Names (s : List Char) (n : Nat) : Prop :=
  ∃ digits, (s = digits ∨ s = '+' :: digits) ∧ digits ≠ [] ∧
    (∀ c ∈ digits, c.isDigit = true) ∧ Nat.ofDigitChars 10 digits 0 = n

theorem toNat_of_isDigit {c : Char} (hc : c.isDigit = true) : 48 ≤ c.toNat ∧ c.toNat ≤ 57 := by
  simp only [Char.isDigit, Bool.and_eq_true, decide_eq_true_eq] at hc
  exact ⟨hc.1, hc.2⟩

theorem isBlank_of_isDigit {c : Char} (hc : c.isDigit = true) : isBlank c = false := by
  have hranges : ∀ r ∈ blankRanges, r.2 < 48 ∨ 57 < r.1 := by decide
  have hdigit := toNat_of_isDigit hc
  refine List.any_eq_false.2 fun r hr ↦ ?_
  have hr := hranges r hr
  simp only [Bool.and_eq_true, decide_eq_true_eq]
  omega

theorem digits?_eq_some_iff :
    digits? s = some n ↔ s ≠ [] ∧ (∀ c ∈ s, c.isDigit = true) ∧ Nat.ofDigitChars 10 s 0 = n := by
  unfold digits?
  split
  · rename_i h
    rw [Option.some.injEq, ← and_assoc]
    exact (and_iff_right ⟨h.1, List.all_eq_true.1 h.2⟩).symm
  · rename_i h
    exact iff_of_false nofun fun hs ↦ h ⟨hs.1, List.all_eq_true.2 hs.2.1⟩

theorem dropPlus_of_isDigit (hdigits : ∀ c ∈ digits, c.isDigit = true) :
    dropPlus digits = digits := by
  unfold dropPlus
  split
  · have hplus := hdigits '+' List.mem_cons_self
    exact absurd hplus (by decide)
  · rfl

/-- The reader accepts the numerals of the numbers under its limit. -/
theorem numeralBelow?_eq_some_iff : numeralBelow? limit s = some n ↔ Names s n ∧ n < limit := by
  rw [numeralBelow?, Option.filter_eq_some_iff, digits?_eq_some_iff, decide_eq_true_eq]
  refine and_congr_left fun _ ↦ ⟨?_, ?_⟩
  · rintro ⟨hne, hdigits, hvalue⟩
    refine ⟨dropPlus s, ?_, hne, hdigits, hvalue⟩
    unfold dropPlus
    split
    · exact Or.inr rfl
    · exact Or.inl rfl
  · rintro ⟨digits, rfl | rfl, hne, hdigits, hvalue⟩
    · rw [dropPlus_of_isDigit hdigits]
      exact ⟨hne, hdigits, hvalue⟩
    · exact ⟨hne, hdigits, hvalue⟩

theorem names_writeNumeral (n : Nat) : Names (writeNumeral n) n :=
  (numeralBelow?_eq_some_iff.1 (numeralBelow?_writeNumeral (Nat.lt_succ_self n))).1

/-- The decimal digits of a number without leading zeros, each as the byte of its character. -/
def digitBytes (n : Nat) : Bytes := (Nat.toDigits 10 n).map fun c ↦ .ofNat c.toNat

/-- The bytes of a numeral are those of its digits. -/
theorem encodeChars_writeNumeral (n : Nat) : encodeChars (writeNumeral n) = digitBytes n := by
  have hbyte : ∀ c ∈ Nat.toDigits 10 n, encodeChar c = [.ofNat c.toNat] := fun c hc ↦ by
    have hdigit := toNat_of_isDigit (isDigit_of_mem_writeNumeral hc)
    exact if_pos (by omega)
  rw [encodeChars, writeNumeral, digitBytes, List.map_eq_flatMap, List.flatMap_def,
    List.flatMap_def, List.map_congr_left hbyte]

/-! ## Blanks -/

/-- Blanks around a numeral are dropped, and nothing else is. -/
theorem trim_around {front back : List Char} (hs : Names s n)
    (hfront : ∀ c ∈ front, isBlank c = true) (hback : ∀ c ∈ back, isBlank c = true) :
    trim (front ++ s ++ back) = s := by
  obtain ⟨digits, hsign, hne, hdigits, -⟩ := hs
  have hdigit : ∀ c ∈ digits, isBlank c = false := fun c hc ↦ isBlank_of_isDigit (hdigits c hc)
  rcases hsign with rfl | rfl
  · exact trim_append hfront hback hne (hdigit _ (List.head_mem hne))
      (hdigit _ (List.getLast_mem hne))
  · refine trim_append hfront hback (List.cons_ne_nil _ _) rfl ?_
    rw [List.getLast_cons hne]
    exact hdigit _ (List.getLast_mem hne)

/-- What is left of a text without the blanks at its ends stood between blanks. -/
theorem exists_trim (s : List Char) : ∃ front back, (∀ c ∈ front, isBlank c = true) ∧
    (∀ c ∈ back, isBlank c = true) ∧ s = front ++ trim s ++ back := by
  have hblank : ∀ {t : List Char}, ∀ c ∈ t.takeWhile isBlank, isBlank c = true :=
    fun c hc ↦ List.all_eq_true.1 List.all_takeWhile c hc
  refine ⟨s.takeWhile isBlank, ((trimLeft s).reverse.takeWhile isBlank).reverse, hblank,
    fun c hc ↦ hblank c (List.mem_reverse.1 hc), ?_⟩
  have hright : trim s ++ ((trimLeft s).reverse.takeWhile isBlank).reverse = trimLeft s := by
    rw [trim, trimRight, ← List.reverse_append, List.takeWhile_append_dropWhile,
      List.reverse_reverse]
  rw [List.append_assoc, hright, trimLeft, List.takeWhile_append_dropWhile]

theorem trim_writeNumeral (n : Nat) : trim (' ' :: writeNumeral n) = writeNumeral n := by
  have htrim : trim ([' '] ++ writeNumeral n ++ []) = writeNumeral n :=
    trim_around (names_writeNumeral n) (List.all_eq_true.1 rfl) nofun
  rwa [List.append_nil] at htrim

end Depot.Text
