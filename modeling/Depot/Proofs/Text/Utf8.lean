import Depot.Proofs.Chaining
import Depot.Text.Utf8

/-!
# Reading back what was encoded

Each character is read back from its own bytes, whatever follows them (`decodeChar_encodeChar`), so
a text is (`decodeChars_encodeChars`). The first byte of a character of three or four bytes tells a
range for the second one; that the second byte lies in it is where overlong forms and surrogates
matter (`lead?_triple`, `lead?_quadruple`). The other way round, what was read as a text are the
bytes of this text and of no other (`decode?_eq_some_iff`).
-/

set_option autoImplicit false
set_option relaxedAutoImplicit false

namespace Depot.Text

variable {n : Nat}

theorem toNat_ofNat_of_lt (h : n < 0x100) : (UInt8.ofNat n).toNat = n :=
  UInt8.toNat_ofNat_of_lt' h

theorem lead?_triple (hlow : 0x800 ≤ n) (hhigh : n < 0x10000)
    (hvalid : n < 0xD800 ∨ 0xDFFF < n) :
    ∃ low high, lead? (0xE0 + n / 0x1000) = some (.triple low high) ∧
      low ≤ 0x80 + n / 0x40 % 0x40 ∧ 0x80 + n / 0x40 % 0x40 ≤ high := by
  unfold lead?
  rw [if_neg (by omega), if_neg (by omega), if_neg (by omega)]
  by_cases hfirst : 0xE0 + n / 0x1000 = 0xE0
  · exact ⟨0xA0, 0xBF, if_pos hfirst, by omega, by omega⟩
  · rw [if_neg hfirst]
    by_cases hsurrogate : 0xE0 + n / 0x1000 = 0xED
    · exact ⟨0x80, 0x9F, if_pos hsurrogate, by omega, by omega⟩
    · rw [if_neg hsurrogate, if_pos (by omega)]
      exact ⟨0x80, 0xBF, rfl, by omega, by omega⟩

theorem lead?_quadruple (hlow : 0x10000 ≤ n) (hhigh : n < 0x110000) :
    ∃ low high, lead? (0xF0 + n / 0x40000) = some (.quadruple low high) ∧
      low ≤ 0x80 + n / 0x1000 % 0x40 ∧ 0x80 + n / 0x1000 % 0x40 ≤ high := by
  unfold lead?
  rw [if_neg (by omega), if_neg (by omega), if_neg (by omega), if_neg (by omega),
    if_neg (by omega), if_neg (by omega)]
  by_cases hfirst : 0xF0 + n / 0x40000 = 0xF0
  · exact ⟨0x90, 0xBF, if_pos hfirst, by omega, by omega⟩
  · rw [if_neg hfirst]
    by_cases hlast : 0xF0 + n / 0x40000 < 0xF4
    · exact ⟨0x80, 0xBF, if_pos hlast, by omega, by omega⟩
    · rw [if_neg hlast, if_pos (by omega)]
      exact ⟨0x80, 0x8F, rfl, by omega, by omega⟩

theorem isTail_ofNat (h : n < 0x40) : isTail (.ofNat (0x80 + n)) = true := by
  simp only [isTail, toNat_ofNat_of_lt (show 0x80 + n < 0x100 by omega), Bool.and_eq_true,
    decide_eq_true_eq]
  omega

theorem tailValue_ofNat (h : n < 0x40) : tailValue (.ofNat (0x80 + n)) = n := by
  unfold tailValue
  rw [toNat_ofNat_of_lt (by omega), Nat.add_sub_cancel_left]

theorem valid_toNat (c : Char) : c.toNat < 0xD800 ∨ 0xDFFF < c.toNat ∧ c.toNat < 0x110000 := by
  rcases c.valid with hlow | ⟨habove, hbelow⟩
  · exact .inl hlow
  · exact .inr ⟨habove, hbelow⟩

/-- A character is read back from the front of any bytes. -/
theorem decodeChar_encodeChar (c : Char) (rest : Bytes) :
    decodeChar (encodeChar c ++ rest) = .ok (c, rest) := by
  have hvalid : c.toNat < 0xD800 ∨ 0xDFFF < c.toNat ∧ c.toNat < 0x110000 := valid_toNat c
  have hback : ∀ m, m = c.toNat → (Char.ofNat m, rest) = (c, rest) := by
    rintro m rfl
    rw [Char.ofNat_toNat]
  unfold encodeChar
  by_cases hone : c.toNat < 0x80
  · have hlead : lead? c.toNat = some .single := if_pos hone
    simp only [hone, if_true, List.singleton_append, decodeChar,
      toNat_ofNat_of_lt (show c.toNat < 0x100 by omega), hlead]
    rw [hback _ rfl]
  by_cases htwo : c.toNat < 0x800
  · have hlead : lead? (0xC0 + c.toNat / 0x40) = some .double := by
      unfold lead?
      rw [if_neg (by omega), if_neg (by omega), if_pos (by omega)]
    simp only [hone, htwo, if_true, if_false, List.cons_append, List.nil_append, decodeChar,
      toNat_ofNat_of_lt (show 0xC0 + c.toNat / 0x40 < 0x100 by omega), hlead,
      isTail_ofNat (show c.toNat % 0x40 < 0x40 by omega),
      tailValue_ofNat (show c.toNat % 0x40 < 0x40 by omega)]
    rw [hback _ (by omega)]
  by_cases hthree : c.toNat < 0x10000
  · obtain ⟨low, high, hlead, hlow, hhigh⟩ := lead?_triple (by omega) hthree (by omega)
    simp only [hone, htwo, hthree, if_true, if_false, List.cons_append, List.nil_append,
      decodeChar, toNat_ofNat_of_lt (show 0xE0 + c.toNat / 0x1000 < 0x100 by omega), hlead,
      toNat_ofNat_of_lt (show 0x80 + c.toNat / 0x40 % 0x40 < 0x100 by omega), hlow, hhigh, and_self,
      isTail_ofNat (show c.toNat % 0x40 < 0x40 by omega),
      tailValue_ofNat (show c.toNat / 0x40 % 0x40 < 0x40 by omega),
      tailValue_ofNat (show c.toNat % 0x40 < 0x40 by omega)]
    rw [hback _ (by omega)]
  · obtain ⟨low, high, hlead, hlow, hhigh⟩ := lead?_quadruple (n := c.toNat) (by omega) (by omega)
    simp only [hone, htwo, hthree, if_true, if_false, List.cons_append, List.nil_append,
      decodeChar, toNat_ofNat_of_lt (show 0xF0 + c.toNat / 0x40000 < 0x100 by omega), hlead,
      toNat_ofNat_of_lt (show 0x80 + c.toNat / 0x1000 % 0x40 < 0x100 by omega), hlow, hhigh,
      and_self, isTail_ofNat (show c.toNat / 0x40 % 0x40 < 0x40 by omega),
      isTail_ofNat (show c.toNat % 0x40 < 0x40 by omega),
      tailValue_ofNat (show c.toNat / 0x1000 % 0x40 < 0x40 by omega),
      tailValue_ofNat (show c.toNat / 0x40 % 0x40 < 0x40 by omega),
      tailValue_ofNat (show c.toNat % 0x40 < 0x40 by omega)]
    rw [hback _ (by omega)]

/-- A byte below `0x80` stands for itself only: no other character has it among its bytes. -/
theorem toNat_eq_of_mem_encodeChar {b : UInt8} {c : Char} (hb : b.toNat < 0x80)
    (hmem : b ∈ encodeChar c) : b.toNat = c.toNat := by
  have hvalid := valid_toNat c
  unfold encodeChar at hmem
  dsimp only at hmem
  split at hmem
  · rw [List.mem_singleton.1 hmem, toNat_ofNat_of_lt (by omega)]
  -- every byte of a longer form is at least `0x80`
  split at hmem
  · simp only [List.mem_cons, List.not_mem_nil, or_false] at hmem
    rcases hmem with rfl | rfl <;> rw [toNat_ofNat_of_lt (by omega)] at hb <;> omega
  split at hmem
  · simp only [List.mem_cons, List.not_mem_nil, or_false] at hmem
    rcases hmem with rfl | rfl | rfl <;> rw [toNat_ofNat_of_lt (by omega)] at hb <;> omega
  · simp only [List.mem_cons, List.not_mem_nil, or_false] at hmem
    rcases hmem with rfl | rfl | rfl | rfl <;> rw [toNat_ofNat_of_lt (by omega)] at hb <;> omega

theorem encodeChar_ne_nil (c : Char) : encodeChar c ≠ [] := by
  unfold encodeChar
  dsimp only
  split
  · simp
  · split
    · simp
    · split <;> simp

theorem encodeChars_cons (c : Char) (s : List Char) :
    encodeChars (c :: s) = encodeChar c ++ encodeChars s := rfl

theorem encodeChars_append (s t : List Char) :
    encodeChars (s ++ t) = encodeChars s ++ encodeChars t := List.flatMap_append

/-- With fuel for one byte at least, the first character is read from its own bytes. -/
theorem decodeFrom_encodeChar_append (fuel position : Nat) (c : Char) (rest : Bytes) :
    decodeFrom (fuel + 1) position (encodeChar c ++ rest) =
      (decodeFrom fuel (position + c.utf8Size) rest).map (c :: ·) := by
  have hchar := decodeChar_encodeChar c rest
  cases hbytes : encodeChar c ++ rest with
  | nil => exact absurd (List.append_eq_nil_iff.1 hbytes).1 (encodeChar_ne_nil c)
  | cons b bytes =>
    rw [hbytes] at hchar
    simp only [decodeFrom, hchar]

/-- With fuel for every byte, a text is read back wherever its bytes begin. -/
theorem decodeFrom_encodeChars {fuel : Nat} (s : List Char) (position : Nat)
    (hfuel : (encodeChars s).length ≤ fuel) : decodeFrom fuel position (encodeChars s) = .ok s := by
  induction s generalizing fuel position with
  | nil =>
    cases fuel <;> rfl
  | cons c s ih =>
    have hlength : 0 < (encodeChar c).length := List.length_pos_iff.2 (encodeChar_ne_nil c)
    rw [encodeChars_cons, List.length_append] at hfuel
    obtain ⟨fuel, rfl⟩ := Nat.exists_eq_succ_of_ne_zero (show fuel ≠ 0 by omega)
    rw [encodeChars_cons, decodeFrom_encodeChar_append,
      ih _ (show (encodeChars s).length ≤ fuel by omega)]
    rfl

/-- A text is read back from its bytes. -/
theorem decodeChars_encodeChars (s : List Char) : decodeChars (encodeChars s) = .ok s :=
  decodeFrom_encodeChars s 0 (Nat.le_refl _)

/-- Whatever text bytes hold, it begins with the character whose bytes come first. -/
theorem exists_eq_cons_of_decodeChars {c : Char} {rest : Bytes} {s : List Char}
    (h : decodeChars (encodeChar c ++ rest) = .ok s) : ∃ r, s = c :: r := by
  have hlength : 0 < (encodeChar c ++ rest).length := by
    rw [List.length_append]
    exact Nat.add_pos_left (List.length_pos_iff.2 (encodeChar_ne_nil c)) _
  obtain ⟨fuel, hfuel⟩ := Nat.exists_eq_succ_of_ne_zero (Nat.ne_of_gt hlength)
  rw [decodeChars, hfuel, decodeFrom_encodeChar_append] at h
  cases hrest : decodeFrom fuel (0 + c.utf8Size) rest with
  | error fault =>
    rw [hrest] at h
    contradiction
  | ok r =>
    rw [hrest] at h
    injection h with h
    exact ⟨r, h.symm⟩

/-! ## Encoding what was read -/

theorem toNat_ofNat_of_valid (h : n < 0xD800 ∨ 0xDFFF < n ∧ n < 0x110000) :
    (Char.ofNat n).toNat = n := by
  have hvalid : n.isValidChar := h
  rw [Char.ofNat, dif_pos hvalid]
  rfl

theorem lead?_single (h : lead? n = some .single) : n < 0x80 := by
  unfold lead? at h
  repeat' split at h
  all_goals first | assumption | contradiction

theorem lead?_double (h : lead? n = some .double) : 0xC2 ≤ n ∧ n < 0xE0 := by
  unfold lead? at h
  repeat' split at h
  all_goals first | contradiction | omega

theorem lead?_of_triple {low high : Nat} (h : lead? n = some (.triple low high)) :
    0xE0 ≤ n ∧ n < 0xF0 ∧ 0x80 ≤ low ∧ high ≤ 0xBF ∧ (n = 0xE0 → 0xA0 ≤ low) ∧
      (n = 0xED → high ≤ 0x9F) := by
  unfold lead? at h
  repeat' split at h
  all_goals cases h <;> omega

theorem lead?_of_quadruple {low high : Nat} (h : lead? n = some (.quadruple low high)) :
    0xF0 ≤ n ∧ n ≤ 0xF4 ∧ 0x80 ≤ low ∧ high ≤ 0xBF ∧ (n = 0xF0 → 0x90 ≤ low) ∧
      (n = 0xF4 → high ≤ 0x8F) := by
  unfold lead? at h
  repeat' split at h
  all_goals cases h <;> omega

theorem le_of_isTail {b : UInt8} (h : isTail b = true) : 0x80 ≤ b.toNat ∧ b.toNat ≤ 0xBF := by
  simpa only [isTail, Bool.and_eq_true, decide_eq_true_eq] using h

theorem ofNat_eq_of_toNat {b : UInt8} (h : n = b.toNat) : UInt8.ofNat n = b := by
  rw [h, UInt8.ofNat_toNat]

theorem tailValue_eq (b : UInt8) : tailValue b = b.toNat - 0x80 := rfl

theorem encodeChar_single {b : UInt8} (hb : b.toNat < 0x80) :
    encodeChar (Char.ofNat b.toNat) = [b] := by
  have hn := toNat_ofNat_of_valid (n := b.toNat) (.inl (by omega))
  simp only [encodeChar, hn, hb, if_true, UInt8.ofNat_toNat]

theorem encodeChar_double {b c : UInt8} (hn : n = (b.toNat - 0xC0) * 0x40 + tailValue c)
    (hb : 0xC2 ≤ b.toNat ∧ b.toNat < 0xE0) (hc : isTail c = true) :
    encodeChar (Char.ofNat n) = [b, c] := by
  have hc := le_of_isTail hc
  rw [tailValue_eq] at hn
  have htoNat := toNat_ofNat_of_valid (n := n) (.inl (by omega))
  have hfirst : UInt8.ofNat (0xC0 + n / 0x40) = b := ofNat_eq_of_toNat (by omega)
  have hsecond : UInt8.ofNat (0x80 + n % 0x40) = c := ofNat_eq_of_toNat (by omega)
  rw [encodeChar, htoNat, if_neg (by omega), if_pos (by omega), hfirst, hsecond]

theorem encodeChar_triple {b c d : UInt8} {low high : Nat}
    (hn : n = (b.toNat - 0xE0) * 0x1000 + tailValue c * 0x40 + tailValue d)
    (hb : lead? b.toNat = some (.triple low high)) (hc : low ≤ c.toNat ∧ c.toNat ≤ high)
    (hd : isTail d = true) : encodeChar (Char.ofNat n) = [b, c, d] := by
  have hb := lead?_of_triple hb
  have hd := le_of_isTail hd
  simp only [tailValue_eq] at hn
  have htoNat := toNat_ofNat_of_valid (n := n) (by omega)
  have hfirst : UInt8.ofNat (0xE0 + n / 0x1000) = b := ofNat_eq_of_toNat (by omega)
  have hsecond : UInt8.ofNat (0x80 + n / 0x40 % 0x40) = c := ofNat_eq_of_toNat (by omega)
  have hthird : UInt8.ofNat (0x80 + n % 0x40) = d := ofNat_eq_of_toNat (by omega)
  rw [encodeChar, htoNat, if_neg (by omega), if_neg (by omega), if_pos (by omega), hfirst,
    hsecond, hthird]

theorem encodeChar_quadruple {b c d e : UInt8} {low high : Nat}
    (hn : n = (b.toNat - 0xF0) * 0x40000 + tailValue c * 0x1000 + tailValue d * 0x40 +
      tailValue e)
    (hb : lead? b.toNat = some (.quadruple low high)) (hc : low ≤ c.toNat ∧ c.toNat ≤ high)
    (hd : isTail d = true) (he : isTail e = true) :
    encodeChar (Char.ofNat n) = [b, c, d, e] := by
  have hb := lead?_of_quadruple hb
  have hd := le_of_isTail hd
  have he := le_of_isTail he
  simp only [tailValue_eq] at hn
  have htoNat := toNat_ofNat_of_valid (n := n) (by omega)
  have hfirst : UInt8.ofNat (0xF0 + n / 0x40000) = b := ofNat_eq_of_toNat (by omega)
  have hsecond : UInt8.ofNat (0x80 + n / 0x1000 % 0x40) = c := ofNat_eq_of_toNat (by omega)
  have hthird : UInt8.ofNat (0x80 + n / 0x40 % 0x40) = d := ofNat_eq_of_toNat (by omega)
  have hfourth : UInt8.ofNat (0x80 + n % 0x40) = e := ofNat_eq_of_toNat (by omega)
  rw [encodeChar, htoNat, if_neg (by omega), if_neg (by omega), if_neg (by omega), hfirst,
    hsecond, hthird, hfourth]

/-- A character that is read stands for the bytes that it was read from. -/
theorem encodeChar_of_decodeChar {s rest : Bytes} {c : Char} (h : decodeChar s = .ok (c, rest)) :
    encodeChar c ++ rest = s := by
  unfold decodeChar at h
  repeat' split at h
  all_goals first
    | contradiction
    | obtain ⟨rfl, rfl⟩ := Prod.mk.inj (Except.ok.inj h)
  · rename_i hlead
    rw [encodeChar_single (lead?_single hlead)]
    rfl
  · rename_i hlead _ _ _ hc
    rw [encodeChar_double rfl (lead?_double hlead) hc]
    rfl
  · rename_i hlead _ _ hc _ _ _ hd
    rw [encodeChar_triple rfl hlead hc hd]
    rfl
  · rename_i hlead _ _ hc _ _ hd _ _ _ he
    rw [encodeChar_quadruple rfl hlead hc hd he]
    rfl

theorem encodeChars_of_decodeFrom {fuel position : Nat} {s : Bytes} {t : List Char}
    (h : decodeFrom fuel position s = .ok t) : encodeChars t = s := by
  induction fuel generalizing position s t with
  | zero =>
    cases s with
    | nil =>
      injection h with h
      rw [← h]
      rfl
    | cons b s => contradiction
  | succ fuel ih =>
    cases s with
    | nil =>
      injection h with h
      rw [← h]
      rfl
    | cons b s =>
      rw [decodeFrom] at h
      split at h
      · contradiction
      · rename_i c rest hchar
        cases hrest : decodeFrom fuel (position + c.utf8Size) rest with
        | error fault =>
          rw [hrest] at h
          contradiction
        | ok r =>
          rw [hrest] at h
          injection h with h
          rw [← h, encodeChars_cons, ih hrest, encodeChar_of_decodeChar hchar]
      · simp

theorem decodeChars_eq_ok_iff {s : Bytes} {text : List Char} :
    decodeChars s = .ok text ↔ s = encodeChars text := by
  constructor
  · intro h
    exact (encodeChars_of_decodeFrom h).symm
  · rintro rfl
    exact decodeChars_encodeChars text

/-- Bytes are read as a text exactly when they are the bytes of this text. -/
theorem decode?_eq_some_iff {s : Bytes} {t : String} : decode? s = some t ↔ encode t = s := by
  constructor
  · intro h
    obtain ⟨chars, hchars, rfl⟩ := Option.map_eq_some_iff.1 h
    rw [encode, String.toList_ofList]
    exact (decodeChars_eq_ok_iff.1 (toOption_eq_some_iff.1 hchars)).symm
  · rintro rfl
    rw [decode?, encode, decodeChars_encodeChars]
    exact congrArg some String.ofList_toList
end Depot.Text
