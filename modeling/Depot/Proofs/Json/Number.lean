import Depot.Json.Parser
import Depot.Json.Printer

/-!
# Numbers are read back

A number ends only where something else begins: what follows must not continue it (`EndsNumber`).
Then it does not matter what follows (`Stable`), so it is enough to know how a number is read that
stands alone. Every whole number is read back from its text (`number_writeInteger`).
-/

set_option autoImplicit false
set_option relaxedAutoImplicit false

namespace Depot.Json

open Depot.Text

/-! ## What may follow a number -/

/-- No character that could continue a number comes first. -/
def EndsNumber (rest : List Char) : Prop :=
  ∀ c tail, rest = c :: tail → c.isDigit = false ∧ c ≠ '.' ∧ c ≠ 'e' ∧ c ≠ 'E'

theorem endsNumber_nil : EndsNumber [] := by
  intro c tail h
  contradiction

theorem endsNumber_cons {c : Char} (hc : c.isDigit = false ∧ c ≠ '.' ∧ c ≠ 'e' ∧ c ≠ 'E')
    (tail : List Char) : EndsNumber (c :: tail) := by
  intro d tail' h
  injection h with h
  exact h ▸ hc

/-- What the reader takes does not change if something follows that cannot continue a number. -/
def Stable {α : Type} (read : Reader α) : Prop :=
  ∀ s a tail rest, EndsNumber rest → read s = some (a, tail) →
    read (s ++ rest) = some (a, tail ++ rest)

section

variable {α β : Type}

/-- Giving back what came, with characters in front of it or without. -/
theorem stable_some (a : α) (front : List Char) : Stable fun s ↦ some (a, front ++ s) := by
  intro s b tail rest _ h
  injection h with h
  injection h with ha htail
  rw [ha, ← htail, List.append_assoc]

theorem stable_none : Stable fun _ ↦ (none : Option (α × List Char)) := by
  intro s a tail rest _ h
  contradiction

theorem Stable.bind {read : Reader α} (hread : Stable read) (next : α → Reader β)
    (hnext : ∀ a, Stable (next a)) : Stable fun s ↦ (read s).bind fun p ↦ next p.1 p.2 := by
  intro s b tail rest hrest h
  obtain ⟨⟨a, middle⟩, hfirst, hsecond⟩ := Option.bind_eq_some_iff.1 h
  exact Option.bind_eq_some_iff.2
    ⟨_, hread _ _ _ _ hrest hfirst, hnext a _ _ _ _ hrest hsecond⟩

theorem Stable.map {read : Reader α} (hread : Stable read) (f : α → β) :
    Stable fun s ↦ (read s).map fun p ↦ (f p.1, p.2) := by
  intro s b tail rest hrest h
  obtain ⟨⟨a, middle⟩, hfirst, h⟩ := Option.map_eq_some_iff.1 h
  injection h with hb htail
  rw [← hb, ← htail]
  exact Option.map_eq_some_iff.2 ⟨_, hread _ _ _ _ hrest hfirst, rfl⟩

/-- A stable reader stays stable behind a character that comes first. -/
theorem Stable.cons {read : Reader α} (hread : Stable read) (c : Char) :
    Stable fun s ↦ read (c :: s) :=
  fun s a tail rest hrest h ↦ hread (c :: s) a tail rest hrest h

/-- A reader of one character more is stable if the reader behind each character is. -/
theorem Stable.of_cons {read : Reader α} (hcons : ∀ c, Stable fun s ↦ read (c :: s))
    (hnil : ∀ a tail rest, EndsNumber rest → read [] = some (a, tail) →
      read rest = some (a, tail ++ rest)) : Stable read := by
  intro s a tail rest hrest h
  cases s with
  | nil => exact hnil a tail rest hrest h
  | cons c s => exact hcons c s a tail rest hrest h

end

theorem digitRun_append (s : List Char) {rest : List Char} (hrest : EndsNumber rest) :
    digitRun (s ++ rest) = ((digitRun s).1, (digitRun s).2 ++ rest) := by
  induction s with
  | nil =>
    cases rest with
    | nil => rfl
    | cons c rest =>
      have hc := (hrest c rest rfl).1
      simp [digitRun, hc]
  | cons c s ih =>
    simp only [digitRun, Prod.mk.injEq] at ih ⊢
    by_cases hc : c.isDigit = true
    · simp [hc, ih]
    · simp [hc]

theorem stable_digits1? : Stable digits1? := by
  intro s digits tail rest hrest h
  unfold digits1? at h ⊢
  rw [digitRun_append s hrest]
  simp only at h ⊢
  split at h
  · contradiction
  · rename_i hdigits
    injection h with h
    injection h with hfirst hsecond
    rw [if_neg hdigits, hfirst, hsecond]

theorem stable_front? : Stable front? := by
  refine stable_digits1?.bind (fun digits s ↦
    if digits.head? = some '0' ∧ digits.length ≠ 1 then none else some (digits, s)) ?_
  intro digits
  by_cases hzero : digits.head? = some '0' ∧ digits.length ≠ 1
  · simp only [if_pos hzero]
    exact stable_none
  · simp only [if_neg hzero]
    exact stable_some digits []

theorem behindPoint?_of_ne {s : List Char} (hs : ∀ t, s ≠ '.' :: t) :
    behindPoint? s = some (none, s) := by
  unfold behindPoint?
  split
  · exact absurd rfl (hs _)
  · rfl

theorem stable_behindPoint? : Stable behindPoint? := by
  refine .of_cons (fun c ↦ ?_) fun a tail rest hrest h ↦ ?_
  · by_cases hc : c = '.'
    · subst hc
      exact stable_digits1?.map some
    · have hkeep (s : List Char) : behindPoint? (c :: s) = some (none, [c] ++ s) :=
        behindPoint?_of_ne fun t h ↦ hc (List.cons.inj h).1
      simp only [hkeep]
      exact stable_some none [c]
  · injection h with h
    injection h with ha htail
    rw [← ha, ← htail]
    exact behindPoint?_of_ne fun t ht ↦ (hrest _ _ ht).2.1 rfl

theorem power?_of_ne {s : List Char} (hs : ∀ t, s ≠ '-' :: t ∧ s ≠ '+' :: t) :
    power? s = (digits1? s).map fun p ↦ ((Nat.ofDigitChars 10 p.1 0 : Int), p.2) := by
  unfold power?
  split
  · exact absurd rfl (hs _).1
  · exact absurd rfl (hs _).2
  · rfl

theorem stable_power? : Stable power? := by
  refine .of_cons (fun c ↦ ?_) fun a tail rest _ h ↦ ?_
  · by_cases hminus : c = '-'
    · subst hminus
      exact stable_digits1?.map fun digits ↦ (-(Nat.ofDigitChars 10 digits 0 : Int))
    by_cases hplus : c = '+'
    · subst hplus
      exact stable_digits1?.map fun digits ↦ (Nat.ofDigitChars 10 digits 0 : Int)
    · have hdigits (s : List Char) := power?_of_ne (s := c :: s) fun t ↦
        ⟨fun h ↦ hminus (List.cons.inj h).1, fun h ↦ hplus (List.cons.inj h).1⟩
      simp only [hdigits]
      exact (stable_digits1?.map fun digits ↦ (Nat.ofDigitChars 10 digits 0 : Int)).cons c
  · contradiction

theorem exponentPart?_of_ne {s : List Char} (hs : ∀ t, s ≠ 'e' :: t ∧ s ≠ 'E' :: t) :
    exponentPart? s = some (none, s) := by
  unfold exponentPart?
  split
  · exact absurd rfl (hs _).1
  · exact absurd rfl (hs _).2
  · rfl

theorem stable_exponentPart? : Stable exponentPart? := by
  refine .of_cons (fun c ↦ ?_) fun a tail rest hrest h ↦ ?_
  · by_cases hlower : c = 'e'
    · subst hlower
      exact stable_power?.map some
    by_cases hupper : c = 'E'
    · subst hupper
      exact stable_power?.map some
    · have hkeep (s : List Char) : exponentPart? (c :: s) = some (none, [c] ++ s) :=
        exponentPart?_of_ne fun t ↦
          ⟨fun h ↦ hlower (List.cons.inj h).1, fun h ↦ hupper (List.cons.inj h).1⟩
      simp only [hkeep]
      exact stable_some none [c]
  · injection h with h
    injection h with ha htail
    rw [← ha, ← htail]
    exact exponentPart?_of_ne fun t ↦
      ⟨fun ht ↦ (hrest _ _ ht).2.2.1 rfl, fun ht ↦ (hrest _ _ ht).2.2.2 rfl⟩

theorem stable_unsigned? (negative : Bool) : Stable (unsigned? negative) :=
  stable_front?.bind _ fun front ↦ stable_behindPoint?.bind _ fun behind? ↦
    stable_exponentPart?.bind _ fun exponent? ↦
      stable_some (⟨negative, front, behind?, exponent?⟩ : Written) []

theorem written?_of_ne {s : List Char} (hs : ∀ t, s ≠ '-' :: t) :
    written? s = unsigned? false s := by
  unfold written?
  split
  · exact absurd rfl (hs _)
  · rfl

theorem stable_written? : Stable written? := by
  refine .of_cons (fun c ↦ ?_) fun a tail rest _ h ↦ ?_
  · by_cases hminus : c = '-'
    · subst hminus
      exact stable_unsigned? true
    · have hpositive (s : List Char) : written? (c :: s) = unsigned? false (c :: s) :=
        written?_of_ne fun t h ↦ hminus (List.cons.inj h).1
      simp only [hpositive]
      exact (stable_unsigned? false).cons c
  · contradiction

theorem stable_number : Stable number := by
  refine stable_written?.bind (fun w s ↦ w.value?.bind fun j ↦ some (j, s)) fun w ↦ ?_
  cases w.value? with
  | none => exact stable_none
  | some j => exact stable_some j []

/-! ## Whole numbers -/

theorem ofInt?_value (i : Integer) : Integer.ofInt? i.value = some i :=
  dif_pos ⟨i.lower, i.upper⟩

theorem digits1?_writeNumeral (n : Nat) :
    digits1? (writeNumeral n) = some (writeNumeral n, []) := by
  have hdigits : ∀ c ∈ writeNumeral n, c.isDigit = true := fun c hc ↦
    isDigit_of_mem_writeNumeral hc
  have htake : (writeNumeral n ++ []).takeWhile Char.isDigit = writeNumeral n ++ [] :=
    List.takeWhile_append_of_pos hdigits
  have hdrop : (writeNumeral n ++ []).dropWhile Char.isDigit = [] :=
    List.dropWhile_append_of_pos hdigits
  rw [List.append_nil] at htake hdrop
  simp only [digits1?, digitRun, htake, hdrop, writeNumeral_ne_nil n, if_false]

theorem front?_writeNumeral (n : Nat) : front? (writeNumeral n) = some (writeNumeral n, []) := by
  have hzero : ¬ ((writeNumeral n).head? = some '0' ∧ (writeNumeral n).length ≠ 1) := by
    rintro ⟨hhead, hlength⟩
    rcases Nat.eq_zero_or_pos n with rfl | hn
    · exact hlength rfl
    · exact head?_writeNumeral hn hhead
  simp only [front?, digits1?_writeNumeral, Option.bind_eq_bind, Option.bind_some, if_neg hzero]

theorem unsigned?_writeNumeral (negative : Bool) (n : Nat) :
    unsigned? negative (writeNumeral n) = some (⟨negative, writeNumeral n, none, none⟩, []) := by
  simp only [unsigned?, front?_writeNumeral, Option.bind_eq_bind, Option.bind_some, behindPoint?,
    exponentPart?]

theorem written?_writeNumeral (n : Nat) :
    written? (writeNumeral n) = some (⟨false, writeNumeral n, none, none⟩, []) := by
  have hminus (t : List Char) : writeNumeral n ≠ '-' :: t := by
    intro h
    have hdigit : ('-' : Char).isDigit = true :=
      isDigit_of_mem_writeNumeral (h ▸ List.mem_cons_self)
    exact absurd hdigit (by decide)
  rw [written?_of_ne hminus, unsigned?_writeNumeral]

theorem ofDigitChars_writeNumeral (n : Nat) : Nat.ofDigitChars 10 (writeNumeral n) 0 = n :=
  Nat.ofDigitChars_toDigits (by omega) (by omega)

theorem number_of_whole {s rest : List Char} {w : Written} {i : Integer}
    (hwritten : written? s = some (w, rest)) (hwhole : w.whole? = some i) :
    number s = some (.integer i, rest) := by
  simp only [number, hwritten, Written.value?, hwhole, Option.bind_eq_bind, Option.bind_some]

/-- A whole number is read back from its text. -/
theorem number_writeInteger (i : Integer) : number (writeInteger i) = some (.integer i, []) := by
  unfold writeInteger
  split
  · have hne : i.value.natAbs ≠ 0 := by omega
    have hvalue : (-(i.value.natAbs : Int)) = i.value := by omega
    refine number_of_whole (unsigned?_writeNumeral true _) ?_
    simp only [Written.whole?, ofDigitChars_writeNumeral, hvalue, ofInt?_value, if_neg hne,
      Option.isSome_none, Bool.or_self, Bool.false_eq_true, if_false, if_true]
  · have hvalue : (i.value.natAbs : Int) = i.value := by omega
    refine number_of_whole (written?_writeNumeral _) ?_
    simp only [Written.whole?, ofDigitChars_writeNumeral, hvalue, ofInt?_value,
      Option.isSome_none, Bool.or_self, Bool.false_eq_true, if_false]

end Depot.Json
