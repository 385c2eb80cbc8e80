import Depot.Proofs.Json.Number
import Depot.Proofs.Json.Shape
import Depot.Proofs.Text.Utf8

/-!
# What was printed is read back

The printed text of a value, in front of anything that could not continue a number, is read as that
value, and what follows is left (`value_write`). The value must be one that the reader can give
(`Depot.Proofs.Json.Shape`), and its doubles must be read back from their own texts (`Exact`):
reading rounds more than once, so the last place of a double with more than fifteen digits may
differ. Words, texts and whole numbers are always read back.

Every printed character of a text is read back by itself (`quotedBody_escape`), every item and every
member from its place in the list (`items_writeItems`, `memberList_writeMembers`); the fuel of these
loops is the length of the text, and each round takes a character at least.
-/

set_option autoImplicit false
set_option relaxedAutoImplicit false

namespace Depot.Json

open Depot.Text

/-! ## Texts -/

theorem hexValue?_hexDigit (n : Nat) : hexValue? (hexDigit n) = some (n % 16) := by
  have hdigits : ∀ d, d < 16 → hexValue? (Nat.digitChar d) = some d := by decide
  exact hdigits (n % 16) (Nat.mod_lt n (by decide))

theorem escapedUnit?_control {n : Nat} (hn : n < 0x20) (rest : List Char) :
    escapedUnit? ('0' :: '0' :: hexDigit (n / 16) :: hexDigit n :: rest) =
      some (Char.ofNat n, rest) := by
  have hzero : hexValue? '0' = some 0 := by decide
  have hunit : unit? ('0' :: '0' :: hexDigit (n / 16) :: hexDigit n :: rest) = some (n, rest) := by
    have hvalue : ((0 * 16 + 0) * 16 + n / 16 % 16) * 16 + n % 16 = n := by omega
    simp only [unit?, hzero, hexValue?_hexDigit, Option.bind_eq_bind, Option.bind_some, hvalue]
  have htrailing : isTrailing n = false := by
    simp only [isTrailing, Bool.and_eq_false_iff, decide_eq_false_iff_not]
    omega
  have hleading : isLeading n = false := by
    simp only [isLeading, Bool.and_eq_false_iff, decide_eq_false_iff_not]
    omega
  simp only [escapedUnit?, hunit, Option.bind_eq_bind, Option.bind_some, htrailing, hleading,
    Bool.false_eq_true, if_false]

theorem quotedBody_backslash {unit : Reader Char} {e rest : List Char} {c : Char}
    (he : escapeWith unit e = some (c, rest)) (fuel : Nat) :
    quotedBody unit (fuel + 1) ('\\' :: e) =
      (quotedBody unit fuel rest).map fun p ↦ (c :: p.1, p.2) := by
  have hquote : '\\' ≠ '"' := by decide
  simp only [quotedBody, if_neg hquote, if_true, he, Option.bind_eq_bind, Option.bind_some]
  cases quotedBody unit fuel rest <;> rfl

theorem quotedBody_plain {unit : Reader Char} {c : Char} (hquote : c ≠ '"') (hslash : c ≠ '\\')
    (hcontrol : ¬ c.toNat < 0x20) (fuel : Nat) (rest : List Char) :
    quotedBody unit (fuel + 1) (c :: rest) =
      (quotedBody unit fuel rest).map fun p ↦ (c :: p.1, p.2) := by
  simp only [quotedBody, if_neg hquote, if_neg hslash, if_neg hcontrol, Option.bind_eq_bind]
  cases quotedBody unit fuel rest <;> rfl

theorem eq_of_toNat {c d : Char} (h : c.toNat = d.toNat) : c = d := by
  rw [← Char.ofNat_toNat c, h, Char.ofNat_toNat]

/-- A character is read back as it was written, plain or behind a backslash. -/
theorem quotedBody_escape (c : Char) (fuel : Nat) (rest : List Char) :
    quotedBody escapedUnit? (fuel + 1) (escape c ++ rest) =
      (quotedBody escapedUnit? fuel rest).map fun p ↦ (c :: p.1, p.2) := by
  unfold escape
  split
  · rename_i hc
    rw [hc]
    exact quotedBody_backslash rfl fuel
  rename_i hquote
  split
  · rename_i hc
    rw [hc]
    exact quotedBody_backslash rfl fuel
  rename_i hslash
  split
  · rename_i hc
    rw [show c = '\x08' from eq_of_toNat hc]
    exact quotedBody_backslash rfl fuel
  split
  · rename_i hc
    rw [show c = '\x0c' from eq_of_toNat hc]
    exact quotedBody_backslash rfl fuel
  split
  · rename_i hc
    rw [hc]
    exact quotedBody_backslash rfl fuel
  split
  · rename_i hc
    rw [hc]
    exact quotedBody_backslash rfl fuel
  split
  · rename_i hc
    rw [hc]
    exact quotedBody_backslash rfl fuel
  split
  · rename_i hcontrol
    have hread := escapedUnit?_control hcontrol rest
    rw [Char.ofNat_toNat] at hread
    have hescape : escapeWith escapedUnit? ('u' :: '0' :: '0' :: hexDigit (c.toNat / 16) ::
        hexDigit c.toNat :: rest) = some (c, rest) := hread
    exact quotedBody_backslash hescape fuel
  · rename_i hcontrol
    exact quotedBody_plain hquote hslash hcontrol fuel rest

theorem escape_ne_nil (c : Char) : escape c ≠ [] := by
  unfold escape
  repeat' split
  all_goals exact List.cons_ne_nil _ _

theorem length_le_flatMap_escape (s : List Char) : s.length ≤ (s.flatMap escape).length := by
  induction s with
  | nil => exact Nat.le_refl _
  | cons c s ih =>
    have hpos : 0 < (escape c).length := List.length_pos_iff.2 (escape_ne_nil c)
    rw [List.flatMap_cons, List.length_append, List.length_cons]
    omega

theorem quotedBody_flatMap_escape (s rest : List Char) {fuel : Nat} (hfuel : s.length < fuel) :
    quotedBody escapedUnit? fuel (s.flatMap escape ++ '"' :: rest) = some (s, rest) := by
  induction s generalizing fuel with
  | nil =>
    obtain ⟨fuel, rfl⟩ := Nat.exists_eq_succ_of_ne_zero (Nat.ne_of_gt hfuel)
    rfl
  | cons c s ih =>
    rw [List.length_cons] at hfuel
    obtain ⟨fuel, rfl⟩ := Nat.exists_eq_succ_of_ne_zero (show fuel ≠ 0 by omega)
    rw [List.flatMap_cons, List.append_assoc, quotedBody_escape, ih (by omega)]
    rfl

/-- A text is read back from its quoted form. -/
theorem quoted_writeText (s : String) (rest : List Char) :
    quoted (writeText s ++ rest) = some (s, rest) := by
  have hshape : writeText s ++ rest = '"' :: (s.toList.flatMap escape ++ '"' :: rest) := by
    rw [writeText, List.cons_append, List.append_assoc]
    rfl
  have hfuel : s.toList.length < (s.toList.flatMap escape ++ '"' :: rest).length := by
    have hlength := length_le_flatMap_escape s.toList
    rw [List.length_append, List.length_cons]
    omega
  rw [hshape, quoted, quotedWith, quotedBody_flatMap_escape s.toList rest hfuel, Option.map_some,
    String.ofList_toList]

/-! ## Values that are no containers -/

/-- The double is read back from its text. -/
def ReadsBack : Json → Prop
  | .real r => number (writeReal r) = some (.real r, [])
  | _ => True

/-- So is every double in the value. -/
def Exact (j : Json) : Prop := Throughout ReadsBack j

theorem exact_array_iff {items : List Json} : Exact (.array items) ↔ ∀ j ∈ items, Exact j :=
  throughout_array_iff.trans ⟨And.right, fun h ↦ ⟨trivial, h⟩⟩

theorem exact_object_iff {members : Members Json} :
    Exact (.object members) ↔ ∀ p ∈ members, Exact p.2 :=
  throughout_object_iff.trans ⟨And.right, fun h ↦ ⟨trivial, h⟩⟩

theorem exact_of_isScalar {j : Json} (hj : j.IsScalar) (hback : j.ReadsBack) : j.Exact :=
  (throughout_iff_of_isScalar hj).2 hback

theorem exists_cons_of_number {s rest : List Char} {j : Json} (h : number s = some (j, rest)) :
    ∃ c t, s = c :: t ∧ (c = '-' ∨ c.isDigit = true) := by
  cases s with
  | nil => contradiction
  | cons c t =>
    refine ⟨c, t, rfl, ?_⟩
    by_cases hminus : c = '-'
    · exact .inl hminus
    obtain ⟨⟨w, tail⟩, hwritten, -⟩ := Option.bind_eq_some_iff.1 h
    rw [written?_of_ne fun t' h ↦ hminus (List.cons.inj h).1] at hwritten
    obtain ⟨⟨front, tail'⟩, hfront, -⟩ := Option.bind_eq_some_iff.1 hwritten
    obtain ⟨⟨run, tail''⟩, hrun, -⟩ := Option.bind_eq_some_iff.1 hfront
    cases hdigit : c.isDigit with
    | true => exact .inr rfl
    | false => simp [digits1?, digitRun, hdigit] at hrun

theorem value_eq_scalar {c : Char} (hbracket : c ≠ '[') (hbrace : c ≠ '\x7b') (n : Nat)
    (t : List Char) : value n (c :: t) = scalar (c :: t) := by
  unfold value Grammar.value
  split
  · rename_i hcons
    exact absurd (List.cons.inj hcons).1 hbracket
  · rename_i hcons
    exact absurd (List.cons.inj hcons).1 hbrace
  · rfl
  · rename_i hcons
    exact absurd (List.cons.inj hcons).1 hbracket
  · rename_i hcons
    exact absurd (List.cons.inj hcons).1 hbrace
  · rfl

theorem scalar_eq_number {c : Char} (hn : c ≠ 'n') (ht : c ≠ 't') (hf : c ≠ 'f')
    (hquote : c ≠ '"') (t : List Char) : scalar (c :: t) = number (c :: t) := by
  unfold scalar scalarWith
  split
  · rename_i hcons
    exact absurd (List.cons.inj hcons).1 hn
  · rename_i hcons
    exact absurd (List.cons.inj hcons).1 ht
  · rename_i hcons
    exact absurd (List.cons.inj hcons).1 hf
  · rename_i hcons
    exact absurd (List.cons.inj hcons).1 hquote
  · rfl

/-- A number that is read back alone is read back as a value, whatever ends it. -/
theorem value_of_number {s rest : List Char} {j : Json} (h : number s = some (j, []))
    (hrest : EndsNumber rest) (n : Nat) : value n (s ++ rest) = some (j, rest) := by
  obtain ⟨c, t, rfl, hc⟩ := exists_cons_of_number h
  have hne {d : Char} (hd : ¬ (d = '-' ∨ d.isDigit = true)) : c ≠ d := fun hcd ↦ hd (hcd ▸ hc)
  rw [List.cons_append, value_eq_scalar (hne (by decide)) (hne (by decide)),
    scalar_eq_number (hne (by decide)) (hne (by decide)) (hne (by decide)) (hne (by decide))]
  exact stable_number _ _ _ _ hrest h

theorem value_write_of_isScalar {j : Json} (hj : j.IsScalar) (hexact : j.Exact)
    {rest : List Char} (hrest : EndsNumber rest) (n : Nat) :
    value n (j.write ++ rest) = some (j, rest) := by
  cases j with
  | null =>
    rw [write, List.cons_append, value_eq_scalar (by decide) (by decide)]
    rfl
  | bool b =>
    cases b with
    | false =>
      rw [write, List.cons_append, value_eq_scalar (by decide) (by decide)]
      rfl
    | true =>
      rw [write, List.cons_append, value_eq_scalar (by decide) (by decide)]
      rfl
  | integer i =>
    rw [write]
    exact value_of_number (number_writeInteger i) hrest n
  | real r =>
    rw [write]
    exact value_of_number (hexact _ (.self _)) hrest n
  | text s =>
    have hquoted := quoted_writeText s rest
    rw [writeText, List.cons_append] at hquoted
    rw [write, writeText, List.cons_append, value_eq_scalar (by decide) (by decide)]
    exact Option.map_eq_some_iff.2 ⟨_, hquoted, rfl⟩
  | array items => exact hj.elim
  | object members => exact hj.elim

/-! ## Containers -/

theorem skipGap_cons {c : Char} (hc : isGap c = false) (s : List Char) :
    skipGap (c :: s) = c :: s :=
  List.dropWhile_cons_of_neg (by simpa using hc)

theorem isGap_of_number_cons {c : Char} (hc : c = '-' ∨ c.isDigit = true) :
    isGap c = false ∧ c ≠ ']' := by
  have hne {d : Char} (hd : ¬ (d = '-' ∨ d.isDigit = true)) : c ≠ d := fun hcd ↦ hd (hcd ▸ hc)
  refine ⟨?_, hne (by decide)⟩
  simp only [isGap, hne (show ¬ (' ' = '-' ∨ ' '.isDigit = true) by decide),
    hne (show ¬ ('\n' = '-' ∨ '\n'.isDigit = true) by decide),
    hne (show ¬ ('\t' = '-' ∨ '\t'.isDigit = true) by decide),
    hne (show ¬ ('\r' = '-' ∨ '\r'.isDigit = true) by decide), decide_false, Bool.or_self]

/-- No value is written with a blank first, and none with a closing bracket. -/
theorem exists_cons_of_write {j : Json} (hexact : j.Exact) :
    ∃ c t, j.write = c :: t ∧ isGap c = false ∧ c ≠ ']' := by
  cases j with
  | null => exact ⟨_, _, rfl, by decide, by decide⟩
  | bool b => cases b <;> exact ⟨_, _, rfl, by decide, by decide⟩
  | integer i =>
    obtain ⟨c, t, hcons, hc⟩ := exists_cons_of_number (number_writeInteger i)
    exact ⟨c, t, hcons, isGap_of_number_cons hc⟩
  | real r =>
    obtain ⟨c, t, hcons, hc⟩ := exists_cons_of_number (hexact _ (.self _))
    exact ⟨c, t, hcons, isGap_of_number_cons hc⟩
  | text s => exact ⟨_, _, rfl, by decide, by decide⟩
  | array items => exact ⟨_, _, rfl, by decide, by decide⟩
  | object members => exact ⟨_, _, rfl, by decide, by decide⟩

theorem skipGap_write {j : Json} (hexact : j.Exact) (rest : List Char) :
    skipGap (j.write ++ rest) = j.write ++ rest := by
  obtain ⟨c, t, hcons, hgap, -⟩ := exists_cons_of_write hexact
  rw [hcons, List.cons_append, skipGap_cons hgap]

/-- The reader reads the value back from its text, whatever ends it. -/
def Reads (read : Reader Json) (j : Json) : Prop :=
  ∀ rest, EndsNumber rest → read (j.write ++ rest) = some (j, rest)

theorem items_writeItems {read : Reader Json} {j : Json} {items : List Json}
    (hread : ∀ k ∈ j :: items, Reads read k ∧ k.Exact) (rest : List Char) {fuel : Nat}
    (hfuel : items.length < fuel) :
    Json.items read fuel (writeItems (j :: items) ++ rest) = some (j :: items, rest) := by
  induction items generalizing j fuel with
  | nil =>
    obtain ⟨fuel, rfl⟩ := Nat.exists_eq_succ_of_ne_zero (Nat.ne_of_gt hfuel)
    obtain ⟨hj, hexact⟩ := hread j List.mem_cons_self
    have hlast := hj (']' :: rest) (endsNumber_cons (by decide) _)
    rw [writeItems, List.append_assoc, List.cons_append, List.nil_append, Json.items,
      skipGap_write hexact, hlast]
    rfl
  | cons k items ih =>
    rw [List.length_cons] at hfuel
    obtain ⟨fuel, rfl⟩ := Nat.exists_eq_succ_of_ne_zero (show fuel ≠ 0 by omega)
    obtain ⟨hj, hexact⟩ := hread j List.mem_cons_self
    have hfirst := hj (',' :: (writeItems (k :: items) ++ rest)) (endsNumber_cons (by decide) _)
    have hfuel' : items.length < fuel := by omega
    have htail := ih (fun l hl ↦ hread l (List.mem_cons_of_mem _ hl)) hfuel'
    rw [writeItems, List.append_assoc, List.cons_append, Json.items, skipGap_write hexact, hfirst]
    simp only [Option.bind_eq_bind, Option.bind_some,
      skipGap_cons (show isGap ',' = false by decide), htail]

theorem member_writeMember {read : Reader Json} {j : Json} (hj : Reads read j) (hexact : j.Exact)
    (key : String) {rest : List Char} (hrest : EndsNumber rest) :
    member quoted read (writeText key ++ ':' :: (j.write ++ rest)) = some ((key, j), rest) := by
  have hkey : skipGap (writeText key ++ ':' :: (j.write ++ rest)) =
      writeText key ++ ':' :: (j.write ++ rest) := skipGap_cons (by decide) _
  rw [member, hkey, quoted_writeText]
  simp only [Option.bind_eq_bind, Option.bind_some,
    skipGap_cons (show isGap ':' = false by decide), skipGap_write hexact, hj rest hrest]

theorem memberList_writeMembers {read : Reader Json} {p : String × Json} {members : Members Json}
    (hread : ∀ q ∈ p :: members, Reads read q.2 ∧ q.2.Exact) (rest : List Char) {fuel : Nat}
    (hfuel : members.length < fuel) :
    memberList (member quoted read) fuel (writeMembers (p :: members) ++ rest) =
      some (p :: members, rest) := by
  induction members generalizing p fuel with
  | nil =>
    obtain ⟨fuel, rfl⟩ := Nat.exists_eq_succ_of_ne_zero (Nat.ne_of_gt hfuel)
    obtain ⟨hj, hexact⟩ := hread p List.mem_cons_self
    obtain ⟨key, j⟩ := p
    have hlast := member_writeMember hj hexact key
      (endsNumber_cons (c := '\x7d') (by decide) rest)
    rw [writeMembers, List.append_assoc, List.cons_append, List.append_assoc, List.cons_append,
      List.nil_append, memberList, hlast]
    rfl
  | cons q members ih =>
    rw [List.length_cons] at hfuel
    obtain ⟨fuel, rfl⟩ := Nat.exists_eq_succ_of_ne_zero (show fuel ≠ 0 by omega)
    obtain ⟨hj, hexact⟩ := hread p List.mem_cons_self
    obtain ⟨key, j⟩ := p
    have hfirst := member_writeMember hj hexact key
      (endsNumber_cons (c := ',') (by decide) (writeMembers (q :: members) ++ rest))
    have hfuel' : members.length < fuel := by omega
    have htail := ih (fun l hl ↦ hread l (List.mem_cons_of_mem _ hl)) hfuel'
    rw [writeMembers, List.append_assoc, List.cons_append, List.append_assoc, List.cons_append,
      memberList, hfirst]
    simp only [Option.bind_eq_bind, Option.bind_some,
      skipGap_cons (show isGap ',' = false by decide), htail]

theorem length_le_writeItems (items : List Json) : items.length ≤ (writeItems items).length := by
  induction items with
  | nil => exact Nat.zero_le _
  | cons j items ih =>
    cases items with
    | nil =>
      simp only [writeItems, List.length_append, List.length_cons, List.length_nil]
      omega
    | cons k items =>
      simp only [writeItems, List.length_append, List.length_cons] at ih ⊢
      omega

theorem length_le_writeMembers (members : Members Json) :
    members.length ≤ (writeMembers members).length := by
  induction members with
  | nil => exact Nat.zero_le _
  | cons p members ih =>
    obtain ⟨key, j⟩ := p
    cases members with
    | nil =>
      simp only [writeMembers, List.length_append, List.length_cons, List.length_nil]
      omega
    | cons q members =>
      simp only [writeMembers, List.length_append, List.length_cons] at ih ⊢
      omega

theorem arrayRest_writeItems {read : Reader Json} {items : List Json}
    (hread : ∀ k ∈ items, Reads read k ∧ k.Exact) (rest : List Char) :
    arrayRest read (writeItems items ++ rest) = some (items, rest) := by
  cases items with
  | nil => rfl
  | cons j items =>
    obtain ⟨c, t, hcons, hgap, hbracket⟩ := exists_cons_of_write (hread j List.mem_cons_self).2
    have hstart : ∃ tail, writeItems (j :: items) ++ rest = c :: tail := by
      cases items with
      | nil => exact ⟨t ++ ']' :: rest, by simp [writeItems, hcons]⟩
      | cons k items =>
        exact ⟨t ++ ',' :: (writeItems (k :: items) ++ rest), by simp [writeItems, hcons]⟩
    obtain ⟨tail, hstart⟩ := hstart
    have hfuel : items.length < (writeItems (j :: items) ++ rest).length := by
      have hlength := length_le_writeItems (j :: items)
      rw [List.length_cons] at hlength
      rw [List.length_append]
      omega
    have hitems := items_writeItems hread rest hfuel
    rw [hstart] at hitems ⊢
    unfold arrayRest
    split
    · rename_i hclosed
      rw [skipGap_cons hgap] at hclosed
      exact absurd (List.cons.inj hclosed).1 hbracket
    · exact hitems

theorem objectRest_writeMembers {read : Reader Json} {members : Members Json}
    (hread : ∀ q ∈ members, Reads read q.2 ∧ q.2.Exact) (rest : List Char) :
    objectRest (member quoted read) (writeMembers members ++ rest) = some (members, rest) := by
  cases members with
  | nil => rfl
  | cons p members =>
    have hfuel : members.length < (writeMembers (p :: members) ++ rest).length := by
      have hlength := length_le_writeMembers (p :: members)
      rw [List.length_cons] at hlength
      rw [List.length_append]
      omega
    have hmembers := memberList_writeMembers hread rest hfuel
    have hstart : ∃ tail, writeMembers (p :: members) ++ rest = '"' :: tail := by
      cases members <;> exact ⟨_, rfl⟩
    obtain ⟨tail, hstart⟩ := hstart
    rw [hstart] at hmembers ⊢
    unfold objectRest
    split
    · rename_i hclosed
      rw [skipGap_cons (by decide)] at hclosed
      exact absurd (List.cons.inj hclosed).1 (by decide)
    · exact hmembers

/-- An ordered value within the nesting is read back from its text, if its doubles are. -/
theorem value_write {n : Nat} {j : Json} (hwithin : j.Within n) (hordered : j.Ordered)
    (hexact : j.Exact) : Reads (value n) j := by
  induction n generalizing j with
  | zero =>
    intro rest hrest
    cases j with
    | array items => exact hwithin.elim
    | object members => exact hwithin.elim
    | _ => exact value_write_of_isScalar (by trivial) hexact hrest 0
  | succ n ih =>
    intro rest hrest
    cases j with
    | array items =>
      have hread : ∀ k ∈ items, Reads (value n) k ∧ k.Exact := fun k hk ↦
        ⟨ih (hwithin k hk) (ordered_array_iff.1 hordered k hk) (exact_array_iff.1 hexact k hk),
          exact_array_iff.1 hexact k hk⟩
      exact Option.map_eq_some_iff.2 ⟨_, arrayRest_writeItems hread rest, rfl⟩
    | object members =>
      obtain ⟨hsorted, hordered⟩ := ordered_object_iff.1 hordered
      have hread : ∀ p ∈ members, Reads (value n) p.2 ∧ p.2.Exact := fun p hp ↦
        ⟨ih (hwithin p hp) (hordered p hp) (exact_object_iff.1 hexact p hp),
          exact_object_iff.1 hexact p hp⟩
      refine Option.map_eq_some_iff.2 ⟨_, objectRest_writeMembers hread rest, ?_⟩
      exact congrArg (fun m ↦ (Json.object m, rest)) (Members.ofList_of_sorted hsorted)
    | _ => exact value_write_of_isScalar (by trivial) hexact hrest (n + 1)

/-- The bytes of a value are parsed as that value. -/
theorem parse_write {j : Json} (hwithin : j.Within nestingLimit) (hordered : j.Ordered)
    (hexact : j.Exact) : parse (encodeChars j.write) = some j := by
  have hvalue := value_write hwithin hordered hexact [] endsNumber_nil
  have hgap := skipGap_write hexact []
  rw [List.append_nil] at hvalue hgap
  rw [parse, decodeChars_encodeChars]
  simp only [Except.toOption, Option.bind_some, parseChars, whole, hgap, hvalue,
    Option.bind_eq_bind]
  rfl

end Depot.Json
