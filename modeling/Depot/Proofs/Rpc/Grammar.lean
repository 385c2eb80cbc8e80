import Depot.Proofs.Rpc.Header

/-!
# What headers say

A header is told by what its lines say between the blanks at their ends (`Says`). A line without a
colon spoils the header, and so does a length that is no numeral of 64 bits (`Spoils`); of the lines
that give a length the last one counts (`LastLength`), and any other line says nothing about the
body. The reader takes the lines in their order (`takeAll`), so the first line that spoils a header
tells the fault (`takeAll_of_spoiled`), and without one the last length is what is left
(`takeAll_of_lastLength`). `header_told` puts this together: whatever the lines are, and wherever
the stream ends, what is read is told by them.
-/

set_option autoImplicit false
set_option relaxedAutoImplicit false

namespace Depot.Rpc.Frame

/-! ## Lines of a header -/

/-- The same character, or the same letter from A to Z in the other case. -/
def SameLetter (c d : Char) : Prop :=
  c = d ∨ (c.isUpper = true ∧ d = c.toLower) ∨ (d.isUpper = true ∧ c = d.toLower)

/-- Two texts that differ in the case of their letters at most. -/
inductive SameLetters : List Char → List Char → Prop where
  | nil : SameLetters [] []
  | cons {c d : Char} {s t : List Char} :
      SameLetter c d → SameLetters s t → SameLetters (c :: s) (d :: t)

/-- The name of the length, in whatever case of its letters and between whatever blanks. -/
def NamesLength (name : List Char) : Prop := SameLetters (Text.trim name) lengthName

/-- The line gives a length: a numeral of 64 bits, between whatever blanks. -/
def Gives (said : List Char) (n : Nat) : Prop :=
  ∃ name value, said = name ++ ':' :: value ∧ ':' ∉ name ∧ NamesLength name ∧
    Text.Names (Text.trim value) n ∧ n < UInt64.size

/-- The line cannot be in a header, and why. -/
inductive Spoils : List Char → FrameFault → Prop where
  | noColon {said : List Char} : ':' ∉ said → Spoils said (.noColon (String.ofList said))
  | badLength {name value : List Char} : ':' ∉ name → NamesLength name →
      (∀ n, Text.Names (Text.trim value) n → UInt64.size ≤ n) →
      Spoils (name ++ ':' :: value) .badLength

/-- The line can be in a header. -/
def Sound (said : List Char) : Prop := ∀ f, ¬ Spoils said f

/-- Lines that each say something, and what they say. -/
inductive Says : Bytes → List (List Char) → Prop where
  | nil : Says [] []
  | cons {line rest : Bytes} {said : List Char} {saids : List (List Char)} :
      Line line said → said ≠ [] → Says rest saids → Says (line ++ rest) (said :: saids)

/-- Text behind the last line feed of a stream, and what it says. -/
def Tail (last : Bytes) (said : List Char) : Prop :=
  ∃ s, '\n' ∉ s ∧ last = Text.encodeChars s ∧ said = Text.trim s

/-- The fault of the first line that spoils the header. -/
inductive Spoiled : List (List Char) → FrameFault → Prop where
  | here {said : List Char} {saids : List (List Char)} {f : FrameFault} :
      Spoils said f → Spoiled (said :: saids) f
  | later {said : List Char} {saids : List (List Char)} {f : FrameFault} :
      Sound said → Spoiled saids f → Spoiled (said :: saids) f

/-- The last length that is given. -/
inductive LastLength : List (List Char) → Nat → Prop where
  | here {said : List Char} {saids : List (List Char)} {n : Nat} :
      Gives said n → (∀ other ∈ saids, ∀ m, ¬ Gives other m) → LastLength (said :: saids) n
  | later {said : List Char} {saids : List (List Char)} {n : Nat} :
      LastLength saids n → LastLength (said :: saids) n

variable {closed : Bool} {fuel n : Nat} {h h' : Header} {f : FrameFault}
  {line rest blanks header blank last : Bytes} {said name : List Char}
  {saids : List (List Char)}

/-! ## One line -/

theorem val_toLower {c : Char} (hc : c.isUpper = true) : c.toLower.val = c.val + 32 :=
  congrArg Char.val (dif_pos (of_decide_eq_true hc))

theorem toLower_of_not_isUpper {c : Char} (hc : c.isUpper = false) : c.toLower = c :=
  dif_neg (of_decide_eq_false hc)

theorem isUpper_toLower {c : Char} (hc : c.isUpper = true) : c.toLower.isUpper = false := by
  obtain ⟨hA, hZ⟩ : 65 ≤ c.val.toNat ∧ c.val.toNat ≤ 90 := of_decide_eq_true hc
  refine decide_eq_false fun hlower ↦ ?_
  have hle : c.toLower.val.toNat ≤ 90 := hlower.2
  have hval : c.toLower.val.toNat = (c.val.toNat + 32) % 2 ^ 32 := by
    rw [val_toLower hc, UInt32.toNat_add]
    rfl
  omega

theorem toLower_toLower (c : Char) : c.toLower.toLower = c.toLower := by
  cases hc : c.isUpper with
  | true => exact toLower_of_not_isUpper (isUpper_toLower hc)
  | false => rw [toLower_of_not_isUpper hc, toLower_of_not_isUpper hc]

theorem toLower_eq_iff {c d : Char} : c.toLower = d.toLower ↔ SameLetter c d := by
  constructor
  · intro heq
    cases hc : c.isUpper with
    | true =>
      cases hd : d.isUpper with
      | true =>
        have hval := congrArg Char.val heq
        rw [val_toLower hc, val_toLower hd, UInt32.add_left_inj] at hval
        exact .inl (Char.ext hval)
      | false => exact .inr (.inl ⟨hc, (heq.trans (toLower_of_not_isUpper hd)).symm⟩)
    | false =>
      rw [toLower_of_not_isUpper hc] at heq
      cases hd : d.isUpper with
      | true => exact .inr (.inr ⟨hd, heq⟩)
      | false => exact .inl (heq.trans (toLower_of_not_isUpper hd))
  · rintro (rfl | ⟨-, rfl⟩ | ⟨-, rfl⟩)
    · rfl
    · exact (toLower_toLower c).symm
    · exact toLower_toLower d

theorem map_toLower_eq_iff {s t : List Char} :
    s.map Char.toLower = t.map Char.toLower ↔ SameLetters s t := by
  constructor
  · intro heq
    induction s generalizing t with
    | nil => exact List.map_eq_nil_iff.1 heq.symm ▸ .nil
    | cons c s ih =>
      obtain ⟨d, t, rfl, hd, ht⟩ := List.map_eq_cons_iff.1 heq.symm
      exact .cons (toLower_eq_iff.1 hd.symm) (ih ht.symm)
  · intro hsame
    induction hsame with
    | nil => rfl
    | cons hletter _ ih => rw [List.map_cons, List.map_cons, toLower_eq_iff.2 hletter, ih]

theorem isLengthName_iff : isLengthName name = true ↔ NamesLength name := by
  rw [isLengthName, decide_eq_true_iff, map_toLower_eq_iff, NamesLength]

theorem take_of_spoils (hspoils : Spoils said f) (h : Header) : h.take said = .error f := by
  cases hspoils with
  | noColon hcolon => rw [Header.take, Text.cutAt?_eq_none hcolon]
  | @badLength name value hcolon hname hvalue =>
    have hnone : Text.numeralBelow? Text.limit64 (Text.trim value) = none := by
      refine Option.eq_none_iff_forall_ne_some.2 fun n hn ↦ ?_
      obtain ⟨hnames, hlt⟩ := Text.numeralBelow?_eq_some_iff.1 hn
      exact absurd hlt (Nat.not_lt.2 (hvalue n hnames))
    simp only [Header.take, Text.cutAt?_append hcolon, isLengthName_iff.2 hname, if_true, hnone]

theorem take_of_gives (hgives : Gives said n) (h : Header) : h.take said = .ok ⟨true, some n⟩ := by
  obtain ⟨name, value, rfl, hcolon, hname, hvalue⟩ := hgives
  have hsome : Text.numeralBelow? Text.limit64 (Text.trim value) = some n :=
    Text.numeralBelow?_eq_some_iff.2 hvalue
  simp only [Header.take, Text.cutAt?_append hcolon, isLengthName_iff.2 hname, if_true, hsome]

/-- A line that neither spoils the header nor gives a length changes nothing else. -/
theorem take_of_other (hsound : Sound said) (hsilent : ∀ n, ¬ Gives said n) (h : Header) :
    h.take said = .ok ⟨true, h.length?⟩ := by
  by_cases hcolon : ':' ∈ said
  · obtain ⟨name, value, rfl, hbefore⟩ := List.eq_append_cons_of_mem hcolon
    by_cases hname : NamesLength name
    · refine absurd (.badLength hbefore hname fun n hn ↦ ?_) (hsound .badLength)
      exact Nat.le_of_not_lt fun hlt ↦ hsilent n ⟨name, value, rfl, hbefore, hname, hn, hlt⟩
    · have hother : isLengthName name = false :=
        Bool.eq_false_iff.2 fun hyes ↦ hname (isLengthName_iff.1 hyes)
      simp only [Header.take, Text.cutAt?_append hbefore, hother, Bool.false_eq_true, if_false]
  · exact absurd (.noColon hcolon) (hsound _)

theorem sound_of_take (htake : h.take said = .ok h') : Sound said := fun f hspoils ↦ by
  rw [take_of_spoils hspoils] at htake
  contradiction

theorem isEnd_of_spoils (hspoils : Spoils said f) : f.isEnd = false := by
  cases hspoils <;> rfl

theorem exists_take (hsound : Sound said) (h : Header) :
    ∃ length?, h.take said = .ok ⟨true, length?⟩ := by
  by_cases hgives : ∃ n, Gives said n
  · obtain ⟨n, hgives⟩ := hgives
    exact ⟨some n, take_of_gives hgives h⟩
  · exact ⟨h.length?, take_of_other hsound (fun n hn ↦ hgives ⟨n, hn⟩) h⟩

/-! ## One line after another -/

/-- Takes the lines of a header. -/
def takeAll (h : Header) (saids : List (List Char)) : Except FrameFault Header :=
  saids.foldlM Header.take h

theorem takeAll_cons_of_ok (htake : h.take said = .ok h') :
    takeAll h (said :: saids) = takeAll h' saids := by
  rw [takeAll, List.foldlM_cons, htake]
  rfl

theorem takeAll_cons_of_error (htake : h.take said = .error f) :
    takeAll h (said :: saids) = .error f := by
  rw [takeAll, List.foldlM_cons, htake]
  rfl

theorem takeAll_of_spoiled (hspoiled : Spoiled saids f) (h : Header) :
    takeAll h saids = .error f := by
  induction hspoiled generalizing h with
  | here hspoils => exact takeAll_cons_of_error (take_of_spoils hspoils h)
  | later hsound _ ih =>
    obtain ⟨length?, htake⟩ := exists_take hsound h
    rw [takeAll_cons_of_ok htake, ih]

theorem takeAll_silent (hsound : ∀ said ∈ saids, Sound said)
    (hsilent : ∀ said ∈ saids, ∀ n, ¬ Gives said n) (length? : Option Nat) :
    takeAll ⟨true, length?⟩ saids = .ok ⟨true, length?⟩ := by
  induction saids with
  | nil => rfl
  | cons said saids ih =>
    have htake := take_of_other (hsound said List.mem_cons_self)
      (hsilent said List.mem_cons_self) ⟨true, length?⟩
    rw [takeAll_cons_of_ok htake]
    exact ih (fun other hmem ↦ hsound other (List.mem_cons_of_mem _ hmem))
      fun other hmem ↦ hsilent other (List.mem_cons_of_mem _ hmem)

theorem takeAll_of_lastLength (hsound : ∀ said ∈ saids, Sound said)
    (hlast : LastLength saids n) (h : Header) : takeAll h saids = .ok ⟨true, some n⟩ := by
  induction hlast generalizing h with
  | here hgives hsilent =>
    rw [takeAll_cons_of_ok (take_of_gives hgives h)]
    exact takeAll_silent (fun other hmem ↦ hsound other (List.mem_cons_of_mem _ hmem)) hsilent _
  | later _ ih =>
    obtain ⟨length?, htake⟩ := exists_take (hsound _ List.mem_cons_self) h
    rw [takeAll_cons_of_ok htake]
    exact ih (fun other hmem ↦ hsound other (List.mem_cons_of_mem _ hmem)) _

theorem takeAll_of_no_length (hsound : ∀ said ∈ saids, Sound said) (hsome : saids ≠ [])
    (hsilent : ∀ said ∈ saids, ∀ n, ¬ Gives said n) : takeAll {} saids = .ok ⟨true, none⟩ := by
  obtain ⟨said, saids, rfl⟩ := List.exists_cons_of_ne_nil hsome
  have htake := take_of_other (hsound said List.mem_cons_self) (hsilent said List.mem_cons_self) {}
  rw [takeAll_cons_of_ok htake]
  exact takeAll_silent (fun other hmem ↦ hsound other (List.mem_cons_of_mem _ hmem))
    (fun other hmem ↦ hsilent other (List.mem_cons_of_mem _ hmem)) none

theorem exists_spoiled (hbad : ∃ said ∈ saids, ¬ Sound said) : ∃ f, Spoiled saids f := by
  induction saids with
  | nil => simp at hbad
  | cons said saids ih =>
    by_cases hsound : Sound said
    · obtain ⟨bad, hmem, hbad⟩ := hbad
      rcases List.mem_cons.1 hmem with rfl | hmem
      · exact absurd hsound hbad
      · obtain ⟨f, hf⟩ := ih ⟨bad, hmem, hbad⟩
        exact ⟨f, .later hsound hf⟩
    · obtain ⟨f, hf⟩ : ∃ f, Spoils said f :=
        Classical.byContradiction fun hnone ↦ hsound fun f hf ↦ hnone ⟨f, hf⟩
      exact ⟨f, .here hf⟩

theorem exists_lastLength (hgives : ∃ said ∈ saids, ∃ n, Gives said n) :
    ∃ n, LastLength saids n := by
  induction saids with
  | nil => simp at hgives
  | cons said saids ih =>
    by_cases hlater : ∃ other ∈ saids, ∃ n, Gives other n
    · obtain ⟨n, hn⟩ := ih hlater
      exact ⟨n, .later hn⟩
    · obtain ⟨other, hmem, n, hn⟩ := hgives
      rcases List.mem_cons.1 hmem with rfl | hmem
      · exact ⟨n, .here hn fun other hmem m hm ↦ hlater ⟨other, hmem, m, hm⟩⟩
      · exact absurd ⟨other, hmem, n, hn⟩ hlater

theorem isEnd_of_spoiled (hspoiled : Spoiled saids f) : f.isEnd = false := by
  induction hspoiled with
  | here hspoils => exact isEnd_of_spoils hspoils
  | later _ _ ih => exact ih

/-! ## Reading a header -/

theorem lines_of_said (hline : Line line said) (hsaid : said ≠ []) (closed : Bool) (fuel : Nat)
    (h : Header) (rest : Bytes) : lines closed (fuel + 1) h (line ++ rest) =
      match h.take said with
      | .error f => .fault f
      | .ok h => lines closed fuel h rest := by
  have hcut := line?_of_line hline closed rest
  obtain ⟨s, -, rfl, rfl⟩ := hline
  cases htake : h.take (Text.trim (s ++ ['\n'])) <;>
    simp only [lines, hcut, Text.decodeChars_encodeChars, hsaid, if_false, htake]

theorem lines_says (htold : Says header saids) (closed : Bool) (h : Header)
    (hfuel : (header ++ rest).length < fuel) : ∃ left, rest.length < left ∧
      lines closed fuel h (header ++ rest) =
        match takeAll h saids with
        | .error f => .fault f
        | .ok h => lines closed left h rest := by
  induction htold generalizing fuel h with
  | nil => exact ⟨fuel, hfuel, rfl⟩
  | cons hline hsaid _ ih =>
    rw [List.append_assoc] at hfuel ⊢
    obtain ⟨next, rfl, hnext⟩ := hline.exists_fuel hfuel
    rw [lines_of_said hline hsaid]
    cases htake : h.take _ with
    | error f =>
      obtain ⟨left, hleft, -⟩ := ih h hnext
      exact ⟨left, hleft, by rw [takeAll_cons_of_error htake]⟩
    | ok h' =>
      rw [takeAll_cons_of_ok htake]
      exact ih h' hnext

/-- Behind blank lines and the lines of a header, reading goes on with what they said. -/
theorem next_says (hblanks : BlankLines blanks) (htold : Says header saids) (closed : Bool)
    (rest : Bytes) : ∃ left, rest.length < left ∧ next closed (blanks ++ (header ++ rest)) =
      match takeAll {} saids with
      | .error f => .fault f
      | .ok h => lines closed left h rest := by
  obtain ⟨left, hleft, hlines⟩ := lines_blankLines (h := {}) hblanks closed rfl
    (Nat.lt_succ_self (blanks ++ (header ++ rest)).length)
  obtain ⟨last, hlast, hlines'⟩ := lines_says htold closed {} hleft
  exact ⟨last, hlast, hlines.trans hlines'⟩

/-- The first line that spoils a header ends reading, whatever stands behind it. -/
theorem next_of_spoiled (hblanks : BlankLines blanks) (htold : Says header saids)
    (hspoiled : Spoiled saids f) (closed : Bool) (rest : Bytes) :
    next closed (blanks ++ (header ++ rest)) = .fault f := by
  obtain ⟨left, -, hnext⟩ := next_says hblanks htold closed rest
  rw [hnext, takeAll_of_spoiled hspoiled]

/-- Behind the blank line, what the lines said leads to the body. -/
theorem next_of_takeAll (hblanks : BlankLines blanks) (htold : Says header saids)
    {length? : Option Nat} (htake : takeAll {} saids = .ok ⟨true, length?⟩)
    (hblank : Line blank []) (closed : Bool) (rest : Bytes) :
    next closed (blanks ++ (header ++ (blank ++ rest))) = body closed ⟨true, length?⟩ rest := by
  obtain ⟨left, hleft, hnext⟩ := next_says hblanks htold closed (blank ++ rest)
  obtain ⟨left, rfl, -⟩ := hblank.exists_fuel hleft
  rw [hnext, htake]
  exact lines_of_blank hblank left _ rest

/-! ## The end of the stream -/

/-- What came is no frame. -/
def Refuses (closed : Bool) (s : Bytes) : Prop := ∃ f, next closed s = .fault f ∧ f.isEnd = false

/-- The stream ended too early. -/
def BreaksOff (s : Bytes) : Prop := ∃ f, next true s = .fault f ∧ f.isEnd = true

theorem lines_at_end (fuel : Nat) (h : Header) :
    lines true (fuel + 1) h [] = if h.seen then .fault .endInHeader else .ended := by
  have hline : line? true [] = none := rfl
  simp [lines, hline]

theorem line?_of_tail (htail : Tail last said) (hlast : last ≠ []) :
    line? true last = some (last, []) := by
  obtain ⟨s, hs, rfl, -⟩ := htail
  exact line?_last (lineFeed_not_mem_encodeChars hs) hlast

/-- At the end of the stream a line needs no line feed. -/
theorem lines_of_tail (htail : Tail last said) (hlast : last ≠ []) (fuel : Nat) (h : Header) :
    lines true (fuel + 1) h last =
      if said = [] then if h.seen then body true h [] else lines true fuel h []
      else match h.take said with
        | .error f => .fault f
        | .ok h => lines true fuel h [] := by
  have hline := line?_of_tail htail hlast
  obtain ⟨s, -, rfl, rfl⟩ := htail
  cases htake : h.take (Text.trim s) <;>
    simp only [lines, hline, Text.decodeChars_encodeChars, htake]

/-- Blank lines alone are the end of a stream. -/
theorem next_of_blanks (hblanks : BlankLines blanks) (htail : Tail last []) :
    next true (blanks ++ last) = .ended := by
  obtain ⟨left, hleft, hlines⟩ := lines_blankLines (h := {}) hblanks true rfl
    (Nat.lt_succ_self (blanks ++ last).length)
  obtain ⟨left, rfl⟩ := Nat.exists_eq_succ_of_ne_zero (Nat.ne_of_gt (Nat.zero_lt_of_lt hleft))
  rw [next, hlines]
  by_cases hlast : last = []
  · rw [hlast, lines_at_end]
    rfl
  · have hpos := List.length_pos_iff.2 hlast
    obtain ⟨left, rfl⟩ : ∃ m, left = m + 1 := ⟨left - 1, by omega⟩
    rw [lines_of_tail htail hlast, if_pos rfl, lines_at_end]
    rfl

/-- A header without its blank line is broken off. -/
theorem next_of_open_header (hblanks : BlankLines blanks) (htold : Says header saids)
    (hsome : saids ≠ []) (hsound : ∀ said ∈ saids, Sound said) (htail : Tail last said)
    (hlast : last = [] ∨ said ≠ [] ∧ Sound said) :
    next true (blanks ++ (header ++ last)) = .fault .endInHeader := by
  obtain ⟨length?, htake⟩ : ∃ length?, takeAll {} saids = .ok ⟨true, length?⟩ := by
    by_cases hgives : ∃ said ∈ saids, ∃ n, Gives said n
    · obtain ⟨n, hn⟩ := exists_lastLength hgives
      exact ⟨some n, takeAll_of_lastLength hsound hn {}⟩
    · exact ⟨none, takeAll_of_no_length hsound hsome
        fun said hmem n hn ↦ hgives ⟨said, hmem, n, hn⟩⟩
  obtain ⟨left, hleft, hnext⟩ := next_says hblanks htold true last
  obtain ⟨left, rfl⟩ := Nat.exists_eq_succ_of_ne_zero (Nat.ne_of_gt (Nat.zero_lt_of_lt hleft))
  rw [hnext, htake]
  by_cases hnil : last = []
  · rw [hnil]
    exact lines_at_end left _
  · obtain ⟨hsaid, hsound⟩ := hlast.resolve_left hnil
    have hpos := List.length_pos_iff.2 hnil
    obtain ⟨left, rfl⟩ : ∃ m, left = m + 1 := ⟨left - 1, by omega⟩
    obtain ⟨length?, hok⟩ := exists_take hsound ⟨true, length?⟩
    simp only [lines_of_tail htail hnil, if_neg hsaid, hok, lines_at_end, if_true]

/-! ## What is read -/

/-- What is read behind blank lines and the lines of a header. If none of the lines spoils the
header and one of them gives a length, then the last length is that of the body behind the blank
line: the body is read, and what stands behind it is left, or the stream is too short for it. This
is so for every length that a body can have, which are those below 2 ^ 63. If no line gives a
length, or the first line that spoils the header comes, then what came is no frame. If the stream
ends before there is a header line, it has just ended; if it ends before the blank line, too
early. -/
theorem header_told (hblanks : BlankLines blanks) (htold : Says header saids)
    (hsome : saids ≠ []) :
    ((∀ said ∈ saids, Sound said) → ∀ blank rest, Line blank [] →
      ((∃ said ∈ saids, ∃ n, Gives said n) →
        (∃ n, LastLength saids n) ∧ ∀ n, LastLength saids n → n < 0x8000000000000000 →
          (n ≤ rest.length → ∀ closed, next closed (blanks ++ (header ++ (blank ++ rest))) =
            .frame (rest.take n) (rest.drop n)) ∧
          (rest.length < n → BreaksOff (blanks ++ (header ++ (blank ++ rest))))) ∧
      ((∀ said ∈ saids, ∀ n, ¬ Gives said n) → ∀ closed,
        Refuses closed (blanks ++ (header ++ (blank ++ rest))))) ∧
    ((∃ said ∈ saids, ¬ Sound said) → ∃ f, Spoiled saids f ∧ f.isEnd = false ∧
      ∀ closed rest, next closed (blanks ++ (header ++ rest)) = .fault f) ∧
    (∀ last, Tail last [] → next true (blanks ++ last) = .ended) ∧
    ((∀ said ∈ saids, Sound said) → ∀ last said, Tail last said →
      last = [] ∨ said ≠ [] ∧ Sound said → BreaksOff (blanks ++ (header ++ last))) := by
  refine ⟨fun hsound blank rest hblank ↦ ⟨fun hgives ↦ ⟨exists_lastLength hgives, ?_⟩, ?_⟩,
    fun hbad ↦ ?_, fun last htail ↦ next_of_blanks hblanks htail, ?_⟩
  · intro n hn hfits
    have htake := takeAll_of_lastLength hsound hn {}
    have hnext := fun closed ↦ next_of_takeAll hblanks htold htake hblank closed rest
    refine ⟨fun hlong closed ↦ ?_, fun hshort ↦ ?_⟩
    · have hnot : ¬ oversizeFrom ≤ n := Nat.not_le.2 hfits
      rw [hnext closed, body]
      simp only [if_neg hnot, if_pos hlong]
    · exact ⟨.endInBody, (hnext true).trans (body_of_short hfits hshort), rfl⟩
  · intro hsilent closed
    have htake := takeAll_of_no_length hsound hsome hsilent
    exact ⟨.noLength, next_of_takeAll hblanks htold htake hblank closed rest, rfl⟩
  · obtain ⟨f, hspoiled⟩ := exists_spoiled hbad
    exact ⟨f, hspoiled, isEnd_of_spoiled hspoiled,
      fun closed rest ↦ next_of_spoiled hblanks htold hspoiled closed rest⟩
  · intro hsound last said htail hlast
    exact ⟨.endInHeader, next_of_open_header hblanks htold hsome hsound htail hlast, rfl⟩

/-- Of two lengths the last one counts, in whatever way it is written; the header is read with the
body behind it, with a body that is too short, and without its blank line. A line without a colon
spoils another header, although the length stands before it. -/
theorem header_told_twoLengths :
    let line := fun s : String ↦ Text.encode s ++ [lineFeed]
    let blanks := line " \r" ++ []
    let header :=
      line "x:y\r" ++ (line "Content-Length:9" ++ (line " cONTENT-length : +02 \r" ++ []))
    let saids := ["x:y".toList, "Content-Length:9".toList, "cONTENT-length : +02".toList]
    let spoiled := line "Content-Length:1" ++ (line "z" ++ [])
    (BlankLines blanks ∧ Says header saids ∧ Line (line "\r") [] ∧ (∀ said ∈ saids, Sound said) ∧
      LastLength saids 2) ∧
    next false (blanks ++ (header ++ (line "\r" ++ Text.encode "ab:c"))) =
      .frame (Text.encode "ab") (Text.encode ":c") ∧
    BreaksOff (blanks ++ (header ++ (line "\r" ++ Text.encode "a"))) ∧
    BreaksOff (blanks ++ (header ++ Text.encode "z: 1")) ∧
    next true (blanks ++ Text.encode " ") = .ended ∧
    Refuses false (blanks ++ (spoiled ++ Text.encode "y")) := by
  intro line blanks header saids spoiled
  have hline : ∀ (s : String) (said : List Char), '\n' ∉ s.toList →
      said = Text.trim (s.toList ++ ['\n']) → Line (line s) said :=
    fun s said hs hsaid ↦ ⟨s.toList, hs, (encodeChars_lineFeed _).symm, hsaid⟩
  have hblanks : BlankLines blanks := .cons (hline _ _ (by decide) (by decide)) .nil
  have hblank : Line (line "\r") [] := hline _ _ (by decide) (by decide)
  have htold : Says header saids :=
    .cons (hline _ _ (by decide) (by decide)) (by decide)
      (.cons (hline _ _ (by decide) (by decide)) (by decide)
        (.cons (hline _ _ (by decide) (by decide)) (by decide) .nil))
  have hsound : ∀ said ∈ saids, Sound said :=
    List.forall_mem_cons.2 ⟨sound_of_take (h := {}) rfl,
      List.forall_mem_cons.2 ⟨sound_of_take (h := {}) rfl,
        List.forall_mem_singleton.2 (sound_of_take (h := {}) rfl)⟩⟩
  have hgives : Gives "cONTENT-length : +02".toList 2 :=
    ⟨"cONTENT-length ".toList, " +02".toList, by decide, by decide, isLengthName_iff.1 (by decide),
      Text.numeralBelow?_eq_some_iff.1 (by decide)⟩
  have hlast : LastLength saids 2 := .later (.later (.here hgives nofun))
  have hsome : ∃ said ∈ saids, ∃ n, Gives said n :=
    ⟨_, List.mem_of_getElem? (i := 2) rfl, 2, hgives⟩
  obtain ⟨hread, -, hended, hopen⟩ := header_told hblanks htold (List.cons_ne_nil _ _)
  have hlong := ((hread hsound _ (Text.encode "ab:c") hblank).1 hsome).2 2 hlast (by decide)
  have hshort := ((hread hsound _ (Text.encode "a") hblank).1 hsome).2 2 hlast (by decide)
  have hbad : Says spoiled ["Content-Length:1".toList, "z".toList] :=
    .cons (hline _ _ (by decide) (by decide)) (by decide)
      (.cons (hline _ _ (by decide) (by decide)) (by decide) .nil)
  obtain ⟨-, hspoils, -⟩ := header_told hblanks hbad (List.cons_ne_nil _ _)
  obtain ⟨f, -, hend, hfault⟩ := hspoils
    ⟨_, List.mem_of_getElem? (i := 1) rfl, fun hsound ↦ hsound _ (.noColon (by decide))⟩
  exact ⟨⟨hblanks, htold, hblank, hsound, hlast⟩, hlong.1 (by decide) false,
    hshort.2 (by decide),
    hopen hsound _ _ ⟨"z: 1".toList, by decide, rfl, rfl⟩
      (.inr ⟨by decide, sound_of_take (h := {}) rfl⟩),
    hended _ ⟨[' '], by decide, rfl, by decide⟩, f, hfault false _, hend⟩

/-- With the first length that no body can have, a stream that is too short for it does not end too
early. -/
theorem oversize_does_not_break_off :
    let header := Text.encode "Content-Length: 9223372036854775808\r" ++ [lineFeed]
    let blank := Text.encode "\r" ++ [lineFeed]
    let said := "Content-Length: 9223372036854775808".toList
    let rest := Text.encode "xx"
    Says header [said] ∧ Sound said ∧ Line blank [] ∧ LastLength [said] 0x8000000000000000 ∧
      rest.length < 0x8000000000000000 ∧ ¬ BreaksOff (header ++ (blank ++ rest)) := by
  intro header blank said rest
  have hline : Line header said :=
    ⟨"Content-Length: 9223372036854775808\r".toList, by decide, rfl, by decide⟩
  have htold : Says header [said] := List.append_nil header ▸ .cons hline (by decide) .nil
  have hgives : Gives said 0x8000000000000000 :=
    ⟨"Content-Length".toList, " 9223372036854775808".toList, by decide, by decide,
      isLengthName_iff.1 (by decide), Text.numeralBelow?_eq_some_iff.1 (by decide)⟩
  have hsound : Sound said := sound_of_take (take_of_gives hgives {})
  have hblank : Line blank [] := ⟨['\r'], by decide, rfl, by decide⟩
  have hlast : LastLength [said] 0x8000000000000000 := .here hgives nofun
  refine ⟨htold, hsound, hblank, hlast, by decide, ?_⟩
  rintro ⟨f, hfault, -⟩
  have htake := takeAll_of_lastLength (List.forall_mem_singleton.2 hsound) hlast {}
  have hnext := next_of_takeAll .nil htold htake hblank true rest
  have hbody : body true ⟨true, some 0x8000000000000000⟩ rest = .oversize 0x8000000000000000 := rfl
  cases hfault.symm.trans (hnext.trans hbody)

end Depot.Rpc.Frame
