import Depot.Proofs.Rpc.Framing

/-!
# The grammar of frames

What a well-formed frame is, told without the reader: blank lines, header lines that each give a
name before a colon, a blank line, and a body of the length that the last line of the length's name
gives (`IsFrame`). The reader takes line after line (`lines_of_blank`, `lines_of_header`), so it
reads the body of any such frame, whatever stands behind it (`next_of_isFrame`). What is written is
such a frame (`isFrame_write`).
-/

set_option autoImplicit false
set_option relaxedAutoImplicit false

namespace Depot.Rpc.Frame

/-! ## Lines -/

/-- A line of text with its line feed, and what it says between the blanks at its ends. -/
def Line (line : Bytes) (said : List Char) : Prop :=
  ∃ s, '\n' ∉ s ∧ line = Text.encodeChars (s ++ ['\n']) ∧ said = Text.trim (s ++ ['\n'])

/-- Lines that say nothing. -/
inductive BlankLines : Bytes → Prop where
  | nil : BlankLines []
  | cons {line rest : Bytes} : Line line [] → BlankLines rest → BlankLines (line ++ rest)

/-- What a header line says, and the length if it gives one. -/
inductive HeaderText : List Char → Option Nat → Prop where
  | other {name value : List Char} : ':' ∉ name → isLengthName name = false →
      HeaderText (name ++ ':' :: value) none
  | length {name value : List Char} {n : Nat} : ':' ∉ name → isLengthName name = true →
      Text.numeralBelow? Text.limit64 (Text.trim value) = some n →
      HeaderText (name ++ ':' :: value) (some n)

/-- Header lines, at least one, and the last length that they give. -/
inductive HeaderLines : Bytes → Option Nat → Prop where
  | last {line : Bytes} {said : List Char} {length? : Option Nat} :
      Line line said → HeaderText said length? → HeaderLines line length?
  | cons {line rest : Bytes} {said : List Char} {length? later? : Option Nat} :
      Line line said → HeaderText said length? → HeaderLines rest later? →
      HeaderLines (line ++ rest) (later?.or length?)

/-- A well-formed frame, and the body that it carries. -/
inductive IsFrame : Bytes → Bytes → Prop where
  | intro {blanks header blank body : Bytes} : BlankLines blanks →
      HeaderLines header (some body.length) → Line blank [] →
      body.length < 0x8000000000000000 →
      IsFrame (blanks ++ (header ++ (blank ++ body))) body

/-- A stream of well-formed frames, their bodies, and what stands behind the last frame. -/
inductive Frames : Bytes → List Bytes → Bytes → Prop where
  | nil {tail : Bytes} : Frames tail [] tail
  | cons {frame body rest tail : Bytes} {bodies : List Bytes} : IsFrame frame body →
      Frames rest bodies tail → Frames (frame ++ rest) (body :: bodies) tail

/-! ## The reader takes line after line -/

theorem encodeChars_lineFeed (s : List Char) :
    Text.encodeChars (s ++ ['\n']) = Text.encodeChars s ++ [lineFeed] := by
  rw [Text.encodeChars_append]
  rfl

variable {closed : Bool} {fuel : Nat} {h : Header} {line rest : Bytes} {said : List Char}
  {length? : Option Nat}

theorem Line.ne_nil (hline : Line line said) : line ≠ [] := by
  obtain ⟨s, -, rfl, -⟩ := hline
  rw [encodeChars_lineFeed]
  exact List.append_ne_nil_of_right_ne_nil _ (List.cons_ne_nil _ _)

theorem Line.length_pos (hline : Line line said) : 0 < line.length :=
  List.length_pos_iff.2 hline.ne_nil

theorem line?_of_line (hline : Line line said) (closed : Bool) (rest : Bytes) :
    line? closed (line ++ rest) = some (line, rest) := by
  obtain ⟨s, hs, rfl, -⟩ := hline
  rw [encodeChars_lineFeed, List.append_assoc]
  exact line?_append (lineFeed_not_mem_encodeChars hs) closed rest

theorem lines_of_blank (hline : Line line []) (fuel : Nat) (h : Header) (rest : Bytes) :
    lines closed (fuel + 1) h (line ++ rest) =
      if h.seen then body closed h rest else lines closed fuel h rest := by
  have hcut := line?_of_line hline closed rest
  obtain ⟨s, -, rfl, hsaid⟩ := hline
  simp only [lines, hcut, Text.decodeChars_encodeChars, ← hsaid, if_true]

theorem HeaderText.ne_nil (htext : HeaderText said length?) : said ≠ [] := by
  cases htext with
  | other => exact List.append_ne_nil_of_right_ne_nil _ (List.cons_ne_nil _ _)
  | length => exact List.append_ne_nil_of_right_ne_nil _ (List.cons_ne_nil _ _)

theorem take_of_headerText (htext : HeaderText said length?) (h : Header) :
    h.take said = .ok ⟨true, length?.or h.length?⟩ := by
  cases htext with
  | other hcolon hname =>
    simp only [Header.take, Text.cutAt?_append hcolon, hname, Bool.false_eq_true, if_false,
      Option.none_or]
  | length hcolon hname hvalue =>
    simp only [Header.take, Text.cutAt?_append hcolon, hname, if_true, hvalue, Option.some_or]

theorem lines_of_header (hline : Line line said) (htext : HeaderText said length?) (fuel : Nat)
    (h : Header) (rest : Bytes) :
    lines closed (fuel + 1) h (line ++ rest) =
      lines closed fuel ⟨true, length?.or h.length?⟩ rest := by
  have hcut := line?_of_line hline closed rest
  have hne := htext.ne_nil
  have htake := take_of_headerText htext h
  obtain ⟨s, -, rfl, rfl⟩ := hline
  simp only [lines, hcut, Text.decodeChars_encodeChars, hne, if_false, htake]

/-! ## A frame -/

/-- With fuel for all the bytes, there is fuel left behind a line for those that follow. -/
theorem Line.exists_fuel (hline : Line line said) (hfuel : (line ++ rest).length < fuel) :
    ∃ left, fuel = left + 1 ∧ rest.length < left := by
  have hpos := hline.length_pos
  rw [List.length_append] at hfuel
  exact ⟨fuel - 1, by omega, by omega⟩

theorem lines_blankLines {blanks : Bytes} (hblanks : BlankLines blanks) (closed : Bool)
    (hh : h.seen = false) (hfuel : (blanks ++ rest).length < fuel) :
    ∃ left, rest.length < left ∧
      lines closed fuel h (blanks ++ rest) = lines closed left h rest := by
  induction hblanks generalizing fuel with
  | nil => exact ⟨fuel, hfuel, rfl⟩
  | @cons line blanks hline _ ih =>
    rw [List.append_assoc] at hfuel ⊢
    obtain ⟨next, rfl, hnext⟩ := hline.exists_fuel hfuel
    obtain ⟨left, hleft, hlines⟩ := ih hnext
    refine ⟨left, hleft, ?_⟩
    rw [lines_of_blank hline, hh, if_neg Bool.false_ne_true, hlines]

theorem lines_headerLines {header : Bytes} (hheader : HeaderLines header length?)
    (closed : Bool) (h : Header) (hfuel : (header ++ rest).length < fuel) :
    ∃ left, rest.length < left ∧ lines closed fuel h (header ++ rest) =
      lines closed left ⟨true, length?.or h.length?⟩ rest := by
  induction hheader generalizing fuel h with
  | last hline htext =>
    obtain ⟨left, rfl, hleft⟩ := hline.exists_fuel hfuel
    exact ⟨left, hleft, lines_of_header hline htext left h rest⟩
  | cons hline htext _ ih =>
    rw [List.append_assoc] at hfuel ⊢
    obtain ⟨next, rfl, hnext⟩ := hline.exists_fuel hfuel
    obtain ⟨left, hleft, hlines⟩ := ih _ hnext
    refine ⟨left, hleft, ?_⟩
    rw [lines_of_header hline htext, hlines, Option.or_assoc]

/-- The body of a well-formed frame is read, whatever stands behind the frame. -/
theorem next_of_isFrame {frame b : Bytes} (hframe : IsFrame frame b) (closed : Bool)
    (rest : Bytes) : next closed (frame ++ rest) = .frame b rest := by
  obtain ⟨hblanks, hheader, hblank, hfits⟩ := hframe
  rename_i blanks header blank
  simp only [List.append_assoc]
  have hseen : ({} : Header).seen = false := rfl
  obtain ⟨left, hleft, hlines⟩ := lines_blankLines hblanks closed hseen
    (Nat.lt_succ_self (blanks ++ (header ++ (blank ++ (b ++ rest)))).length)
  obtain ⟨last, hlast, hlines'⟩ := lines_headerLines hheader closed {} hleft
  obtain ⟨last, rfl, -⟩ := hblank.exists_fuel hlast
  rw [next, hlines, hlines', lines_of_blank hblank]
  exact body_of_append hfits closed rest

/-! ## What is written is a frame -/

theorem line_lengthLine (n : Nat) :
    Line (headLine n ++ [lineFeed]) (lengthLine n) := by
  refine ⟨lengthLine n ++ ['\r'], newline_not_mem_lengthLine n, (encodeChars_lineFeed _).symm, ?_⟩
  rw [List.append_assoc]
  exact (trim_lengthLine n).symm

theorem headerText_lengthLine {n : Nat} (hn : n < Text.limit64) :
    HeaderText (lengthLine n) (some n) := by
  refine .length (by decide) (by decide) ?_
  rw [Text.trim_writeNumeral, Text.numeralBelow?_writeNumeral hn]

theorem isFrame_write {b : Bytes} (hb : b.length < oversizeFrom) : IsFrame (write b) b := by
  have hn : b.length < Text.limit64 := Nat.lt_of_lt_of_le hb oversizeFrom_le_limit64
  have hheader := HeaderLines.last (line_lengthLine b.length) (headerText_lengthLine hn)
  have hblank : Line [carriageReturn, lineFeed] [] := ⟨['\r'], by decide, rfl, by decide⟩
  have hwrite : write b = [] ++ ((headLine b.length ++ [lineFeed]) ++
      ([carriageReturn, lineFeed] ++ b)) := by
    rw [write_eq, List.append_assoc]
    rfl
  rw [hwrite]
  exact .intro .nil hheader hblank hb

theorem frames_writeAll {bodies : List Bytes} (hfit : Fit bodies) (tail : Bytes) :
    Frames (writeAll bodies ++ tail) bodies tail := by
  induction bodies with
  | nil => exact .nil
  | cons b bodies ih =>
    have hrest := ih fun c hc ↦ hfit c (List.mem_cons_of_mem _ hc)
    rw [writeAll_cons, List.append_assoc]
    exact .cons (isFrame_write (hfit b List.mem_cons_self)) hrest

end Depot.Rpc.Frame
