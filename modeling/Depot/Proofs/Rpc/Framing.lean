import Depot.Rpc.Frame
import Depot.Proofs.Text.Numeral
import Depot.Proofs.Text.Utf8

/-!
# Frames are read back, and a cut stream yields no wrong body

A stream is written frame behind frame (`writeAll`) and cut anywhere. Whole frames are read one
after another, whatever follows them (`next_write`, `readFrom_writeAll_append`), so all that is
left is the front of one frame. Reading it fails, wherever it is cut (`next_cut`): inside the line
of the length a shorter number may still be read, but then the blank line is missing. One front
does not fail (`next_lacking`): where the body is empty and only the last line feed is missing, the
end of the stream ends the blank line as well.
-/

set_option autoImplicit false
set_option relaxedAutoImplicit false

namespace Depot.Rpc.Frame

/-! ## The line of the length -/

/-- What stands in the header of a frame, without the end of the line. -/
def lengthLine (n : Nat) : List Char := lengthName ++ ':' :: ' ' :: Text.writeNumeral n

theorem lengthLine_eq_append (n : Nat) :
    lengthLine n = (lengthName ++ [':', ' ']) ++ Text.writeNumeral n := by
  rw [lengthLine, List.append_assoc]
  rfl

theorem trim_lengthLine (n : Nat) :
    Text.trim (lengthLine n ++ ['\r', '\n']) = lengthLine n := by
  have hne : lengthLine n ≠ [] := by
    rw [lengthLine_eq_append]
    exact List.append_ne_nil_of_right_ne_nil _ (Text.writeNumeral_ne_nil n)
  have hhead : Text.isBlank ((lengthLine n).head hne) = false := rfl
  have hlast : Text.isBlank ((lengthLine n).getLast hne) = false := by
    simp only [lengthLine_eq_append, List.getLast_append_of_ne_nil _ (Text.writeNumeral_ne_nil n)]
    exact Text.isBlank_of_isDigit (Text.isDigit_of_mem_writeNumeral (List.getLast_mem _))
  have htrim : Text.trim ([] ++ lengthLine n ++ ['\r', '\n']) = lengthLine n :=
    Text.trim_append (List.all_eq_true.1 rfl) (List.all_eq_true.1 rfl) hne hhead hlast
  rwa [List.nil_append] at htrim

theorem take_lengthLine {n : Nat} (hn : n < Text.limit64) (h : Header) :
    h.take (lengthLine n) = .ok ⟨true, some n⟩ := by
  have hcut : Text.cutAt? ':' (lengthLine n) = some (lengthName, ' ' :: Text.writeNumeral n) :=
    Text.cutAt?_append (by decide) _
  have hname : isLengthName lengthName = true := by decide
  simp only [Header.take, hcut, hname, if_true, Text.trim_writeNumeral,
    Text.numeralBelow?_writeNumeral hn]

theorem seen_of_take {h h' : Header} {line : List Char} (htake : h.take line = .ok h') :
    h'.seen = true := by
  unfold Header.take at htake
  split at htake
  · contradiction
  · split at htake
    · split at htake
      · contradiction
      · injection htake with htake
        rw [← htake]
    · injection htake with htake
      rw [← htake]

/-! ## Lines of bytes -/

/-- The bytes of the first line of a frame, up to its line feed. -/
def headLine (n : Nat) : Bytes := Text.encodeChars (lengthLine n ++ ['\r'])

def carriageReturn : UInt8 := 13

theorem write_eq (body : Bytes) :
    write body = headLine body.length ++ lineFeed :: carriageReturn :: lineFeed :: body := by
  have htext : lengthName ++ ':' :: ' ' :: (Text.writeNumeral body.length ++
      ['\r', '\n', '\r', '\n']) = (lengthLine body.length ++ ['\r']) ++ ['\n', '\r', '\n'] := by
    simp only [lengthLine, List.append_assoc, List.cons_append, List.nil_append]
  have hend : Text.encodeChars ['\n', '\r', '\n'] = [lineFeed, carriageReturn, lineFeed] := rfl
  rw [write, htext, Text.encodeChars_append, hend, headLine, List.append_assoc]
  rfl

theorem lineFeed_not_mem_encodeChars {s : List Char} (hs : '\n' ∉ s) :
    lineFeed ∉ Text.encodeChars s := by
  intro hmem
  obtain ⟨c, hc, hbyte⟩ := List.mem_flatMap.1 hmem
  have hcode : 10 = c.toNat := Text.toNat_eq_of_mem_encodeChar (by decide) hbyte
  have hfeed : c = '\n' := by
    rw [← Char.ofNat_toNat c, ← hcode]
  exact hs (hfeed ▸ hc)

theorem newline_not_mem_lengthLine (n : Nat) : '\n' ∉ lengthLine n ++ ['\r'] := by
  rw [lengthLine_eq_append, List.mem_append, List.mem_append]
  rintro ((hname | hdigit) | hreturn)
  · exact absurd hname (by decide)
  · exact absurd (Text.isDigit_of_mem_writeNumeral hdigit) (by decide)
  · exact absurd hreturn (by decide)

theorem lineFeed_not_mem_headLine (n : Nat) : lineFeed ∉ headLine n :=
  lineFeed_not_mem_encodeChars (newline_not_mem_lengthLine n)

theorem cutLine?_append {front : Bytes} (hfront : lineFeed ∉ front) (rest : Bytes) :
    cutLine? (front ++ lineFeed :: rest) = some (front ++ [lineFeed], rest) := by
  induction front with
  | nil => rfl
  | cons b front ih =>
    have hb : b ≠ lineFeed := fun h ↦ hfront (h ▸ List.mem_cons_self)
    have hrest := ih fun h ↦ hfront (List.mem_cons_of_mem _ h)
    simp only [List.cons_append, cutLine?, hb, if_false, hrest, Option.map_some]

theorem cutLine?_eq_none {s : Bytes} (hs : lineFeed ∉ s) : cutLine? s = none := by
  induction s with
  | nil => rfl
  | cons b s ih =>
    have hb : b ≠ lineFeed := fun h ↦ hs (h ▸ List.mem_cons_self)
    simp only [cutLine?, hb, if_false, ih fun h ↦ hs (List.mem_cons_of_mem _ h), Option.map_none]

theorem line?_append {front : Bytes} (hfront : lineFeed ∉ front) (closed : Bool) (rest : Bytes) :
    line? closed (front ++ lineFeed :: rest) = some (front ++ [lineFeed], rest) := by
  rw [line?, cutLine?_append hfront]

theorem line?_last {s : Bytes} (hs : lineFeed ∉ s) (hne : s ≠ []) :
    line? true s = some (s, []) := by
  rw [line?, cutLine?_eq_none hs]
  exact if_pos ⟨rfl, hne⟩

theorem lines_nil {h : Header} (hseen : h.seen = true) (fuel : Nat) :
    lines true (fuel + 1) h [] = .fault .endInHeader := by
  have hline : line? true [] = none := rfl
  simp [lines, hline, hseen]

theorem lines_headLine {n : Nat} (hn : n < Text.limit64) (closed : Bool) (fuel : Nat) (h : Header)
    (rest : Bytes) :
    lines closed (fuel + 1) h (headLine n ++ lineFeed :: rest) =
      lines closed fuel ⟨true, some n⟩ rest := by
  have hbytes : headLine n ++ [lineFeed] = Text.encodeChars (lengthLine n ++ ['\r', '\n']) := by
    simp only [headLine, Text.encodeChars_append, List.append_assoc]
    rfl
  have hne : lengthLine n ≠ [] := List.cons_ne_nil _ _
  rw [lines, line?_append (lineFeed_not_mem_headLine n)]
  simp only [hbytes, Text.decodeChars_encodeChars, trim_lengthLine, hne, if_false,
    take_lengthLine hn]

/-- Behind a header, the blank line leads to the body. -/
theorem lines_blank {h : Header} (hseen : h.seen = true) (closed : Bool) (fuel : Nat)
    (rest : Bytes) :
    lines closed (fuel + 1) h (carriageReturn :: lineFeed :: rest) = body closed h rest := by
  have hline : line? closed (carriageReturn :: lineFeed :: rest) =
      some ([carriageReturn, lineFeed], rest) := rfl
  have hdecode : Text.decodeChars [carriageReturn, lineFeed] = .ok ['\r', '\n'] :=
    Text.decodeChars_encodeChars ['\r', '\n']
  have htrim : Text.trim ['\r', '\n'] = [] := by decide
  simp only [lines, hline, hdecode, htrim, hseen, if_true]

/-- At the end of the stream, the blank line needs no line feed. -/
theorem lines_blank_end {h : Header} (hseen : h.seen = true) (fuel : Nat) :
    lines true (fuel + 1) h [carriageReturn] = body true h [] := by
  have hline : line? true [carriageReturn] = some ([carriageReturn], []) := rfl
  have hdecode : Text.decodeChars [carriageReturn] = .ok ['\r'] :=
    Text.decodeChars_encodeChars ['\r']
  have htrim : Text.trim ['\r'] = [] := by decide
  simp only [lines, hline, hdecode, htrim, hseen, if_true]

theorem body_of_short {n : Nat} {s : Bytes} (hn : n < oversizeFrom) (hs : s.length < n) :
    body true ⟨true, some n⟩ s = .fault .endInBody := by
  simp only [body, if_neg (Nat.not_le.2 hn), if_neg (Nat.not_le.2 hs), if_true]

theorem body_of_append {b : Bytes} (hn : b.length < oversizeFrom) (closed : Bool) (rest : Bytes) :
    body closed ⟨true, some b.length⟩ (b ++ rest) = .frame b rest := by
  have hlength : b.length ≤ (b ++ rest).length := by simp
  simp only [body, if_neg (Nat.not_le.2 hn), if_pos hlength, List.take_left, List.drop_left]

/-! ## One frame, and the front of one -/

theorem oversizeFrom_le_limit64 : oversizeFrom ≤ Text.limit64 := by decide

/-- Behind the first line, reading goes on with fuel enough for the rest. -/
theorem next_headLine {n : Nat} (hn : n < oversizeFrom) (closed : Bool) (rest : Bytes) :
    ∃ fuel, rest.length < fuel ∧
      next closed (headLine n ++ lineFeed :: rest) = lines closed fuel ⟨true, some n⟩ rest := by
  refine ⟨(headLine n ++ lineFeed :: rest).length, ?_,
    lines_headLine (Nat.lt_of_lt_of_le hn oversizeFrom_le_limit64) closed _ _ rest⟩
  rw [List.length_append, List.length_cons]
  omega

/-- A frame is read back whole, whatever stands behind it. -/
theorem next_write {b : Bytes} (hb : b.length < oversizeFrom) (closed : Bool) (rest : Bytes) :
    next closed (write b ++ rest) = .frame b rest := by
  obtain ⟨fuel, hfuel, hnext⟩ :=
    next_headLine hb closed (carriageReturn :: lineFeed :: (b ++ rest))
  obtain ⟨fuel, rfl⟩ := Nat.exists_eq_succ_of_ne_zero (Nat.ne_of_gt (Nat.zero_lt_of_lt hfuel))
  rw [write_eq, List.append_assoc]
  exact hnext.trans ((lines_blank rfl closed fuel _).trans (body_of_append hb closed rest))

/-- The front of the frame of an empty body that misses nothing but the last line feed. -/
def Lacks (b front : Bytes) : Prop := b = [] ∧ front ++ [lineFeed] = write b

theorem next_lacking {b front : Bytes} (hlacks : Lacks b front) :
    next true front = .frame b [] := by
  obtain ⟨rfl, hwrite⟩ := hlacks
  have hfront : front = headLine 0 ++ lineFeed :: [carriageReturn] := by
    have hwhole : write [] = (headLine 0 ++ lineFeed :: [carriageReturn]) ++ [lineFeed] := by
      rw [write_eq, List.append_assoc]
      rfl
    exact List.append_cancel_right (hwrite.trans hwhole)
  obtain ⟨fuel, hfuel, hnext⟩ := next_headLine (n := 0) (by decide) true [carriageReturn]
  obtain ⟨fuel, rfl⟩ := Nat.exists_eq_succ_of_ne_zero (Nat.ne_of_gt (Nat.zero_lt_of_lt hfuel))
  rw [hfront, hnext, lines_blank_end rfl]
  rfl

/-- A stream that ends inside the first line of a frame has no further one. -/
theorem next_of_prefix_headLine {n : Nat} {front : Bytes} (hfront : front <+: headLine n)
    (hne : front ≠ []) : ∃ f, next true front = .fault f := by
  obtain ⟨b, s, rfl⟩ := List.exists_cons_of_ne_nil hne
  have hfirst : b = 67 := by
    have hhead : headLine n = 67 :: (headLine n).tail := rfl
    rw [hhead] at hfront
    exact (List.cons_prefix_cons.1 hfront).1
  have hline : line? true (b :: s) = some (b :: s, []) :=
    line?_last (fun hmem ↦ lineFeed_not_mem_headLine n (hfront.subset hmem)) hne
  rw [next, List.length_cons, lines, hline]
  simp only
  split
  · exact ⟨_, rfl⟩
  · rename_i chars hdecode
    have htrim : Text.trim chars ≠ [] := by
      have hbytes : b :: s = Text.encodeChar 'C' ++ s := by
        rw [hfirst]
        rfl
      rw [hbytes] at hdecode
      obtain ⟨rest, rfl⟩ := Text.exists_eq_cons_of_decodeChars hdecode
      exact Text.trim_ne_nil (by decide)
    rw [if_neg htrim]
    split
    · exact ⟨_, rfl⟩
    · rename_i h htake
      exact ⟨_, lines_nil (seen_of_take htake) _⟩

theorem prefix_append_cases {α : Type} {s front back : List α} (h : s <+: front ++ back) :
    s <+: front ∨ ∃ rest, s = front ++ rest ∧ rest <+: back := by
  rcases List.prefix_or_prefix_of_prefix h (List.prefix_append front back) with hs | ⟨rest, rfl⟩
  · exact .inl hs
  · exact .inr ⟨rest, rfl, (List.prefix_append_right_inj front).1 h⟩

/-- Any other front of a frame is no frame: reading it fails. -/
theorem next_cut {b front : Bytes} (hb : b.length < oversizeFrom) (hfront : front <+: write b)
    (hne : front ≠ []) (hcut : front ≠ write b) (hlacks : ¬ Lacks b front) :
    ∃ f, next true front = .fault f := by
  rw [write_eq] at hfront hcut
  rcases prefix_append_cases hfront with hline | ⟨tail, rfl, htail⟩
  · exact next_of_prefix_headLine hline hne
  rcases List.prefix_cons_iff.1 htail with rfl | ⟨rest, rfl, hrest⟩
  · rw [List.append_nil] at hne ⊢
    exact next_of_prefix_headLine (List.prefix_refl _) hne
  -- the first line is whole, so the length is known, and what is missing is missing behind it
  obtain ⟨fuel, hfuel, hnext⟩ := next_headLine hb true rest
  obtain ⟨fuel, rfl⟩ := Nat.exists_eq_succ_of_ne_zero (Nat.ne_of_gt (Nat.zero_lt_of_lt hfuel))
  rw [hnext]
  rcases List.prefix_cons_iff.1 hrest with rfl | ⟨blank, rfl, hblank⟩
  · exact ⟨_, lines_nil rfl fuel⟩
  rcases List.prefix_cons_iff.1 hblank with rfl | ⟨part, rfl, hpart⟩
  · have hlong : 0 < b.length := by
      refine List.length_pos_iff.2 fun hnil ↦ hlacks ⟨hnil, ?_⟩
      rw [write_eq, hnil, List.append_assoc]
      rfl
    exact ⟨_, (lines_blank_end rfl fuel).trans (body_of_short hb hlong)⟩
  · have hshort : part.length < b.length := by
      refine Nat.lt_of_le_of_ne hpart.length_le fun hlength ↦ hcut ?_
      rw [hpart.eq_of_length hlength]
    exact ⟨_, (lines_blank rfl true fuel part).trans (body_of_short hb hshort)⟩

/-! ## Streams of frames -/

/-- The frames of these bodies, one behind the other. -/
def writeAll (bodies : List Bytes) : Bytes := bodies.flatMap write

theorem writeAll_cons (b : Bytes) (bodies : List Bytes) :
    writeAll (b :: bodies) = write b ++ writeAll bodies := rfl

theorem writeAll_append (front back : List Bytes) :
    writeAll (front ++ back) = writeAll front ++ writeAll back := List.flatMap_append

theorem writeAll_singleton (b : Bytes) : writeAll [b] = write b := List.append_nil _

theorem length_le_writeAll (bodies : List Bytes) : bodies.length ≤ (writeAll bodies).length := by
  induction bodies with
  | nil => exact Nat.le_refl _
  | cons b bodies ih =>
    have hpos : 0 < (write b).length := by
      rw [write_eq, List.length_append, List.length_cons]
      omega
    rw [writeAll_cons, List.length_append, List.length_cons]
    omega

/-- Every body is of a length that a body can have. -/
def Fit (bodies : List Bytes) : Prop := ∀ b ∈ bodies, b.length < 0x8000000000000000

/-- Whole frames are read one after another; then what stands behind them is read. -/
theorem readFrom_writeAll_append {read : List Bytes} (hfit : Fit read) (fuel : Nat)
    (front : Bytes) :
    readFrom (read.length + fuel) (writeAll read ++ front) =
      (read ++ (readFrom fuel front).1, (readFrom fuel front).2) := by
  induction read with
  | nil => simp only [List.length_nil, Nat.zero_add, writeAll, List.flatMap_nil, List.nil_append]
  | cons b read ih =>
    have hb := hfit b List.mem_cons_self
    have hread := ih fun b hb ↦ hfit b (List.mem_cons_of_mem _ hb)
    have hfuel : (b :: read).length + fuel = (read.length + fuel) + 1 := by
      rw [List.length_cons]
      omega
    rw [hfuel, writeAll_cons, List.append_assoc, readFrom, next_write hb]
    simp only [hread, List.cons_append]

theorem exists_readAll_writeAll_append {read : List Bytes} (hfit : Fit read) (front : Bytes) :
    ∃ fuel, readAll (writeAll read ++ front) =
      (read ++ (readFrom (fuel + 1) front).1, (readFrom (fuel + 1) front).2) := by
  have hlength := length_le_writeAll read
  have hfuel : (writeAll read ++ front).length + 1 =
      read.length + ((writeAll read ++ front).length - read.length + 1) := by
    rw [List.length_append]
    omega
  refine ⟨(writeAll read ++ front).length - read.length, ?_⟩
  rw [readAll, hfuel, readFrom_writeAll_append hfit]

theorem readFrom_nil (fuel : Nat) : readFrom fuel [] = ([], .ended) := by
  cases fuel <;> rfl

/-- The whole stream gives the bodies back and ends. -/
theorem readAll_writeAll {bodies : List Bytes} (hfit : Fit bodies) :
    readAll (writeAll bodies) = (bodies, .ended) := by
  obtain ⟨fuel, hread⟩ := exists_readAll_writeAll_append hfit []
  rw [List.append_nil, readFrom_nil, List.append_nil] at hread
  exact hread

theorem readAll_of_lacking {read : List Bytes} {b front : Bytes} (hfit : Fit read)
    (hlacks : Lacks b front) : readAll (writeAll read ++ front) = (read ++ [b], .ended) := by
  obtain ⟨fuel, hread⟩ := exists_readAll_writeAll_append hfit front
  rw [hread, readFrom, next_lacking hlacks]
  simp only [readFrom_nil]

/-- Cut anywhere else, the stream gives the bodies before the cut and fails. -/
theorem readAll_of_cut {read : List Bytes} {b front : Bytes} (hfit : Fit read)
    (hb : b.length < oversizeFrom) (hfront : front <+: write b) (hne : front ≠ [])
    (hcut : front ≠ write b) (hlacks : ¬ Lacks b front) :
    ∃ f, readAll (writeAll read ++ front) = (read, .fault f) := by
  obtain ⟨fuel, hread⟩ := exists_readAll_writeAll_append hfit front
  obtain ⟨f, hnext⟩ := next_cut hb hfront hne hcut hlacks
  refine ⟨f, ?_⟩
  rw [hread, readFrom, hnext, List.append_nil]

/-- A stream is cut between two frames or inside one. -/
theorem exists_cut {bodies : List Bytes} {s : Bytes} (hs : s <+: writeAll bodies) :
    (∃ read, read <+: bodies ∧ s = writeAll read) ∨
      ∃ read b front, read ++ [b] <+: bodies ∧ s = writeAll read ++ front ∧ front <+: write b ∧
        front ≠ [] ∧ front ≠ write b := by
  induction bodies generalizing s with
  | nil => exact .inl ⟨[], List.prefix_refl _, List.prefix_nil.1 hs⟩
  | cons b bodies ih =>
    rw [writeAll_cons] at hs
    rcases prefix_append_cases hs with hfront | ⟨rest, rfl, hrest⟩
    · by_cases hnil : s = []
      · exact .inl ⟨[], List.nil_prefix, hnil⟩
      by_cases hwhole : s = write b
      · exact .inl ⟨[b], List.prefix_append [b] bodies, hwhole.trans (writeAll_singleton b).symm⟩
      · exact .inr ⟨[], b, s, List.prefix_append [b] bodies, rfl, hfront, hnil, hwhole⟩
    · rcases ih hrest with ⟨read, hread, rfl⟩ | ⟨read, c, front, hread, rfl, hfront, hcut⟩
      · exact .inl ⟨b :: read, List.cons_prefix_cons.2 ⟨rfl, hread⟩, rfl⟩
      · refine .inr ⟨b :: read, c, front, List.cons_prefix_cons.2 ⟨rfl, hread⟩, ?_, hfront, hcut⟩
        rw [writeAll_cons, List.append_assoc]

/-! ## Where a stream ends -/

/-- The stream ends behind the frame of the last of the bodies read. -/
def EndsBehind (bodies read : List Bytes) (s : Bytes) : Prop :=
  read <+: bodies ∧ s = writeAll read

/-- The last of the bodies read is empty, and of its frame the stream misses the last line feed. -/
def EndsBeforeLineFeed (bodies read : List Bytes) (s : Bytes) : Prop :=
  read <+: bodies ∧ read.getLast? = some [] ∧ s ++ [lineFeed] = writeAll read

/-- The bodies read are just those whose frames lie in the stream whole. -/
def Holds (bodies read : List Bytes) (s : Bytes) : Prop :=
  read <+: bodies ∧ writeAll read <+: s ∧
    ∀ b, read ++ [b] <+: bodies → ¬ writeAll (read ++ [b]) <+: s

variable {bodies read : List Bytes} {s : Bytes}

theorem Fit.of_isPrefix (hfit : Fit bodies) (hread : read <+: bodies) : Fit read :=
  fun b hb ↦ hfit b (hread.subset hb)

theorem readAll_of_endsBehind (hfit : Fit bodies) (hends : EndsBehind bodies read s) :
    readAll s = (read, .ended) := by
  rw [hends.2]
  exact readAll_writeAll (Fit.of_isPrefix hfit hends.1)

theorem readAll_of_endsBeforeLineFeed (hfit : Fit bodies)
    (hends : EndsBeforeLineFeed bodies read s) : readAll s = (read, .ended) := by
  obtain ⟨hread, hlast, hs⟩ := hends
  obtain ⟨init, rfl⟩ := List.getLast?_eq_some_iff.1 hlast
  have hlacks : Lacks [] (headLine 0 ++ lineFeed :: [carriageReturn]) := by
    refine ⟨rfl, ?_⟩
    rw [write_eq, List.append_assoc]
    rfl
  have hs' : s = writeAll init ++ (headLine 0 ++ lineFeed :: [carriageReturn]) := by
    rw [writeAll_append, writeAll_singleton, ← hlacks.2, ← List.append_assoc] at hs
    exact List.append_cancel_right hs
  have hinit : Fit init := Fit.of_isPrefix hfit ((List.prefix_append init [[]]).trans hread)
  rw [hs']
  exact readAll_of_lacking hinit hlacks

theorem holds_of_cut {b front : Bytes} (hread : read ++ [b] <+: bodies)
    (hs : s = writeAll read ++ front) (hfront : front <+: write b) (hcut : front ≠ write b) :
    Holds bodies read s := by
  refine ⟨(List.prefix_append read [b]).trans hread, ⟨front, hs.symm⟩, fun c hc hwhole ↦ ?_⟩
  have hlength : (read ++ [c]).length = (read ++ [b]).length := by
    rw [List.length_append, List.length_append, List.length_singleton, List.length_singleton]
  have hprefix := List.prefix_of_prefix_length_le hc hread (Nat.le_of_eq hlength)
  have hsame := hprefix.eq_of_length hlength
  rw [hsame, hs, writeAll_append, writeAll_singleton, List.prefix_append_right_inj] at hwhole
  exact hcut (hfront.eq_of_length (Nat.le_antisymm hfront.length_le hwhole.length_le))

/-- Either the stream ends as a whole one does, or what it holds whole is read and then it fails. -/
theorem readAll_cases (hfit : Fit bodies) (hs : s <+: writeAll bodies) :
    (∃ read, (EndsBehind bodies read s ∨ EndsBeforeLineFeed bodies read s) ∧
      readAll s = (read, .ended)) ∨
    ∃ read f, Holds bodies read s ∧ readAll s = (read, .fault f) := by
  rcases exists_cut hs with
    ⟨read, hread, hwhole⟩ | ⟨read, b, front, hread, hs, hfront, hne, hcut⟩
  · have hends : EndsBehind bodies read s := ⟨hread, hwhole⟩
    exact .inl ⟨read, .inl hends, readAll_of_endsBehind hfit hends⟩
  by_cases hlacks : Lacks b front
  · have hends : EndsBeforeLineFeed bodies (read ++ [b]) s := by
      refine ⟨hread, ?_, ?_⟩
      · rw [hlacks.1, List.getLast?_append, List.getLast?_singleton]
        rfl
      · rw [hs, List.append_assoc, hlacks.2, writeAll_append, writeAll_singleton]
    exact .inl ⟨_, .inr hends, readAll_of_endsBeforeLineFeed hfit hends⟩
  · have hb : b.length < oversizeFrom := hfit b (hread.subset (by simp))
    have hinit : Fit read := Fit.of_isPrefix hfit ((List.prefix_append read [b]).trans hread)
    obtain ⟨f, hfault⟩ := readAll_of_cut hinit hb hfront hne hcut hlacks
    rw [← hs] at hfault
    exact .inr ⟨read, f, holds_of_cut hread hs hfront hcut, hfault⟩

/-- However a stream of frames is cut, reading it gives the first ones of the bodies, whole and
unchanged. It ends without a fault just if the stream ends behind a frame, or before the last line
feed of the frame of an empty body, which is then read too; otherwise it fails, behind the bodies
that the stream holds whole. The stream that is not cut gives all the bodies. -/
theorem cut_stream_reads_back (hfit : Fit bodies) (hs : s <+: writeAll bodies) :
    (readAll s).1 <+: bodies ∧
    ((readAll s).2 = .ended ↔
      ∃ read, EndsBehind bodies read s ∨ EndsBeforeLineFeed bodies read s) ∧
    (∀ read, EndsBehind bodies read s ∨ EndsBeforeLineFeed bodies read s → (readAll s).1 = read) ∧
    ((readAll s).2 ≠ .ended →
      (∃ f, (readAll s).2 = .fault f) ∧ Holds bodies (readAll s).1 s) ∧
    readAll (writeAll bodies) = (bodies, .ended) := by
  have hended {read : List Bytes}
      (hends : EndsBehind bodies read s ∨ EndsBeforeLineFeed bodies read s) :
      readAll s = (read, .ended) :=
    hends.elim (readAll_of_endsBehind hfit) (readAll_of_endsBeforeLineFeed hfit)
  refine ⟨?_, ⟨fun hend ↦ ?_, ?_⟩, ?_, fun hfails ↦ ?_, readAll_writeAll hfit⟩
  · rcases readAll_cases hfit hs with ⟨read, hends, hread⟩ | ⟨read, f, hholds, hread⟩
    · rw [hread]
      exact hends.elim And.left And.left
    · rw [hread]
      exact hholds.1
  · rcases readAll_cases hfit hs with ⟨read, hends, -⟩ | ⟨read, f, -, hread⟩
    · exact ⟨read, hends⟩
    · rw [hread] at hend
      contradiction
  · rintro ⟨read, hends⟩
    rw [hended hends]
  · intro read hends
    rw [hended hends]
  · rcases readAll_cases hfit hs with ⟨read, -, hread⟩ | ⟨read, f, hholds, hread⟩
    · exact absurd (congrArg Prod.snd hread) hfails
    · rw [hread]
      exact ⟨⟨f, rfl⟩, hholds⟩

/-- A body that looks like a header, and an empty one whose frame misses the last line feed. -/
theorem cut_stream_reads_back_lineFeed :
    let bodies := [write [lineFeed], []]
    let s := writeAll [write [lineFeed]] ++ headLine 0 ++ [lineFeed, carriageReturn]
    Fit bodies ∧ s <+: writeAll bodies ∧ readAll s = (bodies, .ended) := by
  intro bodies s
  have hfit : ∀ b ∈ [write [lineFeed], []], b.length < oversizeFrom := by decide
  have hs : s ++ [lineFeed] = writeAll bodies := by rfl
  have hends : EndsBeforeLineFeed bodies bodies s := ⟨List.prefix_refl _, rfl, hs⟩
  have hread := cut_stream_reads_back hfit ⟨[lineFeed], hs⟩
  exact ⟨hfit, ⟨[lineFeed], hs⟩,
    Prod.ext (hread.2.2.1 _ (.inr hends)) (hread.2.1.2 ⟨_, .inr hends⟩)⟩

end Depot.Rpc.Frame
