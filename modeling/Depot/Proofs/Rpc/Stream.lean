import Depot.Proofs.Rpc.Grammar

/-!
# What a stream begins with

Whatever the bytes of a closed stream are, its front is the end of it, or a fault, or a header that
nothing spoils, with a length (`next_cases`); reading comes there line by line, and a line that is
text ends with its line feed or with the stream (`line_or_tail`, `lines_cases`). So what is read as
a frame is told by the grammar (`next_eq_frame_iff`), and so is the one thing that cannot be read at
all, a length that no body can have (`next_eq_oversize_iff`). A frame takes more bytes than its body
has (`length_of_frame`), so a stream has no more frames than bytes (`Takes.length_le`).
-/

set_option autoImplicit false
set_option relaxedAutoImplicit false

namespace Depot.Rpc.Frame

variable {s line rest front b : Bytes} {chars : List Char} {h : Header} {fuel n : Nat}
  {saids : List (List Char)}

/-! ## The lines of any stream -/

theorem eq_append_of_cutLine? (hcut : cutLine? s = some (line, rest)) :
    ∃ front, lineFeed ∉ front ∧ line = front ++ [lineFeed] ∧ s = line ++ rest := by
  induction s generalizing line with
  | nil => cases hcut
  | cons b s ih =>
    rw [cutLine?] at hcut
    split at hcut
    · rename_i hfeed
      cases hcut
      exact ⟨[], List.not_mem_nil, by rw [hfeed]; rfl, rfl⟩
    · rename_i hother
      obtain ⟨⟨line', rest'⟩, hrest, heq⟩ := Option.map_eq_some_iff.1 hcut
      cases heq
      obtain ⟨front, hfront, rfl, rfl⟩ := ih hrest
      exact ⟨b :: front, List.not_mem_cons_of_ne_of_not_mem (Ne.symm hother) hfront, rfl, rfl⟩

theorem not_mem_of_cutLine? (hcut : cutLine? s = none) : lineFeed ∉ s := by
  intro hmem
  obtain ⟨front, rest, rfl, hfront⟩ := List.eq_append_cons_of_mem hmem
  rw [cutLine?_append hfront] at hcut
  cases hcut

theorem lineFeed_mem_encodeChars (hmem : '\n' ∈ chars) : lineFeed ∈ Text.encodeChars chars :=
  List.mem_flatMap.2 ⟨'\n', hmem, List.mem_singleton_self _⟩

/-- Text ends with a line break if its bytes end with a line feed. -/
theorem exists_eq_concat (hbytes : Text.encodeChars chars = front ++ [lineFeed])
    (hfront : lineFeed ∉ front) : ∃ t, '\n' ∉ t ∧ chars = t ++ ['\n'] := by
  rcases List.eq_nil_or_concat chars with rfl | ⟨t, c, rfl⟩
  · exact absurd hbytes.symm (List.append_ne_nil_of_right_ne_nil _ (List.cons_ne_nil _ _))
  rw [List.concat_eq_append] at hbytes ⊢
  have hsingle : Text.encodeChars [c] = Text.encodeChar c := List.append_nil _
  rw [Text.encodeChars_append, hsingle] at hbytes
  have hlast : lineFeed ∈ Text.encodeChar c := by
    rw [← List.dropLast_concat_getLast (Text.encodeChar_ne_nil c), ← List.append_assoc] at hbytes
    have hsame := List.singleton_inj.1 (List.append_inj' hbytes rfl).2
    exact hsame ▸ List.getLast_mem _
  have hcode : 10 = c.toNat := Text.toNat_eq_of_mem_encodeChar (by decide) hlast
  obtain rfl : c = '\n' := by
    rw [← Char.ofNat_toNat c, ← hcode]
  obtain rfl : Text.encodeChars t = front := List.append_cancel_right hbytes
  exact ⟨t, fun hmem ↦ hfront (lineFeed_mem_encodeChars hmem), rfl⟩

/-- A line that is text ends with its line feed, or with the stream. -/
theorem line_or_tail (hline : line? true s = some (line, rest))
    (hdecode : Text.decodeChars line = .ok chars) : s = line ++ rest ∧ line ≠ [] ∧
      (Line line (Text.trim chars) ∨ rest = [] ∧ Tail line (Text.trim chars)) := by
  have hbytes := Text.decodeChars_eq_ok_iff.1 hdecode
  cases hcut : cutLine? s with
  | some p =>
    have hp : p = (line, rest) := by
      rw [line?, hcut] at hline
      exact Option.some.inj hline
    rw [hp] at hcut
    obtain ⟨front, hfront, rfl, rfl⟩ := eq_append_of_cutLine? hcut
    obtain ⟨t, ht, rfl⟩ := exists_eq_concat hbytes.symm hfront
    exact ⟨rfl, List.append_ne_nil_of_right_ne_nil _ (List.cons_ne_nil _ _),
      .inl ⟨t, ht, hbytes, rfl⟩⟩
  | none =>
    rw [line?, hcut] at hline
    by_cases hne : s = []
    · simp [hne] at hline
    · simp only [ne_eq, hne, not_false_eq_true, and_self, if_true, Option.some.injEq,
        Prod.mk.injEq] at hline
      obtain ⟨rfl, rfl⟩ := hline
      refine ⟨(List.append_nil _).symm, hne, .inr ⟨rfl, chars, fun hmem ↦ ?_, hbytes, rfl⟩⟩
      exact not_mem_of_cutLine? hcut (hbytes.symm ▸ lineFeed_mem_encodeChars hmem)

theorem eq_nil_of_line? (hline : line? true s = none) : s = [] := by
  unfold line? at hline
  split at hline
  · cases hline
  · simpa using hline

/-! ## What a stream begins with -/

/-- The blank line behind a header; at the end of the stream it needs no line feed. -/
def Blank (blank rest : Bytes) : Prop :=
  blank ≠ [] ∧ (Line blank [] ∨ rest = [] ∧ Tail blank [])

/-- The stream begins with a header that nothing spoils, and the rest stands behind it. -/
inductive Headed : Bytes → List (List Char) → Bytes → Prop where
  | intro {blanks header blank rest : Bytes} {saids : List (List Char)} : BlankLines blanks →
      Says header saids → saids ≠ [] → (∀ said ∈ saids, Sound said) → Blank blank rest →
      Headed (blanks ++ (header ++ (blank ++ rest))) saids rest

theorem lines_of_blank_line {blank : Bytes} (hblank : Blank blank rest) {length? : Option Nat}
    (fuel : Nat) :
    lines true (fuel + 1) ⟨true, length?⟩ (blank ++ rest) = body true ⟨true, length?⟩ rest := by
  obtain ⟨hne, hline | ⟨rfl, htail⟩⟩ := hblank
  · exact lines_of_blank hline fuel _ rest
  · rw [List.append_nil, lines_of_tail htail hne]
    rfl

theorem sound_of_takeAll {h' : Header} (htake : takeAll h saids = .ok h') :
    ∀ said ∈ saids, Sound said := by
  refine fun said hmem ↦ Classical.byContradiction fun hbad ↦ ?_
  obtain ⟨f, hspoiled⟩ := exists_spoiled ⟨said, hmem, hbad⟩
  rw [takeAll_of_spoiled hspoiled] at htake
  contradiction

/-- Whatever the bytes are, reading lines comes to the end of the stream, to a fault, or to the
blank line behind a header. -/
theorem lines_cases (hfuel : s.length < fuel) (h : Header) :
    lines true fuel h s = .ended ∨ (∃ f, lines true fuel h s = .fault f) ∨
      ∃ blanks header saids blank rest h', BlankLines blanks ∧ (h.seen = true → blanks = []) ∧
        Says header saids ∧ (h.seen = false → saids ≠ []) ∧ takeAll h saids = .ok h' ∧
        Blank blank rest ∧ s = blanks ++ (header ++ (blank ++ rest)) ∧
        lines true fuel h s = body true h' rest := by
  induction fuel generalizing s h with
  | zero => exact absurd hfuel (Nat.not_lt_zero _)
  | succ fuel ih =>
    cases hline : line? true s with
    | none =>
      rw [eq_nil_of_line? hline, lines_at_end]
      cases h.seen with
      | true => exact .inr (.inl ⟨_, rfl⟩)
      | false => exact .inl rfl
    | some p =>
      obtain ⟨line, rest⟩ := p
      cases hdecode : Text.decodeChars line with
      | error fault =>
        exact .inr (.inl ⟨.notText fault, by simp only [lines, hline, hdecode]⟩)
      | ok chars =>
        obtain ⟨rfl, hne, hends⟩ := line_or_tail hline hdecode
        have hpos := List.length_pos_iff.2 hne
        rw [List.length_append] at hfuel
        have hrest : rest.length < fuel := by omega
        -- where more lines follow, this one has its line feed
        have hwhole : rest ≠ [] → Line line (Text.trim chars) :=
          fun hmore ↦ hends.resolve_right fun hlast ↦ hmore hlast.1
        by_cases hsaid : Text.trim chars = []
        · rw [hsaid] at hends hwhole
          cases hseen : h.seen with
          | true =>
            have hbody : lines true (fuel + 1) h (line ++ rest) = body true h rest := by
              simp only [lines, hline, hdecode, hsaid, hseen, if_true]
            exact .inr (.inr ⟨[], [], [], line, rest, h, .nil, fun _ ↦ rfl, .nil,
              (Bool.noConfusion ·), rfl, ⟨hne, hends⟩, rfl, hbody⟩)
          | false =>
            have hstep : lines true (fuel + 1) h (line ++ rest) = lines true fuel h rest := by
              simp only [lines, hline, hdecode, hsaid, hseen, if_true, Bool.false_eq_true, if_false]
            rw [hstep]
            refine (ih hrest h).imp_right (Or.imp_right ?_)
            rintro ⟨blanks, header, saids, blank, rest, h', hblanks, -, htold, hsome, htake, hblank,
              rfl, hbody⟩
            have hmore : blanks ++ (header ++ (blank ++ rest)) ≠ [] := by simp [hblank.1]
            exact ⟨line ++ blanks, header, saids, blank, rest, h', .cons (hwhole hmore) hblanks,
              (Bool.noConfusion ·), htold, fun _ ↦ hsome hseen, htake, hblank,
              (List.append_assoc _ _ _).symm, hbody⟩
        · cases htake : h.take (Text.trim chars) with
          | error f =>
            exact .inr (.inl ⟨f, by simp only [lines, hline, hdecode, hsaid, if_false, htake]⟩)
          | ok next =>
            have hstep : lines true (fuel + 1) h (line ++ rest) = lines true fuel next rest := by
              simp only [lines, hline, hdecode, hsaid, if_false, htake]
            rw [hstep]
            refine (ih hrest next).imp_right (Or.imp_right ?_)
            rintro ⟨blanks, header, saids, blank, rest, h', -, hnone, htold, -, htakes, hblank, rfl,
              hbody⟩
            obtain rfl := hnone (seen_of_take htake)
            have hmore : [] ++ (header ++ (blank ++ rest)) ≠ [] := by simp [hblank.1]
            exact ⟨[], line ++ header, Text.trim chars :: saids, blank, rest, h', .nil, fun _ ↦ rfl,
              .cons (hwhole hmore) hsaid htold, fun _ ↦ List.cons_ne_nil _ _,
              (takeAll_cons_of_ok htake).trans htakes, hblank,
              by rw [List.nil_append, List.nil_append, List.append_assoc], hbody⟩

theorem next_of_headed (hheaded : Headed s saids rest) (hlast : LastLength saids n) :
    next true s = body true ⟨true, some n⟩ rest := by
  obtain ⟨hblanks, htold, -, hsound, hblank⟩ := hheaded
  rename_i blanks header blank
  obtain ⟨left, hleft, hnext⟩ := next_says hblanks htold true (blank ++ rest)
  obtain ⟨left, rfl⟩ := Nat.exists_eq_succ_of_ne_zero (Nat.ne_of_gt (Nat.zero_lt_of_lt hleft))
  rw [hnext, takeAll_of_lastLength hsound hlast]
  exact lines_of_blank_line hblank left

/-- The front of a closed stream is its end, or a fault, or a header with a length. -/
theorem next_cases (s : Bytes) :
    next true s = .ended ∨ (∃ f, next true s = .fault f) ∨ ∃ saids rest n, Headed s saids rest ∧
      LastLength saids n ∧ next true s = body true ⟨true, some n⟩ rest := by
  rcases lines_cases (Nat.lt_succ_self s.length) {} with hended | hfault |
    ⟨blanks, header, saids, blank, rest, h', hblanks, -, htold, hsome, htake, hblank, rfl, hbody⟩
  · exact .inl hended
  · exact .inr (.inl hfault)
  have hsound := sound_of_takeAll htake
  by_cases hgives : ∃ said ∈ saids, ∃ n, Gives said n
  · obtain ⟨n, hlast⟩ := exists_lastLength hgives
    have hheaded : Headed _ saids rest := .intro hblanks htold (hsome rfl) hsound hblank
    exact .inr (.inr ⟨saids, rest, n, hheaded, hlast, next_of_headed hheaded hlast⟩)
  · have hnone := takeAll_of_no_length hsound (hsome rfl)
      fun said hmem n hn ↦ hgives ⟨said, hmem, n, hn⟩
    obtain rfl := Except.ok.inj (htake.symm.trans hnone)
    exact .inr (.inl ⟨.noLength, hbody⟩)

/-! ## Frames, and lengths that no body can have -/

theorem body_eq_frame_iff {m : Nat} {rest' : Bytes} :
    body true ⟨true, some m⟩ rest = .frame b rest' ↔
      m < oversizeFrom ∧ m ≤ rest.length ∧ b = rest.take m ∧ rest' = rest.drop m := by
  unfold body
  by_cases hgiant : oversizeFrom ≤ m
  · simp [hgiant, Nat.not_lt.2 hgiant]
  · by_cases hlong : m ≤ rest.length
    · simp [hgiant, hlong, Nat.not_le.1 hgiant, eq_comm]
    · simp [hgiant, hlong]

theorem body_eq_oversize_iff {m : Nat} :
    body true ⟨true, some m⟩ rest = .oversize n ↔ m = n ∧ oversizeFrom ≤ n := by
  unfold body
  by_cases hgiant : oversizeFrom ≤ m
  · simp only [hgiant, if_true, Next.oversize.injEq]
    exact ⟨fun heq ↦ ⟨heq, heq ▸ hgiant⟩, And.left⟩
  · have hno : ¬ (m = n ∧ oversizeFrom ≤ n) := fun h ↦ hgiant (h.1 ▸ h.2)
    by_cases hlong : m ≤ rest.length <;> simp [hgiant, hlong, hno]

/-- A frame is read just where the stream begins with a header and has the body that the last length
asks for. -/
theorem next_eq_frame_iff : next true s = .frame b rest ↔ ∃ saids behind, Headed s saids behind ∧
    LastLength saids b.length ∧ b.length < oversizeFrom ∧ behind = b ++ rest := by
  constructor
  · intro hnext
    rcases next_cases s with hended | ⟨f, hfault⟩ | ⟨saids, behind, n, hheaded, hlast, hbody⟩
    · rw [hended] at hnext
      contradiction
    · rw [hfault] at hnext
      contradiction
    · rw [hbody] at hnext
      obtain ⟨hfits, hlong, rfl, rfl⟩ := body_eq_frame_iff.1 hnext
      rw [List.length_take_of_le hlong]
      exact ⟨saids, behind, hheaded, hlast, hfits, (List.take_append_drop n behind).symm⟩
  · rintro ⟨saids, behind, hheaded, hlast, hfits, rfl⟩
    rw [next_of_headed hheaded hlast]
    exact body_of_append hfits true rest

/-- Reading comes to a length that no body can have just where the stream begins with a header that
gives it last. -/
theorem next_eq_oversize_iff : next true s = .oversize n ↔ ∃ saids behind, Headed s saids behind ∧
    LastLength saids n ∧ oversizeFrom ≤ n := by
  constructor
  · intro hnext
    rcases next_cases s with hended | ⟨f, hfault⟩ | ⟨saids, behind, m, hheaded, hlast, hbody⟩
    · rw [hended] at hnext
      contradiction
    · rw [hfault] at hnext
      contradiction
    · rw [hbody] at hnext
      obtain ⟨rfl, hgiant⟩ := body_eq_oversize_iff.1 hnext
      exact ⟨saids, behind, hheaded, hlast, hgiant⟩
  · rintro ⟨saids, behind, hheaded, hlast, hgiant⟩
    rw [next_of_headed hheaded hlast]
    exact body_eq_oversize_iff.2 ⟨rfl, hgiant⟩

/-- On a closed stream there is nothing to wait for. -/
theorem next_ne_more (s : Bytes) (missing : Nat) : next true s ≠ .more missing := by
  intro hmore
  rcases next_cases s with hended | ⟨f, hfault⟩ | ⟨saids, behind, m, -, -, hbody⟩
  · rw [hended] at hmore
    contradiction
  · rw [hfault] at hmore
    contradiction
  · rw [hbody, body] at hmore
    simp only at hmore
    split at hmore
    · contradiction
    · split at hmore <;> contradiction

/-- A frame takes more bytes than its body has. -/
theorem length_of_frame (hnext : next true s = .frame b rest) :
    b.length + rest.length < s.length := by
  obtain ⟨saids, behind, hheaded, -, -, rfl⟩ := next_eq_frame_iff.1 hnext
  obtain ⟨-, -, -, -, hblank⟩ := hheaded
  have hpos := List.length_pos_iff.2 hblank.1
  simp only [List.length_append]
  omega

/-! ## One frame after another -/

/-- Reading a closed stream comes to these bodies, and then to what is left. -/
inductive Takes : Bytes → List Bytes → Bytes → Prop where
  | nil {tail : Bytes} : Takes tail [] tail
  | cons {s body rest tail : Bytes} {bodies : List Bytes} : next true s = .frame body rest →
      Takes rest bodies tail → Takes s (body :: bodies) tail

/-- There are no more frames than bytes, even without the bytes of the bodies. -/
theorem Takes.length_le {bodies : List Bytes} {tail : Bytes} (htakes : Takes s bodies tail) :
    bodies.length + bodies.flatten.length + tail.length ≤ s.length := by
  induction htakes with
  | nil => simp
  | cons hnext _ ih =>
    have hlength := length_of_frame hnext
    simp only [List.length_cons, List.flatten_cons, List.length_append]
    omega

theorem Takes.concat {bodies : List Bytes} {tail : Bytes} (htakes : Takes s bodies tail)
    (hnext : next true tail = .frame b rest) : Takes s (bodies ++ [b]) rest := by
  induction htakes with
  | nil => exact .cons hnext .nil
  | cons hfirst _ ih => exact .cons hfirst (ih hnext)

theorem takes_of_frames {bodies : List Bytes} {tail : Bytes} (hframes : Frames s bodies tail) :
    Takes s bodies tail := by
  induction hframes with
  | nil => exact .nil
  | cons hframe _ ih => exact .cons (next_of_isFrame hframe true _) ih

end Depot.Rpc.Frame
