import Depot.Proofs.Rpc.Conservation

/-!
# How reading ends

A closed stream begins with a frame, or reading stops at its front (`stops_or_frame`): there is
nothing more, or a fault, or a length that no body can have. Every frame takes bytes, so reading
gets to such a place or to the first message that nobody takes (`exists_reaches`), and what it has
handled until then is conserved (`read_goes`). `read_ends_unless_oversize` adds which streams stop
with a length that no body can have: those whose frames lead to a header that gives one. It is the
only way for reading to end with neither an end nor a fault, and `oversizeStream` takes it.
-/

set_option autoImplicit false
set_option relaxedAutoImplicit false

namespace Depot.Rpc.Intake

open Rpc.Frame (Takes Headed LastLength Ending oversizeFrom)

variable {accepting : Bool} {s tail rest body : Bytes} {bodies : List Bytes} {ending : Ending}
  {saids : List (List Char)} {fuel n : Nat}

/-- Reading stops at the front of this. -/
inductive Stops : Bytes → Ending → Prop where
  | closes {tail : Bytes} {ending : Ending} : Closes tail ending → Stops tail ending
  | oversize {tail : Bytes} {n : Nat} :
      Frame.next true tail = .oversize n → Stops tail (.oversize n)

/-- Reading gets behind these bodies: all the messages among them are taken. -/
structure Reaches (accepting : Bool) (s : Bytes) (bodies : List Bytes) (tail : Bytes) : Prop where
  takes : Takes s bodies tail
  accepts : accepting = true ∨ ∀ b ∈ bodies, ¬ Decodable b

/-- How reading a closed stream goes: to where it stops, or to the first message that nobody
takes. -/
inductive Goes (accepting : Bool) (s : Bytes) : Intake → Prop where
  | through {bodies : List Bytes} {tail : Bytes} {payloads : List Payload}
      {replies : List Response} {ending : Ending} : Reaches accepting s bodies tail →
      Stops tail ending → Conserved bodies payloads replies →
      Goes accepting s ⟨payloads, replies, ending⟩
  | untaken {front : List Bytes} {body rest : Bytes} {replies : List Response} :
      accepting = false → Takes s (front ++ [body]) rest → (∀ b ∈ front, ¬ Decodable b) →
      Decodable body → Conserved front [] replies → Goes accepting s ⟨[], replies, .ended⟩

/-! ## Where reading stops -/

theorem stops_or_frame (s : Bytes) :
    (∃ ending, Stops s ending) ∨ ∃ body rest, Frame.next true s = .frame body rest := by
  cases hnext : Frame.next true s with
  | frame body rest => exact .inr ⟨body, rest, rfl⟩
  | ended => exact .inl ⟨_, .closes (.ended hnext)⟩
  | more missing => exact absurd hnext (Frame.next_ne_more s missing)
  | fault f => exact .inl ⟨_, .closes (.broken hnext)⟩
  | oversize n => exact .inl ⟨_, .oversize hnext⟩

theorem readFrom_of_stops (hstops : Stops tail ending) (hfuel : 0 < fuel) :
    readFrom accepting fuel tail = { ending } := by
  cases hstops with
  | closes hcloses => exact readFrom_of_closes hcloses hfuel
  | oversize hnext =>
    obtain ⟨fuel, rfl⟩ := Nat.exists_eq_succ_of_ne_zero (Nat.ne_of_gt hfuel)
    rw [readFrom, hnext]

/-- The end and every fault are told apart from a length that no body can have. -/
theorem stops_oversize_iff : Stops tail (.oversize n) ↔ Frame.next true tail = .oversize n := by
  constructor
  · intro hstops
    cases hstops with
    | closes hcloses => cases hcloses
    | oversize hnext => exact hnext
  · exact .oversize

/-- Reading gets to where it stops, or to a message that nobody takes. -/
theorem exists_reaches (accepting : Bool) (s : Bytes) :
    ∃ bodies tail, Reaches accepting s bodies tail ∧ ((∃ ending, Stops tail ending) ∨
      accepting = false ∧ ∃ body rest, Frame.next true tail = .frame body rest ∧
        Decodable body) := by
  -- every frame leaves less of the stream
  induction hlength : s.length using Nat.strongRecOn generalizing s with
  | ind length ih =>
    rcases stops_or_frame s with hstops | ⟨body, rest, hnext⟩
    · exact ⟨[], s, ⟨.nil, .inr nofun⟩, .inl hstops⟩
    by_cases huntaken : accepting = false ∧ Decodable body
    · exact ⟨[], s, ⟨.nil, .inr nofun⟩, .inr ⟨huntaken.1, body, rest, hnext, huntaken.2⟩⟩
    have hless := Frame.length_of_frame hnext
    obtain ⟨bodies, tail, ⟨htakes, haccepts⟩, hend⟩ := ih rest.length (by omega) rest rfl
    refine ⟨body :: bodies, tail, ⟨.cons hnext htakes, ?_⟩, hend⟩
    cases haccepting : accepting with
    | true => exact .inl rfl
    | false =>
      refine .inr (List.forall_mem_cons.2 ⟨fun hbody ↦ huntaken ⟨haccepting, hbody⟩, ?_⟩)
      exact haccepts.resolve_left (haccepting ▸ Bool.false_ne_true)

/-! ## What is handled until then -/

theorem read_of_stops (hreaches : Reaches accepting s bodies tail) (hstops : Stops tail ending) :
    (read accepting s).ending = ending ∧
      Conserved bodies (read accepting s).payloads (read accepting s).replies := by
  obtain ⟨payloads, replies, left, hconserved, hleft, hread⟩ :=
    exists_readFrom_takes hreaches.takes (Nat.lt_succ_self s.length) hreaches.accepts
  rw [readFrom_of_stops hstops (Nat.zero_lt_of_lt hleft)] at hread
  rw [read, hread]
  simp only [prepend, List.append_nil]
  exact ⟨trivial, hconserved⟩

theorem read_goes (accepting : Bool) (s : Bytes) : Goes accepting s (read accepting s) := by
  obtain ⟨bodies, tail, hreaches, ⟨ending, hstops⟩ | ⟨rfl, body, rest, hnext, hbody⟩⟩ :=
    exists_reaches accepting s
  · obtain ⟨hending, hconserved⟩ := read_of_stops hreaches hstops
    exact .through hreaches (hending ▸ hstops) hconserved
  · have hnone := hreaches.accepts.resolve_left Bool.false_ne_true
    obtain ⟨payloads, replies, left, hconserved, hleft, hread⟩ :=
      exists_readFrom_takes hreaches.takes (Nat.lt_succ_self s.length) hreaches.accepts
    obtain rfl := hconserved.payloads_eq_nil hnone
    rw [readFrom_of_decodable hnext hbody (Nat.zero_lt_of_lt hleft)] at hread
    rw [read, hread]
    simp only [prepend, List.append_nil]
    exact .untaken rfl (hreaches.takes.concat hnext) hnone hbody hconserved

theorem read_of_short (hreaches : Reaches accepting s bodies tail)
    (hheaded : Headed tail saids rest) (hlast : LastLength saids n) (hshort : rest.length < n)
    (hfits : n < oversizeFrom) :
    (read accepting s).ending = .fault .endInBody ∧
      Conserved bodies (read accepting s).payloads (read accepting s).replies := by
  have hnext : Frame.next true tail = .fault .endInBody :=
    (Frame.next_of_headed hheaded hlast).trans (Frame.body_of_short hfits hshort)
  exact read_of_stops hreaches (.closes (.broken hnext))

/-- Whatever the bytes are, reading ends: behind frames whose bodies have all been handled it comes
to the end, or to a fault, or to a length that no body can have; or it ends at the first message
that nobody takes. There are no more frames than bytes. With a length that no body can have it ends
just where the frames lead to a header that gives such a length; any smaller length that the stream
is too short for is an early end, behind all the frames before it. -/
theorem read_ends_unless_oversize (accepting : Bool) (s : Bytes) :
    Goes accepting s (read accepting s) ∧
    (∀ bodies tail, Takes s bodies tail →
      bodies.length + bodies.flatten.length + tail.length ≤ s.length) ∧
    ((∃ n, (read accepting s).ending = .oversize n) ↔ ∃ bodies tail saids rest n,
      Reaches accepting s bodies tail ∧ Headed tail saids rest ∧ LastLength saids n ∧
        0x8000000000000000 ≤ n) ∧
    ∀ bodies tail saids rest n, Reaches accepting s bodies tail → Headed tail saids rest →
      LastLength saids n → rest.length < n → n < 0x8000000000000000 →
        (∃ f, (read accepting s).ending = .fault f ∧ f.isEnd = true) ∧
        Conserved bodies (read accepting s).payloads (read accepting s).replies := by
  refine ⟨read_goes accepting s, fun _ _ htakes ↦ htakes.length_le, ⟨?_, ?_⟩, ?_⟩
  · rintro ⟨n, hending⟩
    have hgoes := read_goes accepting s
    generalize read accepting s = i at hgoes hending
    cases hgoes with
    | untaken => cases hending
    | through hreaches hstops _ =>
      obtain rfl := hending
      obtain ⟨saids, rest, hheaded, hlast, hgiant⟩ :=
        Frame.next_eq_oversize_iff.1 (stops_oversize_iff.1 hstops)
      exact ⟨_, _, saids, rest, n, hreaches, hheaded, hlast, hgiant⟩
  · rintro ⟨bodies, tail, saids, rest, n, hreaches, hheaded, hlast, hgiant⟩
    have hnext := Frame.next_eq_oversize_iff.2 ⟨saids, rest, hheaded, hlast, hgiant⟩
    exact ⟨n, (read_of_stops hreaches (.oversize hnext)).1⟩
  · intro bodies tail saids rest n hreaches hheaded hlast hshort hfits
    obtain ⟨hending, hconserved⟩ := read_of_short hreaches hheaded hlast hshort hfits
    exact ⟨⟨_, hending, rfl⟩, hconserved⟩

/-- Behind a frame stands the header of a body that is cut off: the frame has been handled, and the
end comes too early. -/
theorem read_ends_unless_oversize_cutOff :
    let header := Text.encode "Content-Length: 5\r" ++ [Frame.lineFeed]
    let blank := [Frame.lineFeed]
    let s := Frame.write namelessBody ++ (header ++ (blank ++ Text.encode "ab"))
    (∃ f, (read true s).ending = .fault f ∧ f.isEnd = true) ∧
      Conserved [namelessBody] (read true s).payloads (read true s).replies := by
  intro header blank s
  have hline : Frame.Line header "Content-Length: 5".toList :=
    ⟨"Content-Length: 5\r".toList, by decide, rfl, by decide⟩
  have htold : Frame.Says header ["Content-Length: 5".toList] :=
    List.append_nil header ▸ .cons hline (by decide) .nil
  have hsound : Frame.Sound "Content-Length: 5".toList := Frame.sound_of_take (h := {}) rfl
  have hblank : Frame.Blank blank (Text.encode "ab") :=
    ⟨List.cons_ne_nil _ _, .inl ⟨[], List.not_mem_nil, rfl, by decide⟩⟩
  have hheaded : Headed ([] ++ (header ++ (blank ++ Text.encode "ab")))
      ["Content-Length: 5".toList] (Text.encode "ab") :=
    .intro .nil htold (List.cons_ne_nil _ _) (List.forall_mem_singleton.2 hsound) hblank
  have hgives : Frame.Gives "Content-Length: 5".toList 5 :=
    ⟨"Content-Length".toList, " 5".toList, by decide, by decide,
      Frame.isLengthName_iff.1 (by decide), Text.numeralBelow?_eq_some_iff.1 (by decide)⟩
  have htakes : Takes s [namelessBody] (header ++ (blank ++ Text.encode "ab")) :=
    .cons (Frame.next_write (by decide) true _) .nil
  exact (read_ends_unless_oversize true s).2.2.2 _ _ _ _ 5 ⟨htakes, .inl rfl⟩ hheaded
    (.here hgives nofun) (by decide) (by decide)

/-- The first length that no body can have, and two bytes. -/
def oversizeStream : Bytes := Text.encode "Content-Length: 9223372036854775808\r\n\r\nxx"

/-- The stream is too short for the length, yet reading it comes to no end and to no fault. -/
theorem oversizeStream_has_no_end :
    (read true oversizeStream).ending = .oversize 9223372036854775808 ∧
    ¬ ((read true oversizeStream).ending = .ended ∨
      ∃ f, (read true oversizeStream).ending = .fault f) := by
  have hending : (read true oversizeStream).ending = .oversize 9223372036854775808 := by
    decide +kernel
  rw [hending]
  simp

end Depot.Rpc.Intake
