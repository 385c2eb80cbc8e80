import Depot.Text.Blank
import Depot.Text.Cut
import Depot.Text.Numeral
import Depot.Text.Utf8

/-!
Frames: a body of bytes behind header lines, one of which gives its length, and a blank line. The
reader is a function of what has come so far and of whether the stream is closed, so that a stream
may come in any pieces: on an open stream it says how much `more` it needs at least.
-/

set_option autoImplicit false
set_option relaxedAutoImplicit false

namespace Depot.Rpc

/-- Why no further frame can be read. -/
inductive FrameFault where
  | notText (fault : Text.Utf8Fault)
  | noColon (line : String)
  | badLength
  | noLength
  | endInHeader
  | endInBody
  deriving DecidableEq, Repr

namespace FrameFault

def message : FrameFault → String
  | notText fault => fault.message
  | noColon line => s!"Malformed header line: {line}"
  | badLength => "Invalid Content-Length"
  | noLength => "Missing Content-Length header"
  | endInHeader => "Stream closed inside message headers"
  | endInBody => "early eof"

/-- Whether the stream ended too early; otherwise what came was wrong. -/
def isEnd : FrameFault → Bool
  | endInHeader => true
  | endInBody => true
  | _ => false

end FrameFault

namespace Frame

/-! ## Writing -/

def lengthName : List Char := "Content-Length".toList

/-- The length, a blank line, and the body as it is. -/
def write (body : Bytes) : Bytes :=
  Text.encodeChars (lengthName ++ ':' :: ' ' :: (Text.writeNumeral body.length ++
    ['\r', '\n', '\r', '\n'])) ++ body

/-! ## Reading -/

/-- What the front of a stream gives. -/
inductive Next where
  | frame (body rest : Bytes)
  | ended
  /-- At least so many bytes are missing. -/
  | more (missing : Nat)
  | fault (fault : FrameFault)
  /-- A body of this length cannot even be begun. -/
  | oversize (length : Nat)
  deriving DecidableEq, Repr

def lineFeed : UInt8 := 10

/-- The bytes up to the first line feed and with it, and those behind it. -/
def cutLine? : Bytes → Option (Bytes × Bytes)
  | [] => none
  | b :: rest =>
    if b = lineFeed then some ([b], rest)
    else (cutLine? rest).map fun p ↦ (b :: p.1, p.2)

/-- What the header lines have said so far. -/
structure Header where
  seen : Bool := false
  length? : Option Nat := none
  deriving DecidableEq, Repr

/-- Whether a name is that of the length, in whatever case of its letters. -/
def isLengthName (name : List Char) : Bool :=
  (Text.trim name).map Char.toLower = lengthName.map Char.toLower

/-- Takes a line that is not blank. The last length counts. -/
def Header.take (h : Header) (line : List Char) : Except FrameFault Header :=
  match Text.cutAt? ':' line with
  | none => .error (.noColon (String.ofList line))
  | some (name, value) =>
    if isLengthName name then
      match Text.numeralBelow? Text.limit64 (Text.trim value) with
      | none => .error .badLength
      | some n => .ok ⟨true, some n⟩
    else .ok { h with seen := true }

/-- The first length that no body can have. -/
def oversizeFrom : Nat := 0x8000000000000000

/-- The body behind a header. -/
def body (closed : Bool) (h : Header) (s : Bytes) : Next :=
  match h.length? with
  | none => .fault .noLength
  | some n =>
    if oversizeFrom ≤ n then .oversize n
    else if n ≤ s.length then .frame (s.take n) (s.drop n)
    else if closed then .fault .endInBody else .more (n - s.length)

/-- The line at the front: up to a line feed, or up to the end of a closed stream. -/
def line? (closed : Bool) (s : Bytes) : Option (Bytes × Bytes) :=
  match cutLine? s with
  | some p => some p
  | none => if closed ∧ s ≠ [] then some (s, []) else none

/-- Reads lines until the blank one behind the header. Blank lines before it are passed over. -/
def lines (closed : Bool) : (fuel : Nat) → Header → Bytes → Next
  | 0, _, _ => .more 1
  | fuel + 1, h, s =>
    match line? closed s with
    | none => if !closed then .more 1 else if h.seen then .fault .endInHeader else .ended
    | some (line, rest) =>
      match Text.decodeChars line with
      | .error fault => .fault (.notText fault)
      | .ok chars =>
        if Text.trim chars = [] then
          if h.seen then body closed h rest else lines closed fuel h rest
        else
          match h.take (Text.trim chars) with
          | .error fault => .fault fault
          | .ok h => lines closed fuel h rest

/-- What the front of a stream gives. Every line takes a byte, so the number of bytes and one more
is fuel enough. -/
def next (closed : Bool) (s : Bytes) : Next := lines closed (s.length + 1) {} s

/-- How reading a whole stream ends. -/
inductive Ending where
  | ended
  | fault (fault : FrameFault)
  | oversize (length : Nat)
  deriving DecidableEq, Repr

/-- The bodies in a closed stream, one after another; each frame takes a byte. -/
def readFrom : (fuel : Nat) → Bytes → List Bytes × Ending
  | 0, _ => ([], .ended)
  | fuel + 1, s =>
    match next true s with
    | .frame body rest =>
      let (bodies, ending) := readFrom fuel rest
      (body :: bodies, ending)
    | .fault f => ([], .fault f)
    | .oversize n => ([], .oversize n)
    | .ended => ([], .ended)
    | .more _ => ([], .ended)

def readAll (s : Bytes) : List Bytes × Ending := readFrom (s.length + 1) s

end Frame
end Depot.Rpc
