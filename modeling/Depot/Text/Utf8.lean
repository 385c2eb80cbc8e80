/-!
UTF-8 in both directions. `encode` writes the bytes of a text; `decode` reads them back, or says
where the first byte stands that no text has there and how many bytes belong to the fault.
-/

set_option autoImplicit false
set_option relaxedAutoImplicit false

namespace Depot

/-- Contents are sequences of bytes, in the order in which they are stored and sent. -/
abbrev Bytes := List UInt8

namespace Text

/-- One character in one to four bytes, the fewest that hold its code point. -/
def encodeChar (c : Char) : Bytes :=
  let n := c.toNat
  if n < 0x80 then [.ofNat n]
  else if n < 0x800 then [.ofNat (0xC0 + n / 0x40), .ofNat (0x80 + n % 0x40)]
  else if n < 0x10000 then
    [.ofNat (0xE0 + n / 0x1000), .ofNat (0x80 + n / 0x40 % 0x40), .ofNat (0x80 + n % 0x40)]
  else
    [.ofNat (0xF0 + n / 0x40000), .ofNat (0x80 + n / 0x1000 % 0x40),
      .ofNat (0x80 + n / 0x40 % 0x40), .ofNat (0x80 + n % 0x40)]

def encodeChars (s : List Char) : Bytes := s.flatMap encodeChar

/-- The bytes of a text. -/
def encode (s : String) : Bytes := encodeChars s.toList

/-- Where reading stopped: the bytes before `position` are text, and the next `length?` bytes cannot
continue it. Without a length the input ends inside a character that could still be completed. -/
structure Utf8Fault where
  position : Nat
  length? : Option Nat
  deriving DecidableEq, Repr

def Utf8Fault.message (f : Utf8Fault) : String :=
  match f.length? with
  | some n => s!"invalid utf-8 sequence of {n} bytes from index {f.position}"
  | none => s!"incomplete utf-8 byte sequence from index {f.position}"

/-- What a first byte announces: how many bytes follow, and the range of the first of them, which
shuts out overlong forms, surrogates and code points past the last. -/
inductive Lead where
  | single
  | double
  | triple (low high : Nat)
  | quadruple (low high : Nat)
  deriving DecidableEq, Repr

def lead? (b : Nat) : Option Lead :=
  if b < 0x80 then some .single
  else if b < 0xC2 then none
  else if b < 0xE0 then some .double
  else if b = 0xE0 then some (.triple 0xA0 0xBF)
  else if b = 0xED then some (.triple 0x80 0x9F)
  else if b < 0xF0 then some (.triple 0x80 0xBF)
  else if b = 0xF0 then some (.quadruple 0x90 0xBF)
  else if b < 0xF4 then some (.quadruple 0x80 0xBF)
  else if b = 0xF4 then some (.quadruple 0x80 0x8F)
  else none

def isTail (b : UInt8) : Bool := 0x80 ≤ b.toNat && b.toNat ≤ 0xBF

/-- The value of a continuation byte. -/
def tailValue (b : UInt8) : Nat := b.toNat - 0x80

/-- One character from the front, with the bytes after it; or the length of the fault there. -/
def decodeChar : Bytes → Except (Option Nat) (Char × Bytes)
  | [] => .error none
  | b :: rest =>
    match lead? b.toNat with
    | none => .error (some 1)
    | some .single => .ok (Char.ofNat b.toNat, rest)
    | some .double =>
      match rest with
      | [] => .error none
      | c :: rest =>
        if isTail c then .ok (Char.ofNat ((b.toNat - 0xC0) * 0x40 + tailValue c), rest)
        else .error (some 1)
    | some (.triple low high) =>
      match rest with
      | [] => .error none
      | c :: rest =>
        if low ≤ c.toNat ∧ c.toNat ≤ high then
          match rest with
          | [] => .error none
          | d :: rest =>
            if isTail d then
              .ok (Char.ofNat ((b.toNat - 0xE0) * 0x1000 + tailValue c * 0x40 + tailValue d), rest)
            else .error (some 2)
        else .error (some 1)
    | some (.quadruple low high) =>
      match rest with
      | [] => .error none
      | c :: rest =>
        if low ≤ c.toNat ∧ c.toNat ≤ high then
          match rest with
          | [] => .error none
          | d :: rest =>
            if isTail d then
              match rest with
              | [] => .error none
              | e :: rest =>
                if isTail e then
                  .ok (Char.ofNat ((b.toNat - 0xF0) * 0x40000 + tailValue c * 0x1000 +
                    tailValue d * 0x40 + tailValue e), rest)
                else .error (some 3)
            else .error (some 2)
        else .error (some 1)

/-- Reads characters one after another; `position` counts the bytes read before. Each character
takes at least one byte, so the number of bytes is fuel enough. -/
def decodeFrom : (fuel position : Nat) → Bytes → Except Utf8Fault (List Char)
  | _, _, [] => .ok []
  | 0, position, _ => .error ⟨position, none⟩
  | fuel + 1, position, s =>
    match decodeChar s with
    | .error length? => .error ⟨position, length?⟩
    | .ok (c, rest) => (decodeFrom fuel (position + c.utf8Size) rest).map (c :: ·)

/-- The text whose bytes are given, as characters. -/
def decodeChars (s : Bytes) : Except Utf8Fault (List Char) := decodeFrom s.length 0 s

/-- The text whose bytes are given, if they are the bytes of one. -/
def decode? (s : Bytes) : Option String := (decodeChars s).toOption.map String.ofList

end Text
end Depot
