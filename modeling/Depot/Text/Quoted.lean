import Depot.Text.Printable

/-!
Texts in double quotes, for reports that people read. What does not show by itself is written by
its code point, so the quoted form is printable throughout.
-/

set_option autoImplicit false
set_option relaxedAutoImplicit false

namespace Depot.Text

/-- A code point in lower hexadecimal digits between braces. -/
def quoteByNumber (c : Char) : List Char :=
  ['\\', 'u', '\x7b'] ++ Nat.toDigits 16 c.toNat ++ ['\x7d']

def quoteChar (c : Char) : List Char :=
  if c.toNat = 0 then ['\\', '0']
  else if c = '\t' then ['\\', 't']
  else if c = '\n' then ['\\', 'n']
  else if c = '\r' then ['\\', 'r']
  else if c = '"' then ['\\', '"']
  else if c = '\\' then ['\\', '\\']
  else if isPrintable c then [c]
  else quoteByNumber c

def quote (s : String) : String := String.ofList ('"' :: (s.toList.flatMap quoteChar ++ ['"']))

end Depot.Text
