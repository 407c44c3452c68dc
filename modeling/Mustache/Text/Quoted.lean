import Mustache.Text.Printable

/-! Quoted text, as it appears inside the text of lists and in messages. Single quotes
are used unless the text holds one and no double quote; the quote in use, backslashes
and characters that do not print are escaped. -/

namespace Mustache.Text

def quoteFor (text : List Char) : Char :=
  if text.contains '\'' && !text.contains '"' then '"' else '\''

def hexDigits : Nat → Nat → List Char
  | 0, _ => []
  | width + 1, n => hexDigits width (n / 16) ++ [Nat.digitChar (n % 16)]

/-- The characters that have an escape of their own, or are the quote in use. -/
def namedEscape? (quote c : Char) : Option (List Char) :=
  if c == quote || c == '\\' then some ['\\', c]
  else if c == '\n' then some ['\\', 'n']
  else if c == '\r' then some ['\\', 'r']
  else if c == '\t' then some ['\\', 't']
  else none

def escapeChar (quote c : Char) : List Char :=
  (namedEscape? quote c).getD <|
    if isPrintable c then [c]
    else if c.toNat < 0x100 then ['\\', 'x'] ++ hexDigits 2 c.toNat
    else if c.toNat < 0x10000 then ['\\', 'u'] ++ hexDigits 4 c.toNat
    else ['\\', 'U'] ++ hexDigits 8 c.toNat

def quoted (s : String) : String :=
  let q := quoteFor s.toList
  String.ofList (q :: s.toList.flatMap (escapeChar q) ++ [q])

def quotedBytes (bytes : List UInt8) : String :=
  let text := bytes.map fun b => Char.ofNat b.toNat
  let q := quoteFor text
  let escape (c : Char) : List Char := (namedEscape? q c).getD <|
    if 32 ≤ c.toNat && c.toNat < 127 then [c] else ['\\', 'x'] ++ hexDigits 2 c.toNat
  String.ofList ('b' :: q :: text.flatMap escape ++ [q])

end Mustache.Text
