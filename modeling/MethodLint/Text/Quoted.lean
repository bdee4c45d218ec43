import MethodLint.Text.Glyph

/-!
# Quoted texts

A text that is shown inside a message stands between double quotes.  The
quote, the backslash and the characters that would not show are written as
escapes.
-/

namespace MethodLint
namespace Text

/-- The digits of a number in base sixteen, in lower case. -/
def hexDigits (n : Nat) : List Char :=
  Nat.toDigits 16 n

/-- How a character is written between quotes. -/
def quoteChar (c : Char) : List Char :=
  if c = '"' then
    ['\\', '"']
  else if c = '\\' then
    ['\\', '\\']
  else if c = '\n' then
    ['\\', 'n']
  else if c = '\r' then
    ['\\', 'r']
  else if c = '\t' then
    ['\\', 't']
  else if c.toNat = 0 then
    ['\\', '0']
  else if hasGlyph c then
    [c]
  else
    ['\\', 'u', '\x7b'] ++ hexDigits c.toNat ++ ['\x7d']

/-- The text between double quotes. -/
def quote (text : String) : String :=
  String.ofList ('"' :: (text.toList.flatMap quoteChar ++ ['"']))

end Text
end MethodLint
