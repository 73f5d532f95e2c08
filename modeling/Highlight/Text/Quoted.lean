import Highlight.Text.Printable

/-!
# Quoted text

A text is shown between double quotes on a single line. The double quote, the backslash and the
common controls have escapes of two characters; every other character that cannot be seen by itself
is written as its code point in hexadecimal.
-/

namespace Highlight.Text.Quoted

/-- A character by its code point: a backslash, the letter u, and hexadecimal digits in braces. -/
def escapeCodePoint (c : Char) : List Char :=
  ['\\', 'u', '\x7b'] ++ Nat.toDigits 16 c.toNat ++ ['\x7d']

/-- How a character is written inside the quotes. -/
def encodeChar (c : Char) : List Char :=
  if c = '\x00' then ['\\', '0']
  else if c = '\t' then ['\\', 't']
  else if c = '\n' then ['\\', 'n']
  else if c = '\r' then ['\\', 'r']
  else if c = '"' then ['\\', '"']
  else if c = '\\' then ['\\', '\\']
  else if isJoiningMark c || !isPrintable c then escapeCodePoint c
  else [c]

/-- A text in double quotes. -/
def encode (text : String) : String :=
  String.ofList ('"' :: text.toList.flatMap encodeChar ++ ['"'])

end Highlight.Text.Quoted
