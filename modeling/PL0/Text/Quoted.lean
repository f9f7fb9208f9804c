import PL0.Text.ExtendingMark
import PL0.Text.Unprintable

/-!
# Quoted text

A text is written between double quotes on one line.  Quotes and backslashes
are escaped, the common control characters have letters of their own, and
every other character that could not be seen on its own is written by its code
point.
-/

namespace PL0.Text

/-- The code point of a character in lower-case hexadecimal, between `\u` and
braces. -/
def codePointEscape (c : Char) : List Char :=
  ['\\', 'u', '\x7b'] ++ Nat.toDigits 16 c.toNat ++ ['\x7d']

/-- Whether a character can be shown as itself: it has a printed form and does
not attach itself to its neighbour. -/
def isShown (c : Char) : Bool :=
  !isExtendingMark c && !isUnprintable c

/-- How one character stands inside quotes. -/
def escape (c : Char) : List Char :=
  if c = '\x00' then ['\\', '0']
  else if c = '\t' then ['\\', 't']
  else if c = '\r' then ['\\', 'r']
  else if c = '\n' then ['\\', 'n']
  else if c = '"' then ['\\', '"']
  else if c = '\\' then ['\\', '\\']
  else if isShown c then [c]
  else codePointEscape c

/-- A text between double quotes, every character escaped as needed. -/
def quoted (text : String) : String :=
  String.ofList ('"' :: (text.toList.flatMap escape ++ ['"']))

end PL0.Text
