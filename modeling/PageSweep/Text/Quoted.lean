import PageSweep.Number.Numeral
import PageSweep.Text.Visible

/-!
# Quoted text in messages

A string that a message quotes: quotes, backslashes and the usual control characters are escaped with a
backslash, and every other character that cannot be seen on its own by its code point in braces.
-/

namespace PageSweep.Text

/-- The hexadecimal digits of a number, lower case. -/
def hexDigits (n : Nat) : List Char := Nat.toDigits 16 n

/-- A character inside a quoted string. -/
def quotedChar (c : Char) : List Char :=
  if c = '"' then ['\\', '"']
  else if c = '\\' then ['\\', '\\']
  else if c = '\n' then ['\\', 'n']
  else if c = '\r' then ['\\', 'r']
  else if c = '\t' then ['\\', 't']
  else if c.toNat = 0 then ['\\', '0']
  else if isCombining c || !isVisible c then '\\' :: 'u' :: '\x7b' :: hexDigits c.toNat ++ ['\x7d']
  else [c]

/-- A string as a message quotes it. -/
def quote (s : String) : String := String.ofList ('"' :: s.toList.flatMap quotedChar ++ ['"'])

end PageSweep.Text
