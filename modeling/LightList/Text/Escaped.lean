/-
This file quotes a text so that every character of it can be seen on one line.

Quotes and backslashes get a backslash, the common controls their letter, and every other character
that has no printed form of its own stands as its code point in hexadecimal.
-/

import LightList.Text.Extending
import LightList.Text.Unprintable

namespace LightList.Text

/-- Plain ASCII is decided at once; the tables decide the rest. -/
def isPlain (code : Nat) : Bool :=
  if code < 127 then 32 ≤ code
  else
    !CodeRange.anyContains extending code && !CodeRange.anyContains unprintable code &&
      !CodeRange.anyContains fillers code

def codeEscape (code : Nat) : String :=
  "\\u\x7b" ++ String.ofList (Nat.toDigits 16 code) ++ "\x7d"

def escapedChar (character : Char) : String :=
  if character = '\x00' then "\\0"
  else if character = '\t' then "\\t"
  else if character = '\n' then "\\n"
  else if character = '\r' then "\\r"
  else if character = '"' then "\\\""
  else if character = '\\' then "\\\\"
  else if isPlain character.toNat then character.toString
  else codeEscape character.toNat

def escaped (text : String) : String :=
  "\"" ++ String.join (text.toList.map escapedChar) ++ "\""

end LightList.Text
