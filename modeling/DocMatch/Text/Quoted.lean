import DocMatch.Text.Unprintable

/-!
Text between quotation marks, as messages show it. Quotation mark and backslash are written with a
backslash before them, some controls by a letter, and every other character that has no appearance
of its own by its number.
-/

namespace DocMatch.Text

def hexDigits (n : Nat) : String := String.ofList (Nat.toDigits 16 n)

def quotedChar (c : Char) : String :=
  if c = '"' then "\\\""
  else if c = '\\' then "\\\\"
  else if c = '\t' then "\\t"
  else if c = '\r' then "\\r"
  else if c = '\n' then "\\n"
  else if c = '\x00' then "\\0"
  else if isUnprintable c then "\\u\x7b" ++ hexDigits c.toNat ++ "\x7d"
  else c.toString

def quoted (s : String) : String := "\"" ++ String.join (s.toList.map quotedChar) ++ "\""

end DocMatch.Text
