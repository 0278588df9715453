import ShellTree.Text.Extending
import ShellTree.Text.Printable

/-!
# Quoted text

Text in messages stands in double quotation marks, so that its ends and all that does not show can
be seen: marks and backslashes are escaped by a backslash, four control characters by a letter, and
every other character that is not printable, or that would join the one before it, by its code.
-/

namespace ShellTree.Text

/-- A code in lower-case hexadecimal digits, without leading zeros. -/
def hexadecimal (code : Nat) : String := String.ofList (Nat.toDigits 16 code)

def quotedChar (c : Char) : String :=
  if c = '"' then "\\\""
  else if c = '\\' then "\\\\"
  else if c = '\t' then "\\t"
  else if c = '\n' then "\\n"
  else if c = '\r' then "\\r"
  else if c = '\x00' then "\\0"
  else if isPrintable c && !isExtending c then String.singleton c
  else "\\u\x7b" ++ hexadecimal c.toNat ++ "\x7d"

def quoted (text : String) : String := "\"" ++ String.join (text.toList.map quotedChar) ++ "\""

end ShellTree.Text
