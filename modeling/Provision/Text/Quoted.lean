import Provision.Text.Invisible
import Provision.Text.Combining

/-!
# Quoted text

Debug forms write a text between double quotes so that every character of it can be told
apart on a page.  A quote, a backslash and the usual controls are written with a backslash, a
character without a visible form or one that joins its neighbour is written by its number, and
all else stands for itself.
-/

namespace Provision.Text

/-- A character written by its number, in lower-case hexadecimal without leading zeros. -/
def numbered (c : Char) : String :=
  "\\u\x7b" ++ String.ofList (Nat.toDigits 16 c.toNat) ++ "\x7d"

/-- How one character is written between quotes. -/
def escaped (c : Char) : String :=
  if c = '\x00' then "\\0"
  else if c = '\t' then "\\t"
  else if c = '\n' then "\\n"
  else if c = '\r' then "\\r"
  else if c = '"' then "\\\""
  else if c = '\\' then "\\\\"
  else if isCombining c || isInvisible c then numbered c
  else String.singleton c

/-- A text between double quotes, each character escaped on its own. -/
def quoted (text : String) : String :=
  "\"" ++ String.join (text.toList.map escaped) ++ "\""

end Provision.Text
