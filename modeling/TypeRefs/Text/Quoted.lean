import TypeRefs.Text.Extending
import TypeRefs.Text.Unprintable

/-!
# Quoted text in messages

Error messages show a text between double quotes. Inside, the quote and the
backslash are escaped with a backslash, NUL, tab, line feed and carriage
return by their letters, and every other character that only extends the
character before it, or that does not print, as `\u{hex}` with lowercase hex
digits and no leading zeros.
-/

namespace TypeRefs

namespace Text

/-- Lowercase hexadecimal digits of a number, without leading zeros. -/
def hexText (n : Nat) : String :=
  String.ofList (Nat.toDigits 16 n)

/-- How one character is shown inside quotes. -/
def showChar (c : Char) : String :=
  if c == '\x00' then "\\0"
  else if c == '\t' then "\\t"
  else if c == '\r' then "\\r"
  else if c == '\n' then "\\n"
  else if c == '\\' then "\\\\"
  else if c == '"' then "\\\""
  else if isExtending c || !isPrintable c then
    "\\u\x7b" ++ hexText c.toNat ++ "\x7d"
  else String.singleton c

/-- A text between double quotes, escaped for a message. -/
def quoted (s : String) : String :=
  "\"" ++ String.join (s.toList.map showChar) ++ "\""

end Text

end TypeRefs
