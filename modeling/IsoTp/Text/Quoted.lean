import IsoTp.Text.Shapeless

/-!
Text in double quotes, on one line and in characters that can be seen.

Quotes and backslashes stand after a backslash. Tab, line feed, carriage return and the null
character have a letter of their own, and any other character without a shape stands as its
code point in braces.
-/

namespace IsoTp.Text

/-- One character inside the quotes. -/
def escape (c : Char) : String :=
  if c = '\x00' then "\\0"
  else if c = '\t' then "\\t"
  else if c = '\n' then "\\n"
  else if c = '\r' then "\\r"
  else if c = '"' then "\\\""
  else if c = '\\' then "\\\\"
  else if Shapeless c then "\\u\x7b" ++ String.ofList (Nat.toDigits 16 c.toNat) ++ "\x7d"
  else c.toString

def quote (s : String) : String := "\"" ++ String.join (s.toList.map escape) ++ "\""

/-- A text that is shown in quotes. -/
structure Quoted where
  text : String
deriving DecidableEq, Repr

instance : ToString Quoted := ⟨fun q => quote q.text⟩

end IsoTp.Text
