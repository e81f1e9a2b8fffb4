import CodeChart.Text.Printable

/-!
# Texts in messages

* `showQuoted`   a text between quotes as a message shows it: single quotes, or double ones if
                 only single ones stand in it, and escapes for what cannot be seen.
-/

namespace CodeChart

/-- a code point by its number, in as few digits of two, four or eight as hold it -/
def showCode (n : Nat) : Text :=
  if n < 0x100 then '\\' :: 'x' :: hexadecimal 2 n
  else if n < 0x10000 then '\\' :: 'u' :: hexadecimal 4 n
  else '\\' :: 'U' :: hexadecimal 8 n

def showChar (quote c : Char) : Text :=
  if c = quote ∨ c = '\\' then ['\\', c]
  else if c = '\n' then ['\\', 'n']
  else if c = '\r' then ['\\', 'r']
  else if c = '\t' then ['\\', 't']
  else if isPrintable c then [c]
  else showCode c.toNat

def showQuoted (t : Text) : Text :=
  let quote := if t.contains '\'' && !t.contains '"' then '"' else '\''
  quote :: t.flatMap (showChar quote) ++ [quote]

end CodeChart
