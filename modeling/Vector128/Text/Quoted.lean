/-
Quoted text: between double quotes, with a backslash before what would end it, and with an escape in place of what does
not print.
-/
import Vector128.Text.Printable

namespace Vector128.Text

/-- a character inside quotes -/
def quoteChar (c : Char) : List Char :=
  if c = '\x22' then ['\\', '\x22']
  else if c = '\\' then ['\\', '\\']
  else if c = '\n' then ['\\', 'n']
  else if c = '\r' then ['\\', 'r']
  else if c = '\t' then ['\\', 't']
  else if c = '\x00' then ['\\', '0']
  else if isPrintable c then [c]
  else ['\\', 'u', '\x7b'] ++ Nat.toDigits 16 c.toNat ++ ['\x7d']

def quote (text : List Char) : String := String.ofList ('\x22' :: text.flatMap quoteChar ++ ['\x22'])

end Vector128.Text
