import ClusterControl.Text.Hex
import ClusterControl.Text.Printable

/-!
Text between quotes. Double quotes are used only where the text holds a single quote and no double
one; the quote in use and the backslash are escaped, and so is every character that is not shown as
itself.
-/

namespace ClusterControl.Text

def single : Char := '\x27'

def double : Char := '\x22'

def backslash : Char := '\x5c'

def quoteFor (cs : List Char) : Char :=
  if cs.contains single && !cs.contains double then double else single

/-- A hidden character is escaped by its code point, in two, four or eight digits. -/
def escapeHidden (c : Char) : List Char :=
  let n := c.toNat
  if n < 0x100 then backslash :: 'x' :: hexDigits 2 n
  else if n < 0x10000 then backslash :: 'u' :: hexDigits 4 n
  else backslash :: 'U' :: hexDigits 8 n

def escape (quote c : Char) : List Char :=
  if c == quote || c == backslash then [backslash, c]
  else if c == '\n' then [backslash, 'n']
  else if c == '\r' then [backslash, 'r']
  else if c == '\t' then [backslash, 't']
  else if isPrintable c then [c]
  else escapeHidden c

def quoted (s : String) : String :=
  let quote := quoteFor s.toList
  String.ofList (quote :: s.toList.flatMap (escape quote) ++ [quote])

end ClusterControl.Text
