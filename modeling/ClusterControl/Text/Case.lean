/-!
Names that are matched whatever their case. All names in use are written in ASCII, so besides the
ASCII letters only the few other characters matter whose counterpart is in ASCII.
-/

namespace ClusterControl.Text

/-- The Kelvin sign is the one character outside ASCII whose small letter is in ASCII. -/
def smallLetter (c : Char) : Char :=
  if c.toNat = 0x212a then 'k' else c.toLower

/-- The code points outside ASCII whose capitals are in ASCII: the sharp s, the dotless i, the long s and
the ligatures. -/
def foreignCapitals : List (Nat × List Char) :=
  [(0xdf, ['S', 'S']), (0x131, ['I']), (0x17f, ['S']), (0xfb00, ['F', 'F']), (0xfb01, ['F', 'I']),
   (0xfb02, ['F', 'L']), (0xfb03, ['F', 'F', 'I']), (0xfb04, ['F', 'F', 'L']), (0xfb05, ['S', 'T']),
   (0xfb06, ['S', 'T'])]

/-- A ligature has a capital for each of its letters. -/
def capitals (c : Char) : List Char := (foreignCapitals.lookup c.toNat).getD [c.toUpper]

def small (s : String) : String := s.map smallLetter

def capital (s : String) : String := String.ofList (s.toList.flatMap capitals)

end ClusterControl.Text
