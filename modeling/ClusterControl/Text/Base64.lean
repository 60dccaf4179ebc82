/-!
Reading base64. Characters outside the alphabet are skipped, so line breaks may stand anywhere. A pad
counts only after two or three characters of its group of four; the pad that fills the group ends the
text, and what follows is ignored.
-/

namespace ClusterControl.Text.Base64

inductive Problem where
  | nonAscii
  /-- One character is left over, which holds six bits and no byte. -/
  | leftover (characters : Nat)
  | padding
  deriving Repr, DecidableEq

def Problem.message : Problem → String
  | .nonAscii => "string argument should contain only ASCII characters"
  | .leftover n =>
    s!"Invalid base64-encoded string: number of data characters ({n}) cannot be 1 more than a multiple of 4"
  | .padding => "Incorrect padding"

def sextet? (c : Char) : Option Nat :=
  let n := c.toNat
  if 'A' ≤ c && c ≤ 'Z' then some (n - 65)
  else if 'a' ≤ c && c ≤ 'z' then some (n - 97 + 26)
  else if '0' ≤ c && c ≤ '9' then some (n - 48 + 52)
  else if c == '+' then some 62
  else if c == '/' then some 63
  else none

/-- The bytes that four, three or two characters stand for; bits beyond the last byte are dropped. -/
def bytes : List Nat → List UInt8
  | a :: b :: c :: d :: rest =>
    .ofNat (a * 4 + b / 16) :: .ofNat (b % 16 * 16 + c / 4) :: .ofNat (c % 4 * 64 + d) :: bytes rest
  | [a, b, c] => [.ofNat (a * 4 + b / 16), .ofNat (b % 16 * 16 + c / 4)]
  | [a, b] => [.ofNat (a * 4 + b / 16)]
  | _ => []

/-- Reads on after `count` characters, which stand in `seen` with the last one first, and `pads`
pads since the last of them. -/
def scan : List Char → (seen : List Nat) → (count pads : Nat) → Except Problem (List Nat)
  | [], seen, count, _ =>
    if count % 4 = 0 then .ok seen.reverse
    else if count % 4 = 1 then .error (.leftover count)
    else .error .padding
  | c :: cs, seen, count, pads =>
    if c == '=' then
      if count % 4 < 2 then scan cs seen count pads
      else if 4 ≤ count % 4 + pads + 1 then .ok seen.reverse
      else scan cs seen count (pads + 1)
    else match sextet? c with
      | none => scan cs seen count pads
      | some v => scan cs (v :: seen) (count + 1) 0

def decode (s : String) : Except Problem (List UInt8) :=
  if s.toList.all (·.toNat < 128) then (scan s.toList [] 0 0).map bytes
  else .error .nonAscii

end ClusterControl.Text.Base64
