/-!
References to variables inside a text: `${NAME}`, or `${NAME:-default}` for a variable that may be
missing.
-/

namespace ClusterControl

structure Reference where
  name : List Char
  default : List Char

namespace Reference

def endsName (c : Char) : Bool := c == '\x7d' || c == ':'

/-- The reference that stands after its opening brace, and what follows it. -/
def ofChars? (cs : List Char) : Option (Reference × List Char) :=
  let name := cs.takeWhile fun c => !endsName c
  match cs.dropWhile fun c => !endsName c with
  | '\x7d' :: rest => some (⟨name, []⟩, rest)
  | ':' :: '-' :: rest =>
    match rest.dropWhile (· != '\x7d') with
    | _ :: after => some (⟨name, rest.takeWhile (· != '\x7d')⟩, after)
    | [] => none
  | _ => none

theorem length_lt_of_ofChars? {cs rest : List Char} {r : Reference} (h : ofChars? cs = some (r, rest)) :
    rest.length < cs.length := by
  have drop_le (p : Char → Bool) (l : List Char) : (l.dropWhile p).length ≤ l.length :=
    (List.dropWhile_suffix p).length_le
  have outer := drop_le (fun c => !endsName c) cs
  unfold ofChars? at h
  split at h
  · next heq =>
    obtain ⟨-, rfl⟩ : _ ∧ _ := by simpa using h
    simp only [heq, List.length_cons] at outer
    omega
  · next more heq =>
    have inner := drop_le (· != '\x7d') more
    split at h
    · next heq' =>
      obtain ⟨-, rfl⟩ : _ ∧ _ := by simpa using h
      simp only [heq, List.length_cons] at outer
      simp only [heq', List.length_cons] at inner
      omega
    · simp at h
  · simp at h

/-- Puts the values of the references into a text. What is no reference stays as it is. -/
def expand (value : Reference → List Char) : List Char → List Char
  | '$' :: '\x7b' :: cs =>
    match h : ofChars? cs with
    | some (r, rest) =>
      have := length_lt_of_ofChars? h
      value r ++ expand value rest
    | none => '$' :: expand value ('\x7b' :: cs)
  | c :: cs => c :: expand value cs
  | [] => []
termination_by cs => cs.length

end Reference

end ClusterControl
