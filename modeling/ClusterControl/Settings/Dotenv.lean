import ClusterControl.Settings.Reference
import ClusterControl.Text.Blank

/-!
Files of variables. A statement `NAME=value` takes a line, or more if the value stands between quotes;
a comment follows a hash sign, in a bare value only after a blank. A line that is no statement is passed
over. Values can refer to variables that were set before them.
-/

namespace ClusterControl.Dotenv

/-- A name that is written alone has no value. -/
structure Statement where
  name : String
  value : Option String

/-- Line ends are written in three ways and read as one. -/
def unifyLines : List Char → List Char
  | '\r' :: '\n' :: cs => '\n' :: unifyLines cs
  | '\r' :: cs => '\n' :: unifyLines cs
  | c :: cs => c :: unifyLines cs
  | [] => []

/-- Spacing inside a line. -/
def isGap (c : Char) : Bool := Text.isSpacing c && c != '\n'

def afterLine (cs : List Char) : List Char := (cs.dropWhile (· != '\n')).drop 1

/-! ## Quotes -/

/-- The characters before the quote that closes a value, and what follows it. A backslash takes the next
character with it, so an escaped quote closes nothing unless no other quote does. -/
def closed? (quote : Char) : List Char → Option (List Char × List Char)
  | [] => none
  | '\x5c' :: c :: cs =>
    match closed? quote cs with
    | some (inside, rest) => some ('\x5c' :: c :: inside, rest)
    | none => if c == quote then some (['\x5c'], cs) else none
  | c :: cs =>
    if c == quote then some ([], cs)
    else (closed? quote cs).map fun (inside, rest) => (c :: inside, rest)

/-- The letters that can be escaped, and what they then stand for. -/
abbrev Escapes := List (Char × Char)

def singleEscapes : Escapes := [('\x5c', '\x5c'), ('\x27', '\x27')]

def doubleEscapes : Escapes :=
  [('\x22', '\x22'), ('a', '\x07'), ('b', '\x08'), ('f', '\x0c'), ('n', '\n'), ('r', '\r'),
   ('t', '\t'), ('v', '\x0b')] ++ singleEscapes

/-- A backslash before any other letter stands for itself. -/
def unescape (escapes : Escapes) : List Char → List Char
  | '\x5c' :: c :: cs =>
    match escapes.lookup c with
    | some d => d :: unescape escapes cs
    | none => '\x5c' :: c :: unescape escapes cs
  | c :: cs => c :: unescape escapes cs
  | [] => []

/-! ## The parts of a statement -/

/-- What is read from the front of a text, and what follows it. Where nothing can be read, the text from
the place at which that shows. -/
abbrev Taken (α : Type) := Except (List Char) (α × List Char)

def withoutExport (cs : List Char) : List Char :=
  let rest := cs.drop 6
  if "export".toList.isPrefixOf cs && rest.head?.any isGap then rest.dropWhile isGap else cs

def isNamePart (c : Char) : Bool := !(Text.isSpacing c || c == '=' || c == '#')

def takeWhole (name : List Char) (cs rest : List Char) : Taken (Option String) :=
  if name.isEmpty then .error cs else .ok (some (String.ofList name), rest)

/-- A comment in its place leaves a statement without a name. -/
def takeName (cs : List Char) : Taken (Option String) :=
  match cs with
  | '#' :: _ => .ok (none, cs)
  | '\x27' :: inside =>
    match inside.dropWhile (· != '\x27') with
    | _ :: rest => takeWhole (inside.takeWhile (· != '\x27')) cs rest
    | [] => .error cs
  | _ => takeWhole (cs.takeWhile isNamePart) cs (cs.dropWhile isNamePart)

def uncommented : List Char → List Char
  | [] => []
  | c :: cs => if Text.isSpacing c && cs.head? == some '#' then [] else c :: uncommented cs

def takeQuoted (quote : Char) (escapes : Escapes) (cs : List Char) : Taken String :=
  match closed? quote cs with
  | some (inside, rest) => .ok (String.ofList (unescape escapes inside), rest)
  | none => .error cs

/-- A bare value goes up to a comment or to the end of the line. -/
def takeValue (cs : List Char) : Taken String :=
  match cs.dropWhile isGap with
  | '\x27' :: rest => takeQuoted '\x27' singleEscapes rest
  | '\x22' :: rest => takeQuoted '\x22' doubleEscapes rest
  | _ =>
    let bare := uncommented (cs.takeWhile (· != '\n'))
    .ok (String.ofList (Text.trimBy Text.isSpacing bare), cs.dropWhile (· != '\n'))

def takeAssigned (cs : List Char) : Taken (Option String) :=
  match cs.dropWhile isGap with
  | '=' :: rest => (takeValue rest).map fun (v, rest) => (some v, rest)
  | rest => .ok (none, rest)

/-- Nothing but a comment may follow on the line. -/
def takeEnd (cs : List Char) : Taken Unit :=
  match cs.dropWhile isGap with
  | [] => .ok ((), [])
  | '\n' :: rest => .ok ((), rest)
  | '#' :: rest => .ok ((), afterLine rest)
  | rest => .error rest

def takeStatement (cs : List Char) : Except (List Char) (Option Statement × List Char) := do
  let (name, cs) ← takeName (withoutExport cs)
  let (value, cs) ← takeAssigned cs
  let ((), cs) ← takeEnd cs
  pure (name.map fun name => ⟨name, value⟩, cs)

/-- The statements of a file. Where one cannot be read, the rest of that line is passed over. -/
def statements (cs : List Char) : List Statement :=
  let (found, rest) : Option Statement × List Char :=
    match takeStatement (cs.dropWhile Text.isSpacing) with
    | .ok taken => taken
    | .error place => (none, afterLine place)
  if rest.length < cs.length then found.toList ++ statements rest else found.toList
termination_by cs.length

/-! ## Variables -/

/-- Each name once, in the order in which the names came up. -/
abbrev Variables := List (String × Option String)

def put (vs : Variables) (name : String) (value : Option String) : Variables :=
  if (vs.lookup name).isSome then vs.map fun v => if v.1 == name then (name, value) else v
  else vs ++ [(name, value)]

/-- What a reference stands for: a variable of the file goes before one of the environment. -/
def valueOf (environment : List (String × String)) (vs : Variables) (r : Reference) : List Char :=
  let name := String.ofList r.name
  match vs.lookup name, environment.lookup name with
  | some value, _ => (value.getD "").toList
  | none, some value => value.toList
  | none, none => r.default

def set (environment : List (String × String)) (vs : Variables) (s : Statement) : Variables :=
  let expand (value : String) := String.ofList (Reference.expand (valueOf environment vs) value.toList)
  put vs s.name (s.value.map expand)

/-- The variables of a file: of two statements with one name the later one holds. -/
def read (environment : List (String × String)) (text : String) : Variables :=
  (statements (unifyLines text.toList)).foldl (set environment) []

end ClusterControl.Dotenv
