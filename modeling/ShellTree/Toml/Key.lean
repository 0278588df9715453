import ShellTree.Toml.Text

/-!
# Keys in TOML

A key is a dotted path of parts, each bare or a string on one line, with blanks allowed around the
dots. A path has at most `keyLimit` parts; a longer one is a fault of a kind of its own.
-/

namespace ShellTree.Toml

inductive SyntaxFault where
  | malformed
  /-- A key has too many parts. -/
  | longKey
deriving DecidableEq

abbrev Reading (α : Type) := Except SyntaxFault α

/-- Takes it for malformed when nothing is read. -/
def Reading.of {α : Type} : Option α → Reading α
  | some result => .ok result
  | none => .error .malformed

theorem Reading.of_eq_ok {α : Type} {read : Option α} {result : α} :
    Reading.of read = .ok result ↔ read = some result := by
  cases read <;> simp [Reading.of]

def keyLimit : Nat := 80

/-- Reads one part of a key. Threefold marks start no part, and a bare part goes on to where a run
without marks ends. -/
def keyPart? : List Char → Option (String × List Char)
  | '"' :: '"' :: '"' :: _ => none
  | '\x27' :: '\x27' :: '\x27' :: _ => none
  | '"' :: rest => basic? "" 0 rest
  | '\x27' :: rest => literal? "" rest
  | input =>
    let (part, rest) := input.span isRun
    if part ≠ [] ∧ part.all isBareKey then some (String.ofList part, rest) else none

/-- Reads the parts of a key and the blanks around them; `fuel` bounds their number. -/
def keyParts? : (fuel : Nat) → List Char → Option (List String × List Char)
  | 0, _ => none
  | fuel + 1, input => do
    let (part, rest) ← keyPart? (dropBlanks input)
    match dropBlanks rest with
    | '.' :: rest => do
      let (parts, rest) ← keyParts? fuel rest
      return (part :: parts, rest)
    | rest => return ([part], rest)

/-- Reads a key and the blanks around it. A part that is no part is noticed before their number; each
but the last has a dot behind it, so the length of the input bounds it. -/
def readKey (input : List Char) : Reading (List String × List Char) := do
  let (parts, rest) ← Reading.of (keyParts? (input.length + 1) input)
  if keyLimit < parts.length then .error .longKey else return (parts, rest)

end ShellTree.Toml
