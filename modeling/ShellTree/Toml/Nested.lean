import ShellTree.Toml.DateTime
import ShellTree.Toml.Key
import ShellTree.Toml.Number
import ShellTree.Toml.Table

/-!
# Values in a TOML document

Readers of scalars, arrays and tables in braces. Arrays and tables may hold each other down to
`nestingLimit`. Inside their brackets, line breaks and comments may stand wherever blanks may,
except around the dots of a key, and a comma may follow the last item.
-/

namespace ShellTree.Toml

def nestingLimit : Nat := 80

def bareValue? (text : List Char) : Option Value :=
  if text = ['t', 'r', 'u', 'e'] then some (.boolean true)
  else if text = ['f', 'a', 'l', 's', 'e'] then some (.boolean false)
  else if isDateTime text then some (.dateTime (String.ofList text))
  else number? text

/-- Splits the text of a value without marks off the front. A date takes the time that follows it
after one space. -/
def splitBare (input : List Char) : List Char × List Char :=
  let (text, rest) := input.span isBareScalar
  match rest with
  | ' ' :: c :: _ =>
    if isDate text && c.isDigit then
      let (time, rest) := (rest.drop 1).span isBareScalar
      (text ++ ' ' :: time, rest)
    else (text, rest)
  | _ => (text, rest)

def scalar? : List Char → Option (Value × List Char)
  | '"' :: rest => (string? ('"' :: rest)).map fun (text, rest) => (.string text, rest)
  | '\x27' :: rest => (string? ('\x27' :: rest)).map fun (text, rest) => (.string text, rest)
  | input =>
    let (text, rest) := splitBare input
    (bareValue? text).map (·, rest)

/-- Reads the elements of an array up to its closing bracket; `fuel` bounds their number. -/
def readElements (read : List Char → Reading (Value × List Char)) :
    (fuel : Nat) → List Char → Reading (List Value × List Char)
  | 0, _ => .error .malformed
  | fuel + 1, input =>
    match dropFiller false input with
    | ']' :: rest => .ok ([], rest)
    | input => do
      let (value, rest) ← read input
      match dropFiller false rest with
      | ',' :: rest => do
        let (values, rest) ← readElements read fuel rest
        return (value :: values, rest)
      | ']' :: rest => return ([value], rest)
      | _ => .error .malformed

/-- Reads the members of a table up to its closing brace, and adds them to `draft`; `fuel` bounds
their number. -/
def readMembers (read : List Char → Reading (Value × List Char)) :
    (fuel : Nat) → Draft → List Char → Reading (Draft × List Char)
  | 0, _, _ => .error .malformed
  | fuel + 1, draft, input =>
    match dropFiller false input with
    | '\x7d' :: rest => .ok (draft, rest)
    | input => do
      let (path, rest) ← readKey input
      let rest ← Reading.of (after? '=' (dropFiller false rest))
      let (value, rest) ← read (dropFiller false rest)
      let draft ← Reading.of (draft.insert path value)
      match dropFiller false rest with
      | ',' :: rest => readMembers read fuel draft rest
      | '\x7d' :: rest => .ok (draft, rest)
      | _ => .error .malformed

/-- Reads a value in which arrays and tables are nested to at most `depth`. Each item of an array or
table takes a character, so the text that is left bounds their number. -/
def readValue : (depth : Nat) → List Char → Reading (Value × List Char)
  | 0, input => Reading.of (scalar? input)
  | depth + 1, input =>
    match input with
    | '[' :: rest => do
      let (values, rest) ← readElements (readValue depth) (rest.length + 1) rest
      return (.array values, rest)
    | '\x7b' :: rest => do
      let (draft, rest) ← readMembers (readValue depth) (rest.length + 1) [] rest
      return (.table (Entry.closeMembers draft), rest)
    | input => Reading.of (scalar? input)

end ShellTree.Toml
