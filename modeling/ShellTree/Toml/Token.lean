import ShellTree.Toml.Text

/-!
# Tokens of a TOML document

A document as a row of tokens: marks of the structure, line breaks, comments, strings, and runs of
other characters. A token only says of what kind it is; whether its text denotes anything is not
asked here, but whether a line break or a comment is written as it has to be is.

A run of other characters takes quotation marks into it, so a string begins only where no such run
has begun. A string without an end goes on to the end of its line, or of the document.
-/

namespace ShellTree.Toml

inductive Token where
  | dot
  | equals
  | comma
  | openBracket
  | closeBracket
  | openBrace
  | closeBrace
  | blanks
  /-- A line break; an unsound one is a carriage return alone. -/
  | lineBreak (sound : Bool)
  /-- A comment; an unsound one holds a control character. -/
  | comment (sound : Bool)
  | quoted
  | bare
deriving DecidableEq

/-- What follows a string on one line behind its opening mark; the string ends with its line at the
latest. -/
def afterString (mark : Char) (escapes : Bool) : (skip : Bool) → List Char → List Char
  | true, c :: rest => if c = '\n' then c :: rest else afterString mark escapes false rest
  | false, c :: rest =>
    if c = mark then rest
    else if c = '\n' then c :: rest
    else afterString mark escapes (escapes && c = '\\' && rest.head?.any fun d => d = mark || d = '\\') rest
  | _, [] => []

/-- What follows a string of several lines behind its opening marks. -/
def afterLines (mark : Char) (escapes : Bool) : (skip : Bool) → List Char → List Char
  | true, _ :: rest => afterLines mark escapes false rest
  | false, c :: d :: e :: rest =>
    if c = mark ∧ d = mark ∧ e = mark then (closeMarks mark "" rest).2
    else afterLines mark escapes (escapes && c = '\\') (d :: e :: rest)
  | false, _ => []
  | true, [] => []

namespace Token

def first? : List Char → Option (Token × List Char)
  | [] => none
  | '"' :: '"' :: '"' :: rest => some (.quoted, afterLines '"' true false rest)
  | '\x27' :: '\x27' :: '\x27' :: rest => some (.quoted, afterLines '\x27' false false rest)
  | '\r' :: '\n' :: rest => some (.lineBreak true, rest)
  | c :: rest =>
    match c with
    | '.' => some (.dot, rest)
    | '=' => some (.equals, rest)
    | ',' => some (.comma, rest)
    | '[' => some (.openBracket, rest)
    | ']' => some (.closeBracket, rest)
    | '\x7b' => some (.openBrace, rest)
    | '\x7d' => some (.closeBrace, rest)
    | '\n' => some (.lineBreak true, rest)
    | '\r' => some (.lineBreak false, rest)
    | '"' => some (.quoted, afterString '"' true false rest)
    | '\x27' => some (.quoted, afterString '\x27' false false rest)
    | '#' =>
      let (text, rest) := rest.span fun c => c ≠ '\n' && c ≠ '\r'
      some (.comment (text.all isPlain), rest)
    | c => if isBlank c then some (.blanks, dropBlanks rest) else some (.bare, rest.dropWhile isRun)

/-- The tokens of a text; `fuel` bounds their number. -/
def ofText : (fuel : Nat) → List Char → List Token
  | 0, _ => []
  | fuel + 1, input =>
    match first? input with
    | none => []
    | some (token, rest) => token :: ofText fuel rest

end Token

end ShellTree.Toml
