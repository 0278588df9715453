/-!
# Characters of a TOML document

The classes of characters that the grammar of TOML speaks of, and the text between tokens: blanks
on a line, line breaks, and comments. A line break is a line feed, alone or after a carriage
return; a carriage return on its own is a control character like any other.

The readers of the other modules take the characters that are left and give back a result together
with the characters after it, or nothing where the text is no TOML.
-/

namespace ShellTree.Toml

def isBlank (c : Char) : Bool := c = ' ' || c = '\t'

/-- A character that may stand in a comment or a text: any but the control characters, and the
tab. -/
def isPlain (c : Char) : Bool := c = '\t' || (0x20 ≤ c.toNat && c.toNat ≠ 0x7F)

def isBareKey (c : Char) : Bool := c.isAlphanum || c = '_' || c = '-'

/-- A character of a value without marks, which ends at a blank, a line break, a comment or a
character of the structure around it. -/
def isBareScalar (c : Char) : Bool :=
  c ∉ ['=', ',', '[', ']', '\x7b', '\x7d', '#', ' ', '\t', '\r', '\n']

/-- A character of a run without marks: a part of a key, or what stands between the dots of a
scalar. -/
def isRun (c : Char) : Bool := c ≠ '.' && isBareScalar c

/-- What follows a line break, if the characters start with one. -/
def afterNewline? : List Char → Option (List Char)
  | '\n' :: rest => some rest
  | '\r' :: '\n' :: rest => some rest
  | _ => none

def dropBlanks (input : List Char) : List Char := input.dropWhile isBlank

def dropSpace : List Char → List Char
  | '\n' :: rest => dropSpace rest
  | '\r' :: '\n' :: rest => dropSpace rest
  | c :: rest => if isBlank c then dropSpace rest else c :: rest
  | [] => []

/-- What follows the blanks, line breaks and comments at the front. A character that no comment may
hold is left in front, where no token starts with it. -/
def dropFiller : (inComment : Bool) → List Char → List Char
  | _, '\n' :: rest => dropFiller false rest
  | _, '\r' :: '\n' :: rest => dropFiller false rest
  | false, '#' :: rest => dropFiller true rest
  | inComment, c :: rest =>
    if if inComment then isPlain c else isBlank c then dropFiller inComment rest else c :: rest
  | _, [] => []

/-- What follows the line, if only blanks and a comment are left on it. -/
def afterLine? (input : List Char) : Option (List Char) :=
  let ended := match dropBlanks input with
    | '#' :: rest => rest.dropWhile isPlain
    | rest => rest
  if ended.isEmpty then some [] else afterNewline? ended

/-- What follows the character `c`, if the characters start with it. -/
def after? (c : Char) : List Char → Option (List Char)
  | d :: rest => if d = c then some rest else none
  | [] => none

end ShellTree.Toml
