/-!
# Plain text

A text for a terminal can hold control sequences, which do not show themselves. The plain text is
what is left without them, and without any other control character that is no white space.

A sequence begins with the escape character. What follows decides on its kind: a control sequence
proper, a device control string, an operating system command, another string, or a short sequence of
a few marks and a last character. The characters that end a sequence depend on its kind; a sequence
that breaks its own rules is read to its end all the same.

White space inside a sequence shows, and so does what follows it directly, up to the next character
that shows nothing; only from there on the sequence goes on.
-/

namespace ShellTree.Text

inductive Position where
  /-- Outside all sequences. -/
  | ground
  /-- Behind the escape character. -/
  | escape
  /-- Behind the marks of a short sequence. -/
  | escapeMarks
  /-- In a control sequence: at its beginning, among its parameters or marks, or in what is left of
  a broken one. -/
  | sequence
  | sequenceParameters
  | sequenceMarks
  | sequenceRest
  /-- In a device control string: likewise, or in its data. -/
  | device
  | deviceParameters
  | deviceMarks
  | deviceRest
  | deviceData
  /-- In an operating system command. -/
  | command
  /-- In any other string. -/
  | string
deriving DecidableEq

/-- Whether a character is one of the marks that may stand in front of the last character. -/
def isMark (c : Char) : Bool := ' ' ≤ c && c ≤ '/'

def isParameter (c : Char) : Bool := '0' ≤ c && c ≤ '?'

/-- Whether a character is a private mark, with which only the first parameter may begin. -/
def isPrivate (c : Char) : Bool := '<' ≤ c && c ≤ '?'

def isFinal (c : Char) : Bool := '@' ≤ c && c ≤ '~'

/-- Whether a character has the eight-bit string terminator among its bytes. -/
def holdsTerminator (c : Char) : Bool := (String.singleton c).toUTF8.toList.contains 0x9C

namespace Position

/-- The kind of sequence that a character begins behind the escape character. -/
def afterEscape (c : Char) : Position :=
  if isMark c then .escapeMarks
  else if c = '[' then .sequence
  else if c = ']' then .command
  else if c = 'P' then .device
  else if c = 'X' ∨ c = '^' ∨ c = '_' then .string
  else if '0' ≤ c ∧ c ≤ '~' then .ground
  else .escape

def step (position : Position) (c : Char) : Position :=
  if c = '\x18' ∨ c = '\x1a' then .ground
  else if c = '\x1b' then .escape
  else
    match position with
    | .ground => .ground
    | .escape => afterEscape c
    | .escapeMarks => if '0' ≤ c ∧ c ≤ '~' then .ground else .escapeMarks
    | .sequence =>
      if isMark c then .sequenceMarks
      else if isParameter c then .sequenceParameters
      else if isFinal c then .ground
      else .sequence
    | .sequenceParameters =>
      if isMark c then .sequenceMarks
      else if isPrivate c then .sequenceRest
      else if isFinal c then .ground
      else .sequenceParameters
    | .sequenceMarks =>
      if isParameter c then .sequenceRest else if isFinal c then .ground else .sequenceMarks
    | .sequenceRest => if isFinal c then .ground else .sequenceRest
    | .device =>
      if isMark c then .deviceMarks
      else if isParameter c then .deviceParameters
      else if isFinal c then .deviceData
      else .device
    | .deviceParameters =>
      if isMark c then .deviceMarks
      else if isPrivate c then .deviceRest
      else if isFinal c then .deviceData
      else .deviceParameters
    | .deviceMarks =>
      if isParameter c then .deviceRest else if isFinal c then .deviceData else .deviceMarks
    | .deviceRest => if holdsTerminator c then .ground else .deviceRest
    | .deviceData => if holdsTerminator c then .ground else .deviceData
    | .string => if holdsTerminator c then .ground else .string
    | .command => if c = '\x07' then .ground else .command

/-- Whether a character is white space that shows even inside a sequence. -/
def isBlankControl (c : Char) : Bool := c = '\t' || c = '\n' || c = '\x0c' || c = '\r'

def shows : Position → Char → Bool
  | .ground, c => (' ' ≤ c && c ≤ '~') || '\x7f' < c || isBlankControl c
  | .escape, c => isBlankControl c
  | .escapeMarks, c => isBlankControl c
  | .sequence, c => isBlankControl c
  | .sequenceParameters, c => isBlankControl c
  | .sequenceMarks, c => isBlankControl c
  | .sequenceRest, c => isBlankControl c
  | _, _ => false

end Position

/-- The characters that show of those from a position on; `showing` says whether what is in front of
them shows. Behind a character that is not ASCII no sequence goes on. -/
def plainChars : (showing : Bool) → Position → List Char → List Char
  | _, _, [] => []
  | showing, position, c :: rest =>
    if showing && Position.ground.shows c then
      c :: plainChars true (if '\x7f' < c then .ground else position) rest
    else if position.shows c then c :: plainChars true (position.step c) rest
    else plainChars false (position.step c) rest

def plain (text : String) : String := String.ofList (plainChars false .ground text.toList)

end ShellTree.Text
