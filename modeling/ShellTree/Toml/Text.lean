import ShellTree.Toml.Character
import ShellTree.Toml.Number

/-!
# Strings in TOML

A string is basic, with escapes, or literal, without them; either kind stands on one line between
single quotation marks of its kind, or on several between threefold ones. A string of several lines
drops a line break right behind its opening marks and may end in one or two marks of its own.

A reader of the inside of a string keeps what it has read so far, and a number of characters to
skip: those that an escape has already taken.
-/

namespace ShellTree.Toml

/-- The character with the code that the hexadecimal digits denote. No surrogate is a character. -/
def characterOfCode? (hex : List Char) : Option Char := do
  let digits ← hex.mapM digitValue?
  let code := numberOf 16 digits
  if code.isValidChar then some (Char.ofNat code) else none

/-- Reads an escape behind its backslash: the character that it stands for, and its length. -/
def escape? : List Char → Option (Char × Nat)
  | 'b' :: _ => some ('\x08', 1)
  | 't' :: _ => some ('\t', 1)
  | 'n' :: _ => some ('\n', 1)
  | 'f' :: _ => some ('\x0c', 1)
  | 'r' :: _ => some ('\r', 1)
  | 'e' :: _ => some ('\x1b', 1)
  | '"' :: _ => some ('"', 1)
  | '\\' :: _ => some ('\\', 1)
  | 'x' :: a :: b :: _ => do return (← characterOfCode? [a, b], 3)
  | 'u' :: a :: b :: c :: d :: _ => do return (← characterOfCode? [a, b, c, d], 5)
  | 'U' :: a :: b :: c :: d :: e :: f :: g :: h :: _ => do
    return (← characterOfCode? [a, b, c, d, e, f, g, h], 9)
  | _ => none

/-- The length of a continuation behind its backslash: blanks, a line break, and all space after
it. -/
def continuation? (input : List Char) : Option Nat := do
  let rest ← afterNewline? (dropBlanks input)
  return input.length - (dropSpace rest).length

def basic? (read : String) : (skip : Nat) → List Char → Option (String × List Char)
  | skip + 1, _ :: rest => basic? read skip rest
  | 0, '"' :: rest => some (read, rest)
  | 0, '\\' :: rest => do
    let (c, length) ← escape? rest
    basic? (read.push c) length rest
  | 0, c :: rest => if isPlain c then basic? (read.push c) 0 rest else none
  | _, [] => none

def literal? (read : String) : List Char → Option (String × List Char)
  | '\x27' :: rest => some (read, rest)
  | c :: rest => if isPlain c then literal? (read.push c) rest else none
  | [] => none

/-- Ends a string of several lines behind its closing marks: up to two more belong to it. -/
def closeMarks (mark : Char) (read : String) : List Char → String × List Char
  | c :: d :: rest =>
    if c = mark then
      if d = mark then ((read.push mark).push mark, rest) else (read.push mark, d :: rest)
    else (read, c :: d :: rest)
  | [c] => if c = mark then (read.push mark, []) else (read, [c])
  | [] => (read, [])

/-- Reads a basic string of several lines behind its opening marks. -/
def basicLines? (read : String) : (skip : Nat) → List Char → Option (String × List Char)
  | skip + 1, _ :: rest => basicLines? read skip rest
  | 0, '"' :: '"' :: '"' :: rest => some (closeMarks '"' read rest)
  | 0, '\\' :: rest =>
    match continuation? rest with
    | some length => basicLines? read length rest
    | none => do
      let (c, length) ← escape? rest
      basicLines? (read.push c) length rest
  | 0, '\n' :: rest => basicLines? (read.push '\n') 0 rest
  | 0, '\r' :: '\n' :: rest => basicLines? ((read.push '\r').push '\n') 0 rest
  | 0, c :: rest => if isPlain c then basicLines? (read.push c) 0 rest else none
  | _, [] => none

/-- Reads a literal string of several lines behind its opening marks. -/
def literalLines? (read : String) : List Char → Option (String × List Char)
  | '\x27' :: '\x27' :: '\x27' :: rest => some (closeMarks '\x27' read rest)
  | '\n' :: rest => literalLines? (read.push '\n') rest
  | '\r' :: '\n' :: rest => literalLines? ((read.push '\r').push '\n') rest
  | c :: rest => if isPlain c then literalLines? (read.push c) rest else none
  | [] => none

def dropNewline (input : List Char) : List Char := (afterNewline? input).getD input

def string? : List Char → Option (String × List Char)
  | '"' :: '"' :: '"' :: rest => basicLines? "" 0 (dropNewline rest)
  | '"' :: rest => basic? "" 0 rest
  | '\x27' :: '\x27' :: '\x27' :: rest => literalLines? "" (dropNewline rest)
  | '\x27' :: rest => literal? "" rest
  | _ => none

end ShellTree.Toml
