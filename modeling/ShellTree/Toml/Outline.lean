import ShellTree.Toml.Nested
import ShellTree.Toml.Token

/-!
# The outline of a TOML document

The outline of a document is what its tokens make of it, whatever keys and scalars say. A key or a
scalar that is missing does not spoil the outline, nor does one that denotes nothing; a bracket
without its match does, and so does anything behind a value on its line.

The functions here take the tokens that are left and give those behind a piece of the outline, or
nothing where the outline is broken.
-/

namespace ShellTree.Toml.Outline

/-- What follows the parts of a key, with the dots and blanks between them; `needsPart` says whether
a part comes next. The first component says whether the last part is there. -/
def afterKey : (needsPart : Bool) → List Token → Bool × List Token
  | needsPart, .blanks :: rest => afterKey needsPart rest
  | _, .dot :: rest => afterKey true rest
  | true, .quoted :: rest => afterKey false rest
  | true, .bare :: rest => afterKey false rest
  | needsPart, rest => (!needsPart, rest)

/-- What follows a row of dots and runs of other characters. -/
def afterRow : List Token → List Token
  | .dot :: rest => afterRow rest
  | .bare :: rest => afterRow rest
  | rest => rest

/-- What follows the rest of a scalar without marks. It is a row of dots and runs of characters, or
two of them with blanks in between, as a date and a time are; the second one starts with no dot. -/
def afterBare (tokens : List Token) : List Token :=
  match afterRow tokens with
  | .blanks :: .bare :: rest => afterRow rest
  | rest => rest

def afterLine? : List Token → Option (List Token)
  | .blanks :: rest => afterLine? rest
  | .comment sound :: rest => if sound then afterLine? rest else none
  | .lineBreak sound :: rest => if sound then some rest else none
  | [] => some []
  | _ => none

def skipLine? : List Token → Option (List Token)
  | .comment sound :: rest => if sound then afterLine? rest else none
  | .lineBreak sound :: rest => if sound then some rest else none
  | _ :: rest => skipLine? rest
  | [] => some []

/-- What may come next among the members of a table in braces. -/
inductive Need where
  | key
  | equals
  | value
  | comma
deriving DecidableEq

mutual

/-- What follows a value in which arrays and tables are nested to at most `depth`. -/
def afterValue? (depth : Nat) : (fuel : Nat) → List Token → Option (List Token)
  | 0, _ => none
  | fuel + 1, tokens =>
    match tokens with
    | .openBracket :: rest => if depth = 0 then none else afterElements? (depth - 1) fuel true rest
    | .openBrace :: rest => if depth = 0 then none else afterMembers? (depth - 1) fuel .key rest
    | .quoted :: rest => some rest
    | .bare :: rest => some (afterBare rest)
    | .dot :: rest => some (afterBare rest)
    | .equals :: _ => none
    | .closeBracket :: _ => none
    | .closeBrace :: _ => none
    | rest => some rest

/-- What follows the elements of an array and its closing bracket; `needsValue` says whether a value
may come next. -/
def afterElements? (depth : Nat) : (fuel : Nat) → (needsValue : Bool) → List Token →
    Option (List Token)
  | 0, _, _ => none
  | fuel + 1, needsValue, tokens =>
    match tokens with
    | [] => none
    | .blanks :: rest => afterElements? depth fuel needsValue rest
    | .lineBreak sound :: rest => if sound then afterElements? depth fuel needsValue rest else none
    | .comment sound :: rest => if sound then afterElements? depth fuel needsValue rest else none
    | .closeBracket :: rest => some rest
    | .comma :: rest => if needsValue then none else afterElements? depth fuel true rest
    | tokens =>
      if needsValue then do afterElements? depth fuel false (← afterValue? depth fuel tokens) else none

/-- What follows the members of a table and its closing brace, in front of which anything may be
missing. -/
def afterMembers? (depth : Nat) : (fuel : Nat) → Need → List Token → Option (List Token)
  | 0, _, _ => none
  | fuel + 1, need, tokens =>
    match need, tokens with
    | _, [] => none
    | need, .blanks :: rest => afterMembers? depth fuel need rest
    | need, .lineBreak sound :: rest => if sound then afterMembers? depth fuel need rest else none
    | need, .comment sound :: rest => if sound then afterMembers? depth fuel need rest else none
    | _, .closeBrace :: rest => some rest
    | .comma, .comma :: rest => afterMembers? depth fuel .key rest
    | .key, .equals :: rest => afterMembers? depth fuel .value rest
    | .equals, .equals :: rest => afterMembers? depth fuel .value rest
    | .key, .quoted :: rest => afterMembers? depth fuel .equals (afterKey false rest).2
    | .key, .bare :: rest => afterMembers? depth fuel .equals (afterKey false rest).2
    | .key, .dot :: rest => afterMembers? depth fuel .equals (afterKey true rest).2
    | .value, .comma :: _ => none
    | .value, tokens => do afterMembers? depth fuel .comma (← afterValue? depth fuel tokens)
    | _, _ => none

end

/-- What follows the header of a table, or of an element of an array of tables, behind its opening
brackets, and its line. Where the last part of its key is missing, it need not be closed. -/
def afterHeader? (element : Bool) (tokens : List Token) : Option (List Token) :=
  let (complete, rest) := afterKey true tokens
  match rest with
  | .closeBracket :: rest =>
    if element then
      match rest with
      | .closeBracket :: rest => afterLine? rest
      | _ => none
    else afterLine? rest
  | rest => if complete then none else skipLine? rest

def afterStatement? : List Token → Option (List Token)
  | .openBracket :: .openBracket :: rest => afterHeader? true rest
  | .openBracket :: rest => afterHeader? false rest
  | .closeBracket :: _ => none
  | .openBrace :: _ => none
  | .closeBrace :: _ => none
  | .comma :: _ => none
  | tokens =>
    match (afterKey true tokens).2 with
    | .equals :: rest => do
      let rest := match rest with
        | .blanks :: rest => rest
        | rest => rest
      afterLine? (← afterValue? nestingLimit (rest.length + 1) rest)
    | _ => none

/-- Whether the outline that tokens make is sound; `fuel` bounds the number of lines. -/
def isSound : (fuel : Nat) → List Token → Bool
  | 0, _ => false
  | fuel + 1, tokens =>
    match tokens with
    | [] => true
    | .blanks :: rest => isSound fuel rest
    | .lineBreak sound :: rest => sound && isSound fuel rest
    | .comment sound :: rest => sound && isSound fuel rest
    | tokens => (afterStatement? tokens).any (isSound fuel)

end Outline

def hasOutline (input : List Char) : Bool :=
  let tokens := Token.ofText input.length input
  Outline.isSound (tokens.length + 1) tokens

end ShellTree.Toml
