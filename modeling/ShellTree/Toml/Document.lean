import ShellTree.Toml.Outline

/-!
# TOML documents

A document is a list of statements, one a line: headers, which say where the keys that follow
belong, and keys with their values. `parse` gives the members of the table that a document denotes,
or tells what is wrong with a text that is no TOML.

A broken outline is noticed before anything else; for the rest, the first fault counts. That an array
of tables cannot have one more element is noticed only at the end of the section that it heads.
-/

namespace ShellTree.Toml

inductive Statement where
  /-- The header of a table. -/
  | table (path : List String)
  /-- The header of one more element of an array of tables. -/
  | element (path : List String)
  /-- A key and its value. -/
  | pair (path : List String) (value : Value)

/-- Reads a statement and what is left of its line. -/
def readStatement : List Char → Reading (Statement × List Char)
  | '[' :: '[' :: rest => do
    let (path, rest) ← readKey rest
    let rest ← Reading.of (after? ']' rest)
    let rest ← Reading.of (after? ']' rest)
    return (.element path, ← Reading.of (afterLine? rest))
  | '[' :: rest => do
    let (path, rest) ← readKey rest
    let rest ← Reading.of (after? ']' rest)
    return (.table path, ← Reading.of (afterLine? rest))
  | input => do
    let (path, rest) ← readKey input
    let rest ← Reading.of (after? '=' rest)
    let (value, rest) ← readValue nestingLimit (dropBlanks rest)
    return (.pair path value, ← Reading.of (afterLine? rest))

/-- The tables that statements have built, and the header that keys belong under. -/
structure Progress where
  root : Draft := []
  header : List String := []

namespace Progress

def step (progress : Progress) : Statement → Option Progress
  | .table path => do return ⟨← progress.root.openTable path, path⟩
  | .element path => do return ⟨← progress.root.openElement path, path⟩
  | .pair path value => do
    let set (_ : Origin) (draft : Draft) : Option Draft := draft.insert path value
    return { progress with root := ← progress.root.alter .implied set progress.header .header }

/-- The first fault of a section under a header that cannot be: that of one of its keys, or else that
of its header. `fuel` bounds the number of its statements. -/
def sectionFault : (fuel : Nat) → Draft → List Char → SyntaxFault
  | 0, _, _ => .malformed
  | fuel + 1, draft, input =>
    match dropFiller false input with
    | [] => .malformed
    | '[' :: _ => .malformed
    | input =>
      match readStatement input with
      | .error fault => fault
      | .ok (.pair path value, rest) =>
        match draft.insert path value with
        | some draft => sectionFault fuel draft rest
        | none => .malformed
      | .ok _ => .malformed

/-- The fault of a statement that cannot be carried out, from what follows it. -/
def stepFault (fuel : Nat) (rest : List Char) : Statement → SyntaxFault
  | .element _ => sectionFault fuel [] rest
  | _ => .malformed

/-- Carries out the statements to the end of the text; `fuel` bounds their number. -/
def finish : (fuel : Nat) → Progress → List Char → Reading Progress
  | 0, _, _ => .error .malformed
  | fuel + 1, progress, input =>
    match dropFiller false input with
    | [] => .ok progress
    | input => do
      let (statement, rest) ← readStatement input
      match progress.step statement with
      | some progress => finish fuel progress rest
      | none => .error (stepFault fuel rest statement)

end Progress

/-- The members of the table that a document denotes. A byte order mark in front is skipped; each
statement takes a character, so the length of the text bounds their number. -/
def parse (text : String) : Reading Members :=
  let input := match text.toList with
    | '\ufeff' :: rest => rest
    | input => input
  match Progress.finish (input.length + 1) {} input with
  | .ok progress => .ok (Entry.closeMembers progress.root)
  | .error fault => .error (if hasOutline input then fault else .malformed)

end ShellTree.Toml
