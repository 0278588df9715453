import ShellTree.Decode.Tree
import ShellTree.Files.Basic
import ShellTree.Toml.Document

/-!
# Documents

A document is text that is to be read as a value of some kind: first as TOML, then by a decoder of
that kind. Text that is no TOML is refused before anything is decoded. A decoder may pass over what
goes beyond the limits of TOML; where it fails, a document that does so counts as no TOML. A tree
document can be read from a file, which has to exist.
-/

namespace ShellTree

/-- Why a text is not a document of the kind that was asked for. -/
inductive TextFault where
  /-- The text is no TOML. -/
  | notToml (fault : Toml.SyntaxFault)
  /-- The text is TOML that does not have the right shape. -/
  | unfit (fault : Decode.Fault)

/-- Reads a text with the decoder of its kind. -/
def readDocument {α : Type} (decode : Toml.Members → Decode.Decoded α) (text : String) :
    Except TextFault α :=
  match Toml.parse text with
  | .error fault => .error (.notToml fault)
  | .ok members =>
    match decode members with
    | .ok result => .ok result
    | .error fault =>
      .error (if Toml.membersAreStandard members then .unfit fault else .notToml .malformed)

def Script.ofText (text : String) : Except TextFault Script := readDocument Decode.document text

namespace Script

def parseMessage : String := "Failed to parse tree document"

inductive LoadFailure where
  | notFound (path : String)
  | unreadable (path : String) (fault : ReadFault)
  | invalid (path : String) (fault : TextFault)

/-- The wording of a failure, from the outermost cause inwards; what is wrong with a document is
worded elsewhere. -/
def LoadFailure.messages : LoadFailure → List String
  | .notFound path => ["❌ Tree document not found: " ++ Text.quoted path]
  | .unreadable path fault => ["Failed to read tree document: " ++ path, fault.message]
  | .invalid path _ => ["Invalid tree document: " ++ path, parseMessage]

def load (files : Files) (path : String) : Except LoadFailure Script :=
  if files.holds path then
    match files.text path with
    | .error fault => .error (.unreadable path fault)
    | .ok text =>
      match ofText text with
      | .error fault => .error (.invalid path fault)
      | .ok script => .ok script
  else .error (.notFound path)

end Script

end ShellTree
