/-!
# Files

What a program can learn about files by their paths. A path names a directory, a file with its
bytes, something that exists but cannot be read, or nothing.
-/

namespace ShellTree

inductive Lookup where
  | absent
  | directory
  | file (bytes : ByteArray)
  | unreadable (reason : String)

abbrev Files := String → Lookup

/-- Why the text of something that exists cannot be had. -/
inductive ReadFault where
  | isDirectory
  | notText
  | unreadable (reason : String)

def ReadFault.message : ReadFault → String
  | .isDirectory => "Is a directory (os error 21)"
  | .notText => "stream did not contain valid UTF-8"
  | .unreadable reason => reason

namespace Files

def holds (files : Files) (path : String) : Bool :=
  match files path with
  | .absent => false
  | _ => true

/-- The text of the file that a path names; a file whose bytes are not UTF-8 has none. -/
def text (files : Files) (path : String) : Except ReadFault String :=
  match files path with
  | .absent => .error (.unreadable "No such file or directory (os error 2)")
  | .directory => .error .isDirectory
  | .unreadable reason => .error (.unreadable reason)
  | .file bytes =>
    match String.fromUTF8? bytes with
    | some text => .ok text
    | none => .error .notText

/-- The path of `name` in a directory; the empty path is the directory that a program runs in. -/
def join (directory name : String) : String :=
  if directory.isEmpty ∨ directory.endsWith "/" then directory ++ name
  else directory ++ "/" ++ name

end Files

end ShellTree
