import ShellTree.Files.Basic

/-!
# A directory in memory

The files below one directory of a system, and what a path names for a program that runs in that
directory. Every part of a path that something follows has to name a directory, be it only by a
slash at the end; one dot stays, two dots lead up, and at the root of the system they stay too. A
path that is too long names nothing. Of the rest of the system, nothing is known but the way to the
directory and what every system has.
-/

namespace ShellTree

/-- The files and directories below a directory, by the names on the way to each. Every directory
on the way to an entry exists as well. -/
structure Directory where
  /-- The names on the way from the root of the system to the directory. -/
  place : List String
  entries : List (List String × Lookup)

namespace Directory

def path (directory : Directory) : String := "/" ++ "/".intercalate directory.place

/-- What the names on the way from the directory lead to. -/
def at? (directory : Directory) (names : List String) : Lookup :=
  match directory.entries.lookup names with
  | some found => found
  | none =>
    if names.isEmpty ∨ directory.entries.any (fun entry => names.isPrefixOf entry.1) then .directory
    else .absent

def usual : List (List String) :=
  [[]] ++
    ["bin", "boot", "dev", "etc", "home", "lib", "lib64", "media", "mnt", "opt", "proc", "root", "run",
      "sbin", "srv", "sys", "tmp", "usr", "var"].map (fun name => [name]) ++
    ["bin", "lib", "local", "sbin", "share"].map (fun name => ["usr", name])

/-- What the names on the way from its root lead to on every system: the usual directories, and the
device that is always empty. -/
def ofSystem (names : List String) : Lookup :=
  if names ∈ usual then .directory
  else if names = ["dev", "null"] then .file ByteArray.empty
  else .absent

/-- What the names on the way from the root of the system lead to. -/
def lookup (directory : Directory) (names : List String) : Lookup :=
  if directory.place.isPrefixOf names then directory.at? (names.drop directory.place.length)
  else if names.isPrefixOf directory.place then .directory
  else ofSystem names

/-- Follows the parts of a path, from the names that lead from the root to the place reached so far,
the last of them first. -/
def walk (directory : Directory) (reached : List String) : List String → Lookup
  | [] => directory.lookup reached.reverse
  | part :: rest =>
    match directory.lookup reached.reverse with
    | .directory =>
      if part = "" ∨ part = "." then directory.walk reached rest
      else if part = ".." then directory.walk (reached.drop 1) rest
      else directory.walk (part :: reached) rest
    | _ => .absent

def pathLimit : Nat := 4096

/-- What a path names for a program that runs in the directory. -/
def files (directory : Directory) : Files := fun path =>
  if path.isEmpty ∨ pathLimit ≤ path.utf8ByteSize then .absent
  else
    let start := if path.startsWith "/" then [] else directory.place.reverse
    directory.walk start (path.splitOn "/")

end Directory

end ShellTree
