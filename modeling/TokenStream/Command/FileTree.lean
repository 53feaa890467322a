/-!
# Reading files by name

A file tree holds the files and directories below the working directory. A name is resolved
component by component from the left, and the first component that cannot be followed is the cause
of the failure. Nothing is known of the directories around the working directory but that they are
directories.
-/

namespace TokenStream.Command

inductive ReadError where
  | notFound
  | notDirectory
  | isDirectory
  | nameTooLong
  /-- The bytes of the file are not UTF-8. -/
  | notText
  | system (code : Nat) (reason : String)
deriving DecidableEq, Repr

def ReadError.message : ReadError → String
  | notFound => "No such file or directory (os error 2)"
  | notDirectory => "Not a directory (os error 20)"
  | isDirectory => "Is a directory (os error 21)"
  | nameTooLong => "File name too long (os error 36)"
  | notText => "stream did not contain valid UTF-8"
  | system code reason => reason ++ " (os error " ++ toString code ++ ")"

/-- Reads bytes as UTF-8: no overlong forms, no surrogates, nothing above U+10FFFF. -/
def decode? (bytes : List UInt8) : Option String := String.fromUTF8? bytes.toByteArray

/-- The names that lead from the working directory to a place below it. -/
abbrev Path := List String

structure FileTree where
  files : List (Path × List UInt8) := []
  directories : List Path := []

namespace FileTree

def content? (tree : FileTree) (path : Path) : Option (List UInt8) := tree.files.lookup path

/-- A path leads to a directory if it is one, or if something lies below it. -/
def isDirectory (tree : FileTree) (path : Path) : Bool :=
  path.isEmpty || tree.directories.any path.isPrefixOf ||
    tree.files.any fun file => path.isPrefixOf file.1 && path != file.1

def maxComponent : Nat := 255

def maxName : Nat := 4095

/-- Follows the components of a name from a directory, which is `none` when it lies around the
working directory. -/
def follow (tree : FileTree) : Option Path → List String → Except ReadError (List UInt8)
  | _, [] => .error .isDirectory
  | here, name :: rest =>
    if name = "" ∨ name = "." then tree.follow here rest
    else if name = ".." then
      tree.follow (here.bind fun path => if path.isEmpty then none else some path.dropLast) rest
    else if maxComponent < name.utf8ByteSize then .error .nameTooLong
    else match here with
      | none => .error .notFound
      | some path =>
        match tree.content? (path ++ [name]) with
        | some bytes => if rest.isEmpty then .ok bytes else .error .notDirectory
        | none =>
          if tree.isDirectory (path ++ [name]) then tree.follow (some (path ++ [name])) rest
          else .error .notFound

def read (tree : FileTree) (name : String) : Except ReadError (List UInt8) :=
  if name = "" then .error .notFound
  else if maxName < name.utf8ByteSize then .error .nameTooLong
  else tree.follow (if name.startsWith "/" then none else some []) (name.splitOn "/")

end FileTree

end TokenStream.Command
