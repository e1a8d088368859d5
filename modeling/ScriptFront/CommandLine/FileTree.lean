import ScriptFront.CommandLine.Run

/-! A working directory given as a list of files, and runs of the command in it.
A file's parent directories exist with it; nothing is known of what lies outside
the working directory. -/
namespace ScriptFront.CommandLine

/-- Files by the parts of their paths. Of two with one path the later counts. -/
structure FileTree where
  files : List (List String × ByteArray)

/-- A place a path can lead to. -/
inductive Place where
  | outside
  | inside (parts : List String)

namespace FileTree

def ofFiles (files : List (String × ByteArray)) : FileTree :=
  ⟨files.reverse.map fun (path, bytes) => (pathParts path, bytes)⟩

def file? (tree : FileTree) (parts : List String) : Option ByteArray :=
  tree.files.lookup parts

def isDirectory (tree : FileTree) (parts : List String) : Bool :=
  parts.isEmpty ||
    tree.files.any fun (path, _) => parts.length < path.length && parts.isPrefixOf path

/-- Follows one part of a path, which only a directory allows. -/
def enter (tree : FileTree) (place : Place) (part : String) : Except ReadFault Place :=
  match place with
  | .outside => if part = "" || part = "." || part = ".." then .ok .outside else .error .missing
  | .inside parts =>
    if tree.isDirectory parts then
      if part = "" || part = "." then .ok place
      else if part = ".." then
        .ok (if parts.isEmpty then .outside else .inside parts.dropLast)
      else .ok (.inside (parts ++ [part]))
    else if (tree.file? parts).isSome then .error .notDirectory
    else .error .missing

def resolve (tree : FileTree) (path : String) : Except ReadFault Place :=
  if path = "" then .error .missing
  else
    let start := if path.startsWith "/" then Place.outside else .inside []
    (path.splitOn "/").foldlM tree.enter start

def read (tree : FileTree) (path : String) : Except ReadFault String :=
  match tree.resolve path with
  | .error fault => .error fault
  | .ok .outside => .error .isDirectory
  | .ok (.inside parts) =>
    if tree.isDirectory parts then .error .isDirectory
    else
      match tree.file? parts with
      | some bytes => decodeFile bytes
      | none => .error .missing

end FileTree

/-- What a run has printed. -/
structure Transcript where
  out : String
  err : String

/-- The host of a file tree. Every duration reads the same. -/
def FileTree.host (tree : FileTree) (duration : String) : Host (StateM Transcript) where
  readFile path := pure (tree.read path)
  startClock := pure (pure duration)
  out text := modify fun t => { t with out := t.out ++ text }
  err text := modify fun t => { t with err := t.err ++ text }

def FileTree.run (tree : FileTree) (duration : String) (args : List String) :
    UInt32 × Transcript :=
  (CommandLine.run (tree.host duration) args).run ⟨"", ""⟩

end ScriptFront.CommandLine
