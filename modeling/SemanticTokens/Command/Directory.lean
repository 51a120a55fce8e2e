import SemanticTokens.Failure

/-!
# Directories

A directory is given by the files below it, each with a path relative to it.
Looking up a path walks its pieces from the directory; what lies outside of it
is not known, apart from the directories on the way up.
-/

namespace SemanticTokens

namespace FilePath

def pieces : List Char → List (List Char)
  | [] => [[]]
  | character :: rest =>
      if character = '/' then [] :: pieces rest
      else
        match pieces rest with
        | [] => [[character]]
        | piece :: others => (character :: piece) :: others

/-- Whether a piece leads nowhere else: it is empty or a single dot. -/
def isIdle (piece : List Char) : Bool :=
  piece.isEmpty || piece == ['.']

/-- Most bytes of a name in a directory. -/
def maxNameSize : Nat :=
  255

def maxPathSize : Nat :=
  4095

def isLongName (name : List Char) : Bool :=
  maxNameSize < CodeUnit.utf8.size name

/-- Whether a path stands for the standard input: a dash and nothing else,
apart from slashes and dots after it. -/
def isStandardInput (path : String) : Bool :=
  match pieces path.toList with
  | piece :: others => piece == ['-'] && others.all isIdle
  | [] => false

end FilePath

/-- A directory, by the files below it. -/
structure Directory where
  /-- Paths and contents of the files. -/
  files : List (String × ByteArray)

namespace Directory

/-- Where a walk along a path has come to. -/
inductive Place where
  /-- A directory below the starting one, by the names on the way. -/
  | inside (names : List (List Char))
  /-- A directory that does not lie below the starting one. -/
  | outside
  | file (content : ByteArray)

/-- The names on the way to a file. -/
def names (path : String) : List (List Char) :=
  (FilePath.pieces path.toList).filter fun piece => !FilePath.isIdle piece

def child (directory : Directory) (way : List (List Char)) : Except ReadFailure Place :=
  match directory.files.find? fun (path, _) => names path == way with
  | some (_, content) => .ok (.file content)
  | none =>
      if directory.files.any fun (path, _) => way.isPrefixOf (names path) then .ok (.inside way)
      else .error .notFound

def follow (directory : Directory) (place : Place) (piece : List Char) :
    Except ReadFailure Place :=
  match place with
  | .file _ => .error .notDirectory
  | .outside =>
      if FilePath.isIdle piece || piece == ['.', '.'] then .ok .outside
      else if FilePath.isLongName piece then .error .nameTooLong
      else .error .notFound
  | .inside way =>
      if FilePath.isIdle piece then .ok (.inside way)
      else if piece == ['.', '.'] then
        .ok (if way.isEmpty then .outside else .inside way.dropLast)
      else if FilePath.isLongName piece then .error .nameTooLong
      else directory.child (way ++ [piece])

/-- Reads the file at a path.  Whether it is a path at all is seen before it is
followed. -/
def read (directory : Directory) (path : String) : Except ReadFailure ByteArray :=
  if path.toList.contains '\x00' then .error .nulInPath
  else if path.isEmpty then .error .notFound
  else if FilePath.maxPathSize < CodeUnit.utf8.size path.toList then .error .nameTooLong
  else
    let start : Place := if path.startsWith "/" then .outside else .inside []
    match (FilePath.pieces path.toList).foldlM directory.follow start with
    | .error reason => .error reason
    | .ok (.file content) => .ok content
    | .ok _ => .error .isDirectory

end Directory

end SemanticTokens
