/-!
A tree of files around one directory, and what a path in it leads to. Directories are those that the
paths of the files go through, and those above.
-/

namespace LineLexer

/-- Why the text of a file cannot be had. -/
inductive ReadFault
  | notFound | notDirectory | isDirectory | notText
  | other (reason : String)
  deriving DecidableEq, Repr

def ReadFault.message : ReadFault → String
  | notFound => "No such file or directory (os error 2)"
  | notDirectory => "Not a directory (os error 20)"
  | isDirectory => "Is a directory (os error 21)"
  | notText => "stream did not contain valid UTF-8"
  | other reason => reason

def decodeText (bytes : ByteArray) : Except ReadFault String :=
  match String.fromUTF8? bytes with
  | some text => .ok text
  | none => .error .notText

/-- Files by their places. A place is the list of names that lead to it by the shortest way from the
directory in which paths start, so names of the directory above stand only at its front. -/
structure Files where
  /-- The places of the directories that the files lie in. -/
  directories : List (List String)
  /-- Of two files at one place the first counts. -/
  entries : List (List String × ByteArray)

namespace Files

def names (path : String) : List String := path.splitOn "/"

/-- Names that stay where they are. -/
def isHere (name : String) : Bool := name == "" || name == "."

def isAbove (name : String) : Bool := name == ".."

/-- The place that a name leads to from a directory. -/
def step (place : List String) (name : String) : List String :=
  if isHere name then place
  else if isAbove name && !place.all isAbove then place.dropLast
  else place ++ [name]

/-- The places that names lead to, one after the other. -/
def trail (place : List String) : List String → List (List String)
  | [] => []
  | name :: rest => step place name :: trail (step place name) rest

/-- The files that are written to the given paths in order, with the directories on the way. -/
def ofList (files : List (String × ByteArray)) : Files :=
  let trails := files.map fun (path, bytes) => (trail [] (names path), bytes)
  ⟨trails.flatMap (·.1.dropLast), trails.reverse.map fun (ps, bytes) => (ps.getLastD [], bytes)⟩

/-- Above every directory there is one. -/
def isDirectory (f : Files) (place : List String) : Bool :=
  place.all isAbove || f.directories.contains place

/-- The file that names lead to from a directory. -/
def find (f : Files) (place : List String) : List String → Except ReadFault ByteArray
  | [] => .error .isDirectory
  | name :: rest =>
    let next := step place name
    if f.isDirectory next then f.find next rest
    else
      match f.entries.lookup next with
      | none => .error .notFound
      | some bytes => if rest.isEmpty then .ok bytes else .error .notDirectory

/-- What names lead to from the topmost directory, in which nothing is known but itself. -/
def findTop (names : List String) : ReadFault :=
  if names.all fun name => isHere name || isAbove name then .isDirectory else .notFound

def read (f : Files) (path : String) : Except ReadFault String :=
  if path.startsWith "/" then .error (findTop (names path))
  else f.find [] (names path) >>= decodeText

end Files
end LineLexer
