import ModelPlaybook.Fault

/-!
# Files

What lies at the paths of a tree of directories, and the text of files.  A path is a text with
slashes between its names.  It is normal if it has no empty parts and no `.` parts.  Parts `..`
stay.  One or two leading slashes make a path absolute and are kept; three or more count as one.
-/

namespace ModelPlaybook

namespace Path

/-- The parts of a text between its slashes. -/
def parts (s : String) : List String :=
  (s.toList.splitOn '/').map String.ofList

/-- The root of a path. -/
def root (s : String) : String :=
  let slashes := (s.toList.takeWhile (· = '/')).length
  if slashes = 0 then "" else if slashes = 2 then "//" else "/"

/-- The normal form of a path. -/
def normalize (s : String) : String :=
  let names := (parts s).filter fun part => part ≠ "" && part ≠ "."
  let body := "/".intercalate names
  let path := root s ++ body
  if path = "" then "." else path

end Path

inductive FileNode where
  | file (content : List UInt8)
  | directory
deriving DecidableEq, Repr

/-- Files and directories by their paths.  A directory is also there if something lies in it. -/
structure FileTree where
  nodes : List (String × FileNode)
deriving DecidableEq, Repr

namespace FileTree

def empty : FileTree := ⟨[]⟩

/-- The path of a name in a directory. -/
def child (directory name : String) : String :=
  directory ++ "/" ++ name

/-- Whether a path lies inside a directory. -/
def isBelow (directory path : String) : Bool :=
  (child directory "").toList.isPrefixOf path.toList

/-- Takes away what lies at a path, with everything below it. -/
def erase (t : FileTree) (path : String) : FileTree :=
  ⟨t.nodes.filter fun (p, _) => p ≠ path && !isBelow path p⟩

/-- Writes a file. -/
def write (t : FileTree) (path : String) (content : List UInt8) : FileTree :=
  ⟨(path, .file content) :: t.nodes.filter (·.1 ≠ path)⟩

/-- Makes a directory, unless something lies at the path already. -/
def makeDirectory (t : FileTree) (path : String) : FileTree :=
  if t.nodes.any (·.1 == path) then t else ⟨(path, .directory) :: t.nodes⟩

/-- The greatest number of bytes in a name. -/
def nameLimit : Nat := 255

/-- The fault of a path with a name that is too long. -/
def nameTooLong (path : String) : Fault :=
  ⟨.named "OSError", "[Errno 36] File name too long: " ++ Text.quoted path⟩

/-- What lies at a path. -/
def find (t : FileTree) (path : String) : Except Fault (Option FileNode) :=
  if (Path.parts path).any fun name => nameLimit < name.utf8ByteSize then .error (nameTooLong path)
  else
    match t.nodes.lookup path with
    | some node => .ok (some node)
    | none => .ok (if t.nodes.any fun (p, _) => isBelow path p then some .directory else none)

/-- Whether a directory lies at a path. -/
def isDirectory (t : FileTree) (path : String) : Except Fault Bool := do
  pure ((← t.find path) == some .directory)

/-- The content of the file at a path. -/
def file? (t : FileTree) (path : String) : Except Fault (Option (List UInt8)) := do
  match ← t.find path with
  | some (.file content) => pure (some content)
  | _ => pure none

end FileTree

namespace Text

/-- Every end of a line becomes a single line feed. -/
def unifyLines : List Char → List Char
  | [] => []
  | '\r' :: '\n' :: rest => '\n' :: unifyLines rest
  | '\r' :: rest => '\n' :: unifyLines rest
  | c :: rest => c :: unifyLines rest

/-- The text that the bytes of a file encode. -/
def ofBytes (content : List UInt8) : Except Fault String :=
  match String.fromUTF8? ⟨content.toArray⟩ with
  | some s => .ok (String.ofList (unifyLines s.toList))
  | none => .error .badBytes

def isAsciiLetterOrDigit (c : Char) : Bool :=
  ('a' ≤ c && c ≤ 'z') || ('A' ≤ c && c ≤ 'Z') || ('0' ≤ c && c ≤ '9')

/-- Whether a text can serve as the name of a model or a playbook: letters, digits, underscores,
dots and dashes, starting with a letter or a digit, without two dots in a row.  One line feed at
the end does no harm. -/
def isEntryName (s : String) : Bool :=
  let cs := s.toList
  let body := if cs.getLast? = some '\n' then cs.dropLast else cs
  let isPart (c : Char) : Bool := isAsciiLetterOrDigit c || ['_', '.', '-'].contains c
  (body.head?.map isAsciiLetterOrDigit).getD false && body.all isPart && !hasDoubleDot cs
where
  hasDoubleDot : List Char → Bool
    | '.' :: '.' :: _ => true
    | _ :: rest => hasDoubleDot rest
    | [] => false

end Text

end ModelPlaybook
