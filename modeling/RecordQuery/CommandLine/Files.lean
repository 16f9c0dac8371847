import RecordQuery.Text.Pieces

/-!
# Files

* `FileFault`: why a file cannot be read;
* `Files`: the text of each file, by path;
* `Directory`: a directory with known files, and `Directory.read`, the text at a path from it;
* `userConfig?`: where the options of the user are.
-/

namespace RecordQuery.CommandLine

inductive FileFault
  | missing
  | notDirectory
  | directory
  | denied
  | tooLong
  | notText
  | stated (text : String)
  deriving DecidableEq, Repr

def FileFault.message : FileFault → String
  | .missing => "No such file or directory (os error 2)"
  | .notDirectory => "Not a directory (os error 20)"
  | .directory => "Is a directory (os error 21)"
  | .denied => "Permission denied (os error 13)"
  | .tooLong => "File name too long (os error 36)"
  | .notText => "stream did not contain valid UTF-8"
  | .stated text => text

abbrev Files := String → Except FileFault String

/-! ## Directories with known files -/

/-- The files in a directory and below it, by the names on the way to them. -/
structure Directory where
  files : List (List String × String)

namespace Directory

/-- The most bytes that a name may have. -/
def nameLimit : Nat := 255

def pathLimit : Nat := 4095

/-- The names on the way along a path; an empty one and `.` stay where they are. -/
def names (path : String) : List String :=
  (Text.split path "/").filter fun name => name != "" && name != "."

def ofFiles (files : List (String × String)) : Directory :=
  ⟨files.map fun (path, text) => (names path, text)⟩

inductive Place
  | file (text : String)
  | inside (names : List String)
  /-- A directory around the known one, of which only the directories around it are known. -/
  | outside

def place? (d : Directory) (names : List String) : Option Place :=
  match d.files.lookup names with
  | some text => some (.file text)
  | none =>
    if d.files.any fun (file, _) => names.isPrefixOf file then some (.inside names) else none

def step (d : Directory) (p : Place) (name : String) : Except FileFault Place :=
  match p with
  | .file _ => .error .notDirectory
  | .outside =>
    if name = "" ∨ name = "." ∨ name = ".." then .ok .outside
    else if nameLimit < name.utf8ByteSize then .error .tooLong
    else .error .missing
  | .inside names =>
    if name = "" ∨ name = "." then .ok (.inside names)
    else if nameLimit < name.utf8ByteSize then .error .tooLong
    else if name = ".." then .ok (if names.isEmpty then .outside else .inside names.dropLast)
    else (d.place? (names ++ [name])).elim (.error .missing) .ok

def read (d : Directory) : Files := fun path => do
  if path.isEmpty then throw .missing
  if pathLimit < path.utf8ByteSize then throw .tooLong
  let start := if Text.startsWith path "/" then .outside else .inside []
  match ← (Text.split path "/").foldlM d.step start with
  | .file text => return text
  | _ => throw .directory

end Directory

/-! ## The user's options -/

def inDirectory (directory name : String) : String :=
  if Text.endsWith directory "/" then directory ++ name else directory ++ "/" ++ name

/-- The number of the user that a process belongs to, as its status gives it. -/
def userOf? (status : String) : Option String := do
  let line ← (Text.split status "\n").find? (Text.startsWith · "Uid:")
  (Text.split line "\t")[1]?

/-- The home of the user with the number, as the file of passwords gives it. -/
def homeOf? (passwords user : String) : Option String := do
  let entry ← ((Text.split passwords "\n").map (Text.split · ":")).find? (·[2]? == some user)
  entry[5]?

/-- The path of the user's options, if there is a place for them. `configHome` and `home` are variables, of
which the first counts if it is an absolute path and the second if it is not empty. `recordedHome` stands in
for the second. -/
def userConfig? (configHome home recordedHome : Option String) : Option String := do
  let home := home.filter (· != "") <|> recordedHome.filter (· != "")
  let base ← configHome.filter (Text.startsWith · "/") <|> home.map (inDirectory · ".config")
  return inDirectory (inDirectory base "qproj") "config.toml"

end RecordQuery.CommandLine
