import DailyBars.Store.Basic
import DailyBars.Text.Utf8

/-!
# Files

A tree of files by path. A path is walked one component at a time: an empty component or `.` stays
in a directory, `..` leaves it, and every component but the last has to name a directory that is
there. Paths and names have a greatest length, and no path holds a NUL. A file holds text, possibly
broken, or a store. Beside the tree stand the stores that are held open in memory.
-/

namespace DailyBars

/-- What a path leads to. -/
inductive Node where
  | directory
  | file (content : List Text.Piece)
  | store (rows : Store)
deriving DecidableEq

/-- A path from the place where the program runs, as its components; `/` as the first one stands
for the root. -/
abbrev Location : Type := List String

/-- Where an open store has its bars. -/
inductive StoreHome where
  | file (location : Location)
  /-- Memory of the one who opened it; the number tells it from others. -/
  | memory (number : Nat)
  /-- Memory that is common to all who open it by its name. -/
  | named (name : String)
deriving DecidableEq

/-- A store that lasts as long as someone has it open, or is shared as the first one opened it. -/
structure HeldStore where
  home : StoreHome
  /-- The first one to open it may only read, and so may all others. -/
  isReadOnly : Bool
  /-- The store, if it is in memory and was written. -/
  store : Option Store
deriving DecidableEq

/-- Files and directories by location, and held stores. The place where the program runs and all
directories above it are always there. -/
structure Files where
  nodes : List (Location × Node)
  held : List HeldStore

namespace Files

/-- No files. -/
def empty : Files := ⟨[], []⟩

instance : Inhabited Files := ⟨empty⟩

/-! ### Limits -/

/-- The greatest number of bytes in a name. -/
def nameLimit : Nat := 255

/-- The greatest number of bytes in a path. -/
def pathLimit : Nat := 4095

/-- Whether a text may name a file in a directory. -/
def isName (name : String) : Bool :=
  name.utf8ByteSize ≤ nameLimit

/-- Whether a text may lead to a file. -/
def isPath (path : String) : Bool :=
  !path.isEmpty && path.utf8ByteSize ≤ pathLimit && !path.contains '\x00'

/-! ### Looking up -/

/-- Whether a location is that of a directory on the way up from where the program runs, which
belongs to it, or of the root. -/
def isAbove (location : Location) : Bool :=
  location.all (· == "..") || location == ["/"]

/-- The node at a location. -/
def node? (files : Files) (location : Location) : Option Node :=
  if isAbove location then some .directory
  else (files.nodes.find? fun entry ↦ entry.1 == location).map (·.2)

def isDirectory (files : Files) (location : Location) : Bool :=
  match files.node? location with
  | some .directory => true
  | _ => false

/-- The files with a node put at a location, in place of what was there. -/
def put (files : Files) (location : Location) (node : Node) : Files :=
  { files with
    nodes := (location, node) :: files.nodes.filter fun entry ↦ entry.1 != location }

/-- The location after one step of a walk out of a directory. -/
def step (location : Location) (component : String) : Location :=
  if component == "" || component == "." then location
  else if component == ".." && !location.isEmpty && location.getLast? != some ".." then
    if location == ["/"] then location else location.dropLast
  else location ++ [component]

/-- The components of a path, and the location from which to walk them. -/
def parts (path : String) : Location × List String :=
  (if path.startsWith "/" then ["/"] else [], path.splitOn "/")

/-- The location at the end of a walk; every location that is left has to be a directory. -/
def walk (files : Files) (location : Location) : List String → Option Location
  | [] => some location
  | component :: rest =>
    if files.isDirectory location then files.walk (step location component) rest else none

/-- The locations on the way along a path, the last one included. -/
def waypoints (path : String) : List Location :=
  let (start, components) := parts path
  go start components
where
  go (location : Location) : List String → List Location
    | [] => []
    | component :: rest =>
      let next := step location component
      next :: go next rest

/-- The path of a location. -/
def pathOf (location : Location) : String :=
  match location with
  | "/" :: rest => "/" ++ "/".intercalate rest
  | location => "/".intercalate location

/-- The location that a path leads to; the last component need not be there. -/
def locate? (files : Files) (path : String) : Option Location :=
  if isPath path then
    let (start, components) := parts path
    files.walk start components
  else none

/-- What a path leads to. -/
def lookup? (files : Files) (path : String) : Option Node :=
  (files.locate? path).bind files.node?

/-- Whether a path leads anywhere. -/
def has (files : Files) (path : String) : Bool :=
  (files.lookup? path).isSome

/-- The content of the file at a path. -/
def content? (files : Files) (path : String) : Option (List Text.Piece) :=
  match files.lookup? path with
  | some (.file content) => some content
  | _ => none

/-- The text of the file at a path, if all of it is text. -/
def text? (files : Files) (path : String) : Option String :=
  ((files.content? path).bind Text.wholeText?).map String.ofList

/-! ### Making and writing -/

/-- Makes the directories of a walk that are not there. It ends, and the answer is `false`, where a
file is in the way or a name is too long; what was made before stays. -/
def makeAlong (files : Files) (location : Location) : List String → Bool × Files
  | [] => (true, files)
  | component :: rest =>
    let next := step location component
    match files.node? next with
    | some .directory => files.makeAlong next rest
    | some _ => (false, files)
    | none =>
      if isName component then (files.put next .directory).makeAlong next rest
      else (false, files)

/-- Whether a component of a path names something. -/
def isNamed (component : String) : Bool :=
  component != "" && component != "."

/-- The components of a path that name something. -/
def namedParts (path : String) : List String :=
  (path.splitOn "/").filter isNamed

/-- The last component of a path, unless it leads upward. -/
def fileName? (path : String) : Option String :=
  match (namedParts path).getLast? with
  | some ".." => none
  | name => name

/-- The path up to the last but one component that names something. -/
def parentPath (path : String) : String :=
  let components := (path.splitOn "/").reverse.dropWhile fun part ↦ !isNamed part
  "/".intercalate (components.tail.dropWhile fun part ↦ !isNamed part).reverse

/-- Makes the directory of a path and all directories on the way to it. -/
def makeParents (files : Files) (path : String) : Bool × Files :=
  let parent := parentPath path
  if parent.isEmpty || isPath parent then
    files.makeAlong (parts path).1 (namedParts path).dropLast
  else (false, files)

/-- The files with a text written at a path, where a directory has to hold it. -/
def write? (files : Files) (path text : String) : Option Files := do
  let location ← files.locate? path
  if files.isDirectory location || !location.getLast?.all isName then none
  return files.put location (.file (Text.pieces text.toList))

/-! ### Listing -/

/-- The names of the files, not the directories, in the directory at a path. -/
def listing? (files : Files) (path : String) : Option (List String) := do
  let location ← files.locate? path
  if !files.isDirectory location then none
  return files.nodes.filterMap fun (other, node) ↦
    match node with
    | .directory => none
    | _ => if other.dropLast == location then other.getLast? else none

/-- A path with a name joined to it. -/
def join (path name : String) : String :=
  if path.isEmpty || path.endsWith "/" then path ++ name else path ++ "/" ++ name

end Files

end DailyBars
