import DailyBars.Files
import DailyBars.Store.Address

/-!
# Stores among files

A store is opened for writing, which makes it and the directories on the way to it if nothing is
there, or for reading, which does not. An empty file is a store without bars that was never
written; any other file that is no store, and any directory, refuses both.

The path of a store is followed by its text alone: `..` takes away the component before it, whether
or not that is a directory. Only a file on the way, or a name that is too long, ends it.
-/

namespace DailyBars

/-- A store that was opened. -/
structure OpenStore where
  home : StoreHome
  /-- Nothing may be written to the store. -/
  isReadOnly : Bool
deriving DecidableEq

/-- Why a store is not opened. -/
inductive OpenFault where
  | missing
  | refused
deriving DecidableEq

namespace Files

/-! ### Homes -/

/-- The greatest number of bytes in a path to a store, counted from where the program runs. -/
def storePathLimit : Nat := 488

/-- The greatest number of bytes in the name of a store that is written: a journal stands beside it
then, with a name that is longer by eight. -/
def storeNameLimit : Nat := nameLimit - 8

/-- Whether a location may be followed further: what it is in is no file, and a name is not too long
for the directory that it is in. -/
def isPassable (files : Files) (location : Location) : Bool :=
  match files.node? location.dropLast with
  | some .directory => location.getLast?.all isName
  | some _ => false
  | none => true

/-- The location that the path of a store leads to. -/
def storeLocation? (files : Files) (path : String) : Option Location := do
  let (start, components) := parts path
  let location ← components.foldlM (fun location component ↦
    let next := step location component
    if files.isPassable next then some next else none) start
  if location == ["/"] || storePathLimit < (pathOf location).utf8ByteSize then none
  return location

/-- Whether a file may be made at a location. -/
def isFree (files : Files) (location : Location) : Bool :=
  files.isDirectory location.dropLast && location.getLast?.any isName

/-- The held store with a home. -/
def held? (files : Files) (home : StoreHome) : Option HeldStore :=
  files.held.find? fun held ↦ held.home == home

/-- The files with one more store held. -/
def hold (files : Files) (held : HeldStore) : Files :=
  { files with held := held :: files.held }

/-- The files where only the stores are held that are still open. -/
def release (files : Files) (opened : List OpenStore) : Files :=
  { files with
    held := files.held.filter fun held ↦ opened.any fun other ↦ other.home == held.home }

/-- A number that no held store in memory has. -/
def freeNumber (files : Files) : Nat :=
  files.held.foldl (fun least held ↦
    match held.home with
    | .memory number => max least (number + 1)
    | _ => least) 0

/-- The store with a home; `none` if there is something else, `some none` if it was never
written. -/
def storeAt? (files : Files) (home : StoreHome) : Option (Option Store) :=
  match home with
  | .file location =>
    match files.node? location with
    | some (.store store) => some (some store)
    | some (.file []) => some none
    | _ => none
  | home => (files.held? home).map (·.store)

/-- The bars with a home. -/
def storeOf (files : Files) (home : StoreHome) : Store :=
  ((files.storeAt? home).bind id).getD .empty

/-- The files with the store of a home replaced. -/
def putStore (files : Files) (home : StoreHome) (store : Store) : Files :=
  match home with
  | .file location => files.put location (.store store)
  | home => { files with
    held := files.held.map fun held ↦
      if held.home = home then { held with store := some store } else held }

/-- Whether the store of a home may be written for the first time. -/
def isWritable (home : StoreHome) : Bool :=
  match home with
  | .file location => location.getLast?.all fun name ↦ name.utf8ByteSize ≤ storeNameLimit
  | _ => true

/-! ### Opening -/

/-- A store joined with those who have it open, or held for the first time. -/
def join? (files : Files) (home : StoreHome) (isReadOnly : Bool) : OpenStore × Files :=
  match files.held? home with
  | some held => (⟨home, held.isReadOnly⟩, files)
  | none => (⟨home, isReadOnly⟩, files.hold ⟨home, isReadOnly, none⟩)

/-- The file of a store opened; an empty one is made if that is granted. -/
def openFile (files : Files) (address : StoreAddress) (path : String) :
    Except OpenFault (OpenStore × Files) :=
  match files.storeLocation? path with
  | none => .error .missing
  | some location =>
    let opened (files : Files) : OpenStore × Files :=
      if address.isShared then files.join? (.file location) address.isReadOnly
      else (⟨.file location, address.isReadOnly⟩, files)
    match files.node? location with
    | some .directory => .error (if address.access = .read then .refused else .missing)
    | some _ => .ok (opened files)
    | none =>
      if address.access = .create && files.isFree location then
        .ok (opened (files.put location (.file [])))
      else .error .missing

/-- What the text of an address names, opened. -/
def openAt (files : Files) (access : Access) (text : String) :
    Except OpenFault (OpenStore × Files) :=
  match StoreAddress.ofText? access text with
  | none => .error .refused
  | some address =>
    match address.place with
    | .file path => files.openFile address path
    | .memory => .ok (files.join? (.memory files.freeNumber) address.isReadOnly)
    | .named name => .ok (files.join? (.named name) address.isReadOnly)

/-- A store that was opened for writing, written for the first time if it never was. -/
def prepare (opened : OpenStore) (files : Files) : Except StoreError OpenStore × Files :=
  match files.storeAt? opened.home with
  | none => (.error .database, files)
  | some (some _) => (.ok opened, files)
  | some none =>
    if opened.isReadOnly || !isWritable opened.home then (.error .database, files)
    else (.ok opened, files.putStore opened.home .empty)

/-- Opens a store for writing; it is made if nothing is there. -/
def openStore (files : Files) (path : String) : Except StoreError OpenStore × Files :=
  match files.openAt .write path with
  | .ok (opened, files) => prepare opened files
  | .error .refused => (.error .database, files)
  | .error .missing =>
    match files.makeParents path with
    | (false, files) => (.error (.bootstrap path none), files)
    | (true, files) =>
      match files.openAt .create path with
      | .ok (opened, files) => prepare opened files
      | .error _ => (.error .database, files)

/-- Opens a store for reading; it has to be there, and written. -/
def openForReading (files : Files) (path : String) : Except StoreError OpenStore × Files :=
  match files.openAt .read path with
  | .error .missing => (.error (.storeNotFound path), files)
  | .error .refused => (.error .database, files)
  | .ok (opened, files) =>
    match files.storeAt? opened.home with
    | none => (.error .database, files)
    | some none => (.error (.storeNotFound path), files)
    | some (some _) => (.ok opened, files)

end Files

end DailyBars
