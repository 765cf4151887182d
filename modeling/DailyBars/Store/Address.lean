import DailyBars.Text.Digits
import DailyBars.Text.Utf8

/-!
# Addresses of stores

A store is named by a path, by `:memory:` for one that is in memory only, or by an address that
starts with `file:`. Such an address is a path, options after a `?` with `&` between them, and a
remark after a `#`, which does not count. A `%` and two hexadecimal digits stand for a byte, and a
zero byte ends the part that it is in. The path may come after `//` and the name of this host, which
is empty or `localhost`; no path at all stands for memory.

The options that matter here are `mode`, which may narrow what the store is opened for but not widen
it, `cache`, which may ask to share the store with others, `immutable`, which asks for reading only,
and `vfs`, which has to name a way of locking. Others are passed over.
-/

namespace DailyBars

/-- What a store is opened for. -/
inductive Access where
  | read
  | write
  /-- Writing, also where nothing is. -/
  | create
  /-- Writing in memory, whatever is there. -/
  | memory
deriving DecidableEq

/-- The place of an access in the order in which one may be narrowed to another. -/
def Access.rank : Access → Nat
  | read => 0
  | write => 1
  | create => 2
  | memory => 3

/-- The access of a `mode` option. -/
def Access.ofMode? : String → Option Access
  | "ro" => some .read
  | "rw" => some .write
  | "rwc" => some .create
  | "memory" => some .memory
  | _ => none

/-- The access that is asked for, if it may be had where another was granted. Memory may always be
had. -/
def Access.narrow? (granted asked : Access) : Option Access :=
  if asked = .memory ∨ asked.rank ≤ granted.rank then some asked else none

/-- What an address names. -/
inductive StorePlace where
  | file (path : String)
  /-- Memory of its own for each one who opens it. -/
  | memory
  /-- Memory that all who open it share. -/
  | named (name : String)
deriving DecidableEq

/-- An address that has been understood. -/
structure StoreAddress where
  place : StorePlace
  access : Access
  /-- One who opens it has part in what others opened by the same address. -/
  isShared : Bool
  isReadOnly : Bool
deriving DecidableEq

namespace StoreAddress

/-! ### Parts -/

/-- The bytes of a text in which `%` and two hexadecimal digits stand for a byte. -/
def unescape : List Char → List UInt8
  | [] => []
  | '%' :: high :: low :: rest =>
    match Text.hexDigit? high, Text.hexDigit? low with
    | some high, some low => UInt8.ofNat (16 * high + low) :: unescape rest
    | _, _ => 0x25 :: unescape (high :: low :: rest)
  | c :: rest => String.utf8EncodeChar c ++ unescape rest

/-- What a part of an address says: its bytes before a zero. -/
def part (text : List Char) : String :=
  String.ofList (Text.lossy ((unescape text).takeWhile (· ≠ 0)))

/-- What comes before the first of a character, and what comes after it. -/
def splitAt (mark : Char) (text : List Char) : List Char × List Char :=
  (text.takeWhile (· ≠ mark), (text.dropWhile (· ≠ mark)).tail)

/-- The name and the value of an option; there is none without a name. -/
def option? (text : List Char) : Option (String × String) :=
  let (name, value) := splitAt '=' text
  let name := part name
  if name.isEmpty then none else some (name, part value)

/-- The options of an address. -/
def options (text : List Char) : List (String × String) :=
  ((String.ofList text).splitOn "&").filterMap fun option ↦ option? option.toList

/-- The path with its options after the name of this host, if it has one. -/
def afterHost? : List Char → Option (List Char)
  | '/' :: '/' :: rest =>
    let host := rest.takeWhile (· ≠ '/')
    if host = [] ∨ host = "localhost".toList then some (rest.dropWhile (· ≠ '/')) else none
  | rest => some rest

/-! ### Options -/

/-- The ways of locking that an address may name. -/
def lockings : List String := ["unix", "unix-none", "unix-dotfile", "unix-excl"]

/-- The way of locking of what is in memory. -/
def memoryLocking : String := "memdb"

/-- Whether a text means yes: one of some words, or a number other than zero. -/
def isYes (text : String) : Bool :=
  let digits := text.toList.takeWhile Char.isDigit
  if digits.isEmpty then ["on", "yes", "true"].contains (text.map Char.toLower)
  else digits.any (· ≠ '0')

/-- What the options read so far ask for: an access, and whether to share. -/
def applyOption? (asked : Access × Bool) (option : String × String) : Option (Access × Bool) :=
  match option with
  | ("mode", mode) => (Access.ofMode? mode).bind fun access ↦
    (asked.1.narrow? access).map fun access ↦ (access, asked.2)
  | ("cache", "shared") => some (asked.1, true)
  | ("cache", "private") => some (asked.1, false)
  | ("cache", _) => none
  | _ => some asked

/-- The last value of an option. -/
def lastValue? (options : List (String × String)) (name : String) : Option String :=
  (options.reverse.find? fun option ↦ option.1 == name).map (·.2)

/-- The first value of an option. -/
def firstValue? (options : List (String × String)) (name : String) : Option String :=
  (options.find? fun option ↦ option.1 == name).map (·.2)

/-- The address after `file:`. -/
def ofMarked? (access : Access) (text : List Char) : Option StoreAddress := do
  let body := (splitAt '#' (← afterHost? text)).1
  let (path, query) := splitAt '?' body
  let path := part path
  let options := options query
  let (access, isShared) ← options.foldlM applyOption? (access, false)
  let locking := (lastValue? options "vfs").getD (lockings.headD "")
  if !lockings.contains locking && locking != memoryLocking then none
  if path.isEmpty then some ⟨.memory, access, false, access = .read⟩
  else if access = .memory ∨ path = ":memory:" ∨ locking = memoryLocking then
    some ⟨if isShared then .named path else .memory, access, isShared, access = .read⟩
  else
    let isReadOnly := access = .read || ((firstValue? options "immutable").map isYes).getD false
    some ⟨.file path, access, isShared, isReadOnly⟩

/-- The address that a text writes, opened for something; none for a text that holds a NUL or that
asks for what it may not have. -/
def ofText? (access : Access) (text : String) : Option StoreAddress :=
  if text.contains '\x00' then none
  else if text.startsWith "file:" then ofMarked? access (text.toList.drop 5)
  else
    let place := if text.isEmpty || text == ":memory:" then .memory else .file text
    some ⟨place, access, false, access = .read⟩

end StoreAddress

end DailyBars
