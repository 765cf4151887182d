import DailyBars.Binary64.Text

/-!
# JSON

The values of reports and their text: every item of an array and every member of an object stands
on a line of its own, indented by two blanks for each level; an empty array or object is closed at
once. A double that is not finite is written as `null`.
-/

namespace DailyBars

/-- A JSON value; members keep their order. -/
inductive Json where
  | null
  | truth (value : Bool)
  | integer (n : Int)
  | real (x : Binary64)
  | text (content : String)
  | array (items : List Json)
  | object (members : List (String × Json))

namespace Json

instance : Inhabited Json := ⟨null⟩

/-- What `f` makes of a value, `null` for none. -/
def ofOption {α : Type} (f : α → Json) (value : Option α) : Json :=
  value.elim null f

/-- The array of what `f` makes of values. -/
def ofList {α : Type} (f : α → Json) (values : List α) : Json :=
  array (values.map f)

/-- A character of a string: quotes, backslashes and controls are escaped. -/
def quotedChar (c : Char) : List Char :=
  match c with
  | '\x22' => ['\\', '\x22']
  | '\\' => ['\\', '\\']
  | '\x08' => ['\\', 'b']
  | '\t' => ['\\', 't']
  | '\n' => ['\\', 'n']
  | '\x0c' => ['\\', 'f']
  | '\r' => ['\\', 'r']
  | c =>
    if c.toNat < 0x20 then
      ['\\', 'u', '0', '0', Nat.digitChar (c.toNat / 16), Nat.digitChar (c.toNat % 16)]
    else [c]

/-- A string. -/
def quoted (content : String) : String :=
  String.ofList ('\x22' :: content.toList.flatMap quotedChar ++ ['\x22'])

/-- The start of a line at a level. -/
def lineStart (level : Nat) : String :=
  String.ofList ('\n' :: List.replicate (2 * level) ' ')

/-- Lines between two brackets; nothing but the brackets if there are none. -/
def bracketed (level : Nat) (opening closing : String) (lines : List String) : String :=
  if lines.isEmpty then opening ++ closing
  else
    let inner := ",".intercalate (lines.map (lineStart (level + 1) ++ ·))
    opening ++ inner ++ lineStart level ++ closing

mutual

/-- The text of a value that starts on a line of a level. -/
def render (level : Nat) : Json → String
  | null => "null"
  | truth true => "true"
  | truth false => "false"
  | integer n => toString n
  | real x => if x.isFinite then Binary64.Layout.document.finite x else "null"
  | text content => quoted content
  | array items => bracketed level "[" "]" (renderItems (level + 1) items)
  | object members => bracketed level "\x7b" "\x7d" (renderMembers (level + 1) members)

/-- The texts of the items of an array. -/
def renderItems (level : Nat) : List Json → List String
  | [] => []
  | item :: rest => item.render level :: renderItems level rest

/-- The texts of the members of an object. -/
def renderMembers (level : Nat) : List (String × Json) → List String
  | [] => []
  | (name, value) :: rest =>
    (quoted name ++ ": " ++ value.render level) :: renderMembers level rest

end

/-- The text of a value. -/
def toText (value : Json) : String :=
  value.render 0

end Json

end DailyBars
