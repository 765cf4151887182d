/-!
# Arguments

The arguments of a command are options and positional values in any order. An option `--name` takes
the next argument as its value, or what follows `=` in the same argument, unless it is a switch.
The argument `--` makes all arguments after it positional; every other argument that starts with a
hyphen and is more than a hyphen has to be an option, and cannot be the value of one that stands
before it. Only options that collect values may be given more than once.
-/

namespace DailyBars

/-- What an option takes. -/
inductive OptionKind where
  /-- Nothing: it is there or not. -/
  | switch
  /-- One value. -/
  | single
  /-- A value each time that it is given. -/
  | collecting
deriving DecidableEq

/-- An option that a command knows; the name is written without hyphens. -/
structure OptionRule where
  name : String
  kind : OptionKind

/-- Arguments after they were sorted. -/
structure Arguments where
  /-- The options with their values, in the order in which they were given; a switch has an empty
  value. -/
  options : List (String × String)
  positionals : List String

namespace Arguments

/-- No arguments. -/
def empty : Arguments := ⟨[], []⟩

/-- The arguments with an option put before the others. -/
def addOption (name value : String) (arguments : Arguments) : Arguments :=
  { arguments with options := (name, value) :: arguments.options }

/-- The arguments with a positional value put before the others. -/
def addPositional (value : String) (arguments : Arguments) : Arguments :=
  { arguments with positionals := value :: arguments.positionals }

/-- Whether an argument starts with a hyphen and is more than that. -/
def isHyphenated (word : String) : Bool :=
  word.startsWith "-" && word != "-"

/-- The name of the option that an argument gives, with the value after `=`. -/
def optionOf? (word : String) : Option (String × Option String) :=
  match word.toList with
  | '-' :: '-' :: text =>
    let name := String.ofList (text.takeWhile (· ≠ '='))
    match text.dropWhile (· ≠ '=') with
    | [] => some (name, none)
    | _ :: value => some (name, some (String.ofList value))
  | _ => none

/-- What one argument gives. -/
inductive Item where
  | option (name value : String)
  /-- An option whose value is the argument after it. -/
  | optionWithNext (name value : String)
  | positional (value : String)
  /-- Nothing but positional values from here on. -/
  | separator

/-- What an argument gives, given the one after it; none if it cannot stand there. -/
def item? (rules : List OptionRule) (word : String) (next : Option String) : Option Item := do
  if word == "--" then return .separator
  else if isHyphenated word then
    let (name, attached) ← optionOf? word
    let rule ← rules.find? fun rule ↦ rule.name == name
    match rule.kind, attached with
    | .switch, none => return .option name ""
    | .switch, some _ => none
    | _, some value => return .option name value
    | _, none =>
      let value ← next
      if isHyphenated value then none else return .optionWithNext name value
  else return .positional word

/-- Sorted arguments. -/
def scan (rules : List OptionRule) : List String → Option Arguments
  | [] => some empty
  | word :: rest => do
    match ← item? rules word rest.head? with
    | .option name value => return addOption name value (← scan rules rest)
    | .optionWithNext name value => return addOption name value (← scan rules rest.tail)
    | .positional value => return addPositional value (← scan rules rest)
    | .separator => return ⟨[], rest⟩
termination_by words => words.length
decreasing_by all_goals (simp only [List.length_cons, List.length_tail]; omega)

/-- The values of an option. -/
def values (arguments : Arguments) (name : String) : List String :=
  (arguments.options.filter fun option ↦ option.1 == name).map (·.2)

/-- The value of an option that is given at most once. -/
def value? (arguments : Arguments) (name : String) : Option String :=
  (arguments.values name).head?

/-- Whether no option is given more often than its rule allows. -/
def isOrderly (rules : List OptionRule) (arguments : Arguments) : Bool :=
  rules.all fun rule ↦ rule.kind == .collecting || (arguments.values rule.name).length ≤ 1

/-- The arguments that a command with some options accepts. -/
def read? (rules : List OptionRule) (words : List String) : Option Arguments :=
  (scan rules words).filter (isOrderly rules)

/-- The options before the first positional argument, which names a command, that name and the
arguments after it. -/
def splitCommand? (rules : List OptionRule) :
    List String → Option (Arguments × String × List String)
  | [] => none
  | word :: rest => do
    match ← item? rules word rest.head? with
    | .option name value =>
      let (leading, command) ← splitCommand? rules rest
      return (leading.addOption name value, command)
    | .optionWithNext name value =>
      let (leading, command) ← splitCommand? rules rest.tail
      return (leading.addOption name value, command)
    | .positional name => return (empty, name, rest)
    | .separator => none
termination_by words => words.length
decreasing_by all_goals (simp only [List.length_cons, List.length_tail]; omega)

/-- The options before a command, its name and the arguments after it. -/
def readCommand? (rules : List OptionRule) (words : List String) :
    Option (Arguments × String × List String) :=
  (splitCommand? rules words).filter fun split ↦ split.1.isOrderly rules

end Arguments

end DailyBars
