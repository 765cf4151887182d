import DailyBars.Config
import DailyBars.Files
import DailyBars.SymbolMap.Basic
import DailyBars.Toml.Document
import DailyBars.Toml.Printer

/-!
# Symbol maps as documents

A symbol map is a TOML document with one table `assets`, from symbols to numbers. A document
without the table is the empty map; other keys are passed over. Every map has a text.
-/

namespace DailyBars.SymbolMap

open Toml

/-- The numbers in the entries of a table. -/
def ofTable? (value : Value) : Option SymbolMap := do
  let entries ← (← value.entries?).mapM fun (symbol, value) ↦
    value.integer?.map fun n ↦ (symbol, AssetId.mk n)
  return ofEntries entries

/-- The map that a text writes. -/
def ofText (text : String) : Except ConfigError SymbolMap :=
  match (Toml.ofText? text).bind fun entries ↦ field? entries "assets" ofTable? (some empty) with
  | none => .error .malformed
  | some map => .ok map

/-- The text of a map. -/
def toText (map : SymbolMap) : String :=
  String.ofList <| headerText "assets" ++
    map.entries.flatMap fun (symbol, asset) ↦ assignText symbol (integerText asset.value)

/-- The map in the file at a path; the empty map if nothing is there. -/
def load (files : Files) (path : String) : Except ConfigError SymbolMap :=
  if files.has path then
    match files.text? path with
    | none => .error (.unreadable path)
    | some text => ofText text
  else .ok empty

/-- Writes the map to a path, where directories are made as needed; those that are made before a
failure stay. -/
def save (map : SymbolMap) (files : Files) (path : String) : Except ConfigError Unit × Files :=
  match files.makeParents path with
  | (false, files) => (.error (.unreadable path), files)
  | (true, files) =>
    match files.write? path map.toText with
    | none => (.error (.unreadable path), files)
    | some files => (.ok (), files)

end DailyBars.SymbolMap
