import DailyBars.Bytes.Blake3
import DailyBars.Store.Basic

/-!
# The content hash of a store

The hash runs over the bars in logical order, each as its asset in eight bytes, the text of its
day, its four prices as words of eight bytes and its volume in eight bytes, the lowest byte of a
word first. Neither the order in which bars were added nor the writes they came in have a part
in it. Its short form labels a store in reports.
-/

namespace DailyBars

/-- The hexadecimal hash of the rows of a store. -/
structure ContentHash where
  hex : String
deriving DecidableEq

namespace ContentHash

/-- The characters in the first `bytes` bytes of a text, or all of a shorter text; none if that
would split a character. -/
def takeBytes? : Nat → List Char → Option (List Char)
  | 0, _ => some []
  | _ + 1, [] => some []
  | bytes + 1, c :: rest =>
    if c.utf8Size ≤ bytes + 1 then (takeBytes? (bytes + 1 - c.utf8Size) rest).map (c :: ·)
    else none

/-- The first twelve bytes, if they are whole characters. -/
def short? (hash : ContentHash) : Option String :=
  (takeBytes? 12 hash.hex.toList).map String.ofList

end ContentHash

/-- A signed word as eight bytes. -/
def Bytes.ofInt64 (word : Int64) : List UInt8 :=
  littleEndian 8 word.toUInt64.toNat

/-- A double as eight bytes. -/
def Bytes.ofDouble (x : Binary64) : List UInt8 :=
  littleEndian 8 x.bits.toNat

/-- The characters of an ASCII text as bytes. -/
def Bytes.ofAscii (text : String) : List UInt8 :=
  text.toList.map fun c ↦ UInt8.ofNat c.toNat

/-- The bytes of one bar. -/
def Bar.bytes (bar : Bar) : List UInt8 :=
  Bytes.ofInt64 bar.asset.value ++ Bytes.ofAscii bar.day.text ++
    bar.prices.flatMap Bytes.ofDouble ++ Bytes.ofInt64 bar.volume

/-- The bytes that the hash of a store runs over. -/
def Store.bytes (store : Store) : List UInt8 :=
  store.rows.flatMap Bar.bytes

/-- The hash of the content of a store. -/
def Store.contentHash (store : Store) : ContentHash :=
  ⟨Bytes.Blake3.hex (Bytes.Blake3.hash store.bytes)⟩

end DailyBars
