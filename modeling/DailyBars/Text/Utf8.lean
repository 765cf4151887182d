/-!
# UTF-8

The content of a file is read as pieces: the characters it encodes, and the bytes that are part of
no character. A reader can then tell where a file is no text and still use the text before, and
the bytes can be had back from the pieces. For texts that may be broken there is also a lossy
reading, in which a replacement character stands for each broken sequence.
-/

namespace DailyBars.Text

/-- The six low bits of a continuation byte. -/
def continuation? (byte : UInt8) : Option Nat :=
  if byte.toNat / 64 = 2 then some (byte.toNat % 64) else none

/-- The code point at the front of some bytes, with the number of bytes it takes: one to four,
as few as the code point needs. -/
def codePoint? : List UInt8 → Option (Nat × Nat)
  | [] => none
  | first :: rest =>
    let lead := first.toNat
    let tail := (rest.take 3).map continuation?
    if lead < 0x80 then some (lead, 1)
    else
      match tail with
      | some a :: more =>
        if 0xC2 ≤ lead ∧ lead < 0xE0 then some (64 * (lead % 32) + a, 2)
        else
          match more with
          | some b :: more =>
            let short := 4096 * (lead % 16) + 64 * a + b
            if 0xE0 ≤ lead ∧ lead < 0xF0 ∧ 0x800 ≤ short then some (short, 3)
            else
              match more with
              | some c :: _ =>
                let long := 262144 * (lead % 8) + 4096 * a + 64 * b + c
                if 0xF0 ≤ lead ∧ lead < 0xF8 ∧ 0x10000 ≤ long then some (long, 4) else none
              | _ => none
          | _ => none
      | _ => none

/-- The character at the front of some bytes, with the number of bytes it takes. -/
def decodeOne? (bytes : List UInt8) : Option (Char × Nat) := do
  let (n, length) ← codePoint? bytes
  if h : n.isValidChar then some (Char.ofNatAux n h, length) else none

/-- A part of the content of a file. -/
inductive Piece where
  | char (c : Char)
  /-- A byte that is part of no character. -/
  | byte (value : UInt8)
deriving DecidableEq

/-- The character that a piece is. -/
def Piece.char? : Piece → Option Char
  | .char c => some c
  | .byte _ => none

/-- The bytes of a piece. -/
def Piece.bytes : Piece → List UInt8
  | .char c => String.utf8EncodeChar c
  | .byte value => [value]

/-- The pieces of some bytes. -/
def decode (bytes : List UInt8) : List Piece :=
  match bytes with
  | [] => []
  | first :: rest =>
    match decodeOne? (first :: rest) with
    | some (c, length) => .char c :: decode (rest.drop (length - 1))
    | none => .byte first :: decode rest
termination_by bytes.length
decreasing_by
  · simp only [List.length_cons, List.length_drop]; omega
  · simp only [List.length_cons]; omega

/-- The bytes of some pieces. -/
def encode (content : List Piece) : List UInt8 :=
  content.flatMap Piece.bytes

/-- The pieces of a text. -/
def pieces (text : List Char) : List Piece :=
  text.map .char

/-- The text, if every piece is a character. -/
def wholeText? (content : List Piece) : Option (List Char) :=
  content.mapM Piece.char?

/-- Whether some bytes are the bytes of a text. -/
def isWhole (bytes : List UInt8) : Bool :=
  (wholeText? (decode bytes)).isSome

/-- The content without a byte-order mark at its start. -/
def dropMark : List Piece → List Piece
  | .char '\ufeff' :: rest => rest
  | content => content

/-! ### Lossy reading -/

/-- The least and the greatest second byte of the sequences of three or four bytes that start with
a byte. -/
def secondBounds? (lead : Nat) : Option (Nat × Nat) :=
  if lead = 0xE0 then some (0xA0, 0xBF)
  else if lead = 0xED then some (0x80, 0x9F)
  else if lead = 0xF0 then some (0x90, 0xBF)
  else if lead = 0xF4 then some (0x80, 0x8F)
  else if 0xE0 ≤ lead ∧ lead < 0xF4 then some (0x80, 0xBF)
  else none

/-- How many bytes after the first belong to the broken sequence at the front of some bytes that
start with no character: as many as could have gone on to one. -/
def brokenRest (lead : Nat) (rest : List UInt8) : Nat :=
  match secondBounds? lead, rest with
  | some (least, greatest), second :: rest =>
    if least ≤ second.toNat ∧ second.toNat ≤ greatest then
      if 0xF0 ≤ lead ∧ (rest.head?.bind continuation?).isSome then 2 else 1
    else 0
  | _, _ => 0

/-- The characters that bytes encode, with one replacement character for each broken sequence. -/
def lossy (bytes : List UInt8) : List Char :=
  match bytes with
  | [] => []
  | first :: rest =>
    match decodeOne? (first :: rest) with
    | some (c, length) => c :: lossy (rest.drop (length - 1))
    | none => '\ufffd' :: lossy (rest.drop (brokenRest first.toNat rest))
termination_by bytes.length
decreasing_by
  all_goals simp only [List.length_cons, List.length_drop]; omega

theorem wholeText?_pieces (text : List Char) : wholeText? (pieces text) = some text := by
  induction text with
  | nil => rfl
  | cons c rest ih => simp_all [wholeText?, pieces, Piece.char?]

end DailyBars.Text
