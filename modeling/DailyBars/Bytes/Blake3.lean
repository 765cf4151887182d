import DailyBars.Bytes.LittleEndian

/-!
# The BLAKE3 hash

Input is cut into chunks of 1024 bytes, each chunk into blocks of 64. A block is compressed with
the chaining value of the block before it; chunks are the leaves of a binary tree whose inner
nodes compress the chaining values of their two children. The last compression of a tree is marked
as its root, and its first eight words are the hash.
-/

namespace DailyBars.Bytes.Blake3

/-- The initial chaining value. -/
def initial : Vector UInt32 8 :=
  #v[0x6A09E667, 0xBB67AE85, 0x3C6EF372, 0xA54FF53A, 0x510E527F, 0x9B05688C, 0x1F83D9AB,
    0x5BE0CD19]

/-- Marks of the place of a compression in the tree. -/
def chunkStart : UInt32 := 1
def chunkEnd : UInt32 := 2
def parentMark : UInt32 := 4
def rootMark : UInt32 := 8

def rotateRight (word : UInt32) (count : UInt32) : UInt32 :=
  (word >>> count) ||| (word <<< (32 - count))

/-- Mixes two message words into four words of the state. -/
def mix (state : Vector UInt32 16) (a b c d : Fin 16) (x y : UInt32) : Vector UInt32 16 :=
  let va := state[a] + state[b] + x
  let vd := rotateRight (state[d] ^^^ va) 16
  let vc := state[c] + vd
  let vb := rotateRight (state[b] ^^^ vc) 12
  let va := va + vb + y
  let vd := rotateRight (vd ^^^ va) 8
  let vc := vc + vd
  let vb := rotateRight (vb ^^^ vc) 7
  (((state.set a va).set b vb).set c vc).set d vd

/-- One round: the columns of the state, then its diagonals. -/
def round (state message : Vector UInt32 16) : Vector UInt32 16 :=
  let state := mix state 0 4 8 12 message[0] message[1]
  let state := mix state 1 5 9 13 message[2] message[3]
  let state := mix state 2 6 10 14 message[4] message[5]
  let state := mix state 3 7 11 15 message[6] message[7]
  let state := mix state 0 5 10 15 message[8] message[9]
  let state := mix state 1 6 11 12 message[10] message[11]
  let state := mix state 2 7 8 13 message[12] message[13]
  mix state 3 4 9 14 message[14] message[15]

/-- The order in which a round takes the message words of the round before. -/
def permute (message : Vector UInt32 16) : Vector UInt32 16 :=
  #v[message[2], message[6], message[3], message[10], message[7], message[0], message[4],
    message[13], message[1], message[11], message[12], message[5], message[9], message[14],
    message[15], message[8]]

/-- `count` rounds, the message permuted after each. -/
def rounds : Nat → Vector UInt32 16 → Vector UInt32 16 → Vector UInt32 16
  | 0, state, _ => state
  | count + 1, state, message => rounds count (round state message) (permute message)

/-- A compression that is still to be done, so that it can be marked as the root. -/
structure Node where
  chaining : Vector UInt32 8
  message : Vector UInt32 16
  counter : Nat
  size : Nat
  marks : UInt32

/-- The first eight words of a compression. -/
def Node.compress (node : Node) (extraMarks : UInt32) : Vector UInt32 8 :=
  let tail : Vector UInt32 8 :=
    #v[initial[0], initial[1], initial[2], initial[3], UInt32.ofNat node.counter,
      UInt32.ofNat (node.counter / 0x100000000), UInt32.ofNat node.size, node.marks ||| extraMarks]
  let state := rounds 7 (node.chaining ++ tail) node.message
  Vector.ofFn fun i : Fin 8 ↦ state[i.val] ^^^ state[i.val + 8]

/-- The message words of a block, padded with zero bytes. -/
def messageOf (block : List UInt8) : Vector UInt32 16 :=
  let bytes := block.toArray
  Vector.ofFn fun i : Fin 16 ↦
    UInt32.ofNat (ofLittleEndian ((List.range 4).map fun j ↦ bytes.getD (4 * i.val + j) 0))

/-- A list cut into pieces of `size` entries; the last piece may be shorter. -/
def pieces {α : Type} (size : Nat) (list : List α) : List (List α) :=
  if 0 < size ∧ size < list.length then list.take size :: pieces size (list.drop size)
  else [list]
termination_by list.length
decreasing_by simp only [List.length_drop]; omega

/-- The node of a chunk, given its blocks in order and the chaining value so far. -/
def chunkNode (counter : Nat) (chaining : Vector UInt32 8) (marks : UInt32) :
    List (List UInt8) → Node
  | [] => ⟨chaining, messageOf [], counter, 0, marks ||| chunkEnd⟩
  | [block] => ⟨chaining, messageOf block, counter, block.length, marks ||| chunkEnd⟩
  | block :: rest =>
    let node : Node := ⟨chaining, messageOf block, counter, block.length, marks⟩
    chunkNode counter (node.compress 0) 0 rest

/-- The node above two others. -/
def parentNode (left right : Node) : Node :=
  ⟨initial, left.compress 0 ++ right.compress 0, 0, 64, parentMark⟩

/-- The nodes one level up; a node without a partner stays. -/
def pairUp : List Node → List Node
  | left :: right :: rest => parentNode left right :: pairUp rest
  | rest => rest

theorem length_pairUp_lt (nodes : List Node) (h : 2 ≤ nodes.length) :
    (pairUp nodes).length < nodes.length := by
  have hle (nodes : List Node) : (pairUp nodes).length ≤ nodes.length := by
    fun_induction pairUp nodes with
    | case1 left right rest ih => simp only [List.length_cons]; omega
    | case2 => exact Nat.le_refl _
  match nodes with
  | [] => simp at h
  | [_] => simp at h
  | left :: right :: rest =>
    have := hle rest
    simp only [pairUp, List.length_cons]
    omega

/-- The node at the top of the tree over a row of nodes. -/
def top (first : Node) (rest : List Node) : Node :=
  match _h : pairUp (first :: rest) with
  | [] => first
  | [node] => node
  | node :: second :: more => top node (second :: more)
termination_by rest.length
decreasing_by
  have hrest : 2 ≤ (first :: rest).length := by
    match rest, _h with
    | [], h => simp [pairUp] at h
    | _ :: _, _ => simp
  have hlt := length_pairUp_lt (first :: rest) hrest
  rw [_h] at hlt
  simp only [List.length_cons] at hlt ⊢
  omega

/-- The hash of a list of bytes. -/
def hash (bytes : List UInt8) : List UInt8 :=
  let leaves := (pieces 1024 bytes).zipIdx.map fun (chunk, i) ↦
    chunkNode i initial chunkStart (pieces 64 chunk)
  let root :=
    match leaves with
    | [] => chunkNode 0 initial chunkStart []
    | first :: rest => top first rest
  (root.compress rootMark).toList.flatMap fun word ↦ littleEndian 4 word.toNat

/-- Bytes in lower-case hexadecimal. -/
def hex (bytes : List UInt8) : String :=
  let digit (n : Nat) : Char := Nat.digitChar n
  String.ofList (bytes.flatMap fun byte ↦ [digit (byte.toNat / 16), digit (byte.toNat % 16)])

end DailyBars.Bytes.Blake3
