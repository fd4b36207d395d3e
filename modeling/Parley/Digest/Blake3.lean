/-
The BLAKE3 hash with a digest of 256 bits. The input is cut into chunks of 1024 octets and each
chunk into blocks of 64; the compression function runs along the blocks of a chunk and then up a
binary tree of chunks whose left part is always the largest power of two below the whole.
-/
import Parley.Text.Hex

namespace Parley.Digest.Blake3

/-! ## Compression -/

/-- Eight words: a chaining value or a digest. -/
abbrev Chain := Vector UInt32 8

/-- Sixteen words: a block or the state of the compression function. -/
abbrev Block := Vector UInt32 16

/-- The chaining value that every chunk starts from. -/
def initial : Chain :=
  #v[0x6A09E667, 0xBB67AE85, 0x3C6EF372, 0xA54FF53A, 0x510E527F, 0x9B05688C, 0x1F83D9AB, 0x5BE0CD19]

/-- A word rotated to the right. -/
def rotateRight (w : UInt32) (n : UInt32) : UInt32 :=
  (w >>> n) ||| (w <<< (32 - n))

/-- Mixes two words of the message into a column or a diagonal of the state. -/
def mix (a b c d : Fin 16) (x y : UInt32) (s : Block) : Block :=
  let wa := s[a] + s[b] + x
  let wd := rotateRight (s[d] ^^^ wa) 16
  let wc := s[c] + wd
  let wb := rotateRight (s[b] ^^^ wc) 12
  let wa := wa + wb + y
  let wd := rotateRight (wd ^^^ wa) 8
  let wc := wc + wd
  let wb := rotateRight (wb ^^^ wc) 7
  (((s.set a wa).set b wb).set c wc).set d wd

/-- One round: the four columns, then the four diagonals. -/
def round (m : Block) (s : Block) : Block :=
  let s := mix 0 4 8 12 m[0] m[1] s
  let s := mix 1 5 9 13 m[2] m[3] s
  let s := mix 2 6 10 14 m[4] m[5] s
  let s := mix 3 7 11 15 m[6] m[7] s
  let s := mix 0 5 10 15 m[8] m[9] s
  let s := mix 1 6 11 12 m[10] m[11] s
  let s := mix 2 7 8 13 m[12] m[13] s
  mix 3 4 9 14 m[14] m[15] s

/-- The order in which a round takes the words of the round before. -/
def schedule : Vector (Fin 16) 16 :=
  #v[2, 6, 3, 10, 7, 0, 4, 13, 1, 11, 12, 5, 9, 14, 15, 8]

/-- The message words of the next round. -/
def reschedule (m : Block) : Block :=
  schedule.map fun i => m[i]

/-- A number of rounds, each with its own order of the message words. -/
def rounds : Nat → Block → Block → Block
  | 0, _, s => s
  | n + 1, m, s => rounds n (reschedule m) (round m s)

/-- What the compression function runs on: a block after a chaining value, the number of the chunk,
the number of octets in the block, and what the block is. -/
structure Node where
  chain : Chain
  block : Block
  counter : UInt64
  length : UInt32
  flags : UInt32

/-- The first block of a chunk. -/
def chunkStart : UInt32 := 1

/-- The last block of a chunk. -/
def chunkEnd : UInt32 := 2

/-- The two children of an inner node of the tree. -/
def parent : UInt32 := 4

/-- The last compression of all. -/
def root : UInt32 := 8

/-- The first half of the compression function's output. -/
def Node.compress (n : Node) : Chain :=
  let start : Block := #v[
    n.chain[0], n.chain[1], n.chain[2], n.chain[3], n.chain[4], n.chain[5], n.chain[6], n.chain[7],
    initial[0], initial[1], initial[2], initial[3],
    n.counter.toUInt32, (n.counter >>> 32).toUInt32, n.length, n.flags]
  let s := rounds 7 n.block start
  Vector.ofFn fun i : Fin 8 => s[i.val] ^^^ s[i.val + 8]

/-- The output of a node that is the root of the tree. -/
def Node.finish (n : Node) : Chain :=
  { n with flags := n.flags ||| root }.compress

/-! ## Chunks -/

/-- A list cut into pieces of `n + 1` elements, the last of which may be shorter; the empty list is
one empty piece. -/
def pieces {α : Type} (n : Nat) (l : List α) : List (List α) :=
  if l.length ≤ n + 1 then [l] else l.take (n + 1) :: pieces n (l.drop (n + 1))
termination_by l.length
decreasing_by simp; omega

/-- The word of four octets at a place in a block, the least octet first; octets past the end are
zero. -/
def wordAt (octets : List UInt8) (i : Nat) : UInt32 :=
  let octet (j : Nat) : UInt32 := (octets.getD (4 * i + j) 0).toUInt32
  octet 0 ||| (octet 1 <<< 8) ||| (octet 2 <<< 16) ||| (octet 3 <<< 24)

/-- The words of a block. -/
def blockOf (octets : List UInt8) : Block :=
  Vector.ofFn fun i => wordAt octets i.val

/-- The last node of a chunk, after the blocks before it. -/
def chunkNode (counter : UInt64) (chain : Chain) (flags : UInt32) : List (List UInt8) → Node
  | [] => ⟨chain, blockOf [], counter, 0, flags ||| chunkEnd⟩
  | [b] => ⟨chain, blockOf b, counter, b.length.toUInt32, flags ||| chunkEnd⟩
  | b :: bs =>
    chunkNode counter (Node.compress ⟨chain, blockOf b, counter, b.length.toUInt32, flags⟩) 0 bs

/-- The node of a chunk of the input. -/
def leaf (octets : List UInt8) (index : Nat) : Node :=
  chunkNode index.toUInt64 initial chunkStart (pieces 63 octets)

/-! ## The tree -/

/-- The node over two subtrees. -/
def join (left right : Node) : Node where
  chain := initial
  block := left.compress ++ right.compress
  counter := 0
  length := 64
  flags := parent

/-- The largest power of two below a number that is at least two. -/
def leftSize (n : Nat) : Nat :=
  Nat.pow 2 (n - 1).log2

theorem leftSize_pos (n : Nat) : 0 < leftSize n :=
  Nat.two_pow_pos _

theorem leftSize_lt {n : Nat} (h : 2 ≤ n) : leftSize n < n := by
  have : leftSize n ≤ n - 1 := Nat.log2_self_le (by omega)
  omega

/-- The root of the tree over a first leaf and the leaves after it. -/
def tree (leaves : List Node) : Option Node :=
  match leaves with
  | [] => none
  | [n] => some n
  | a :: b :: r =>
    let k := leftSize (a :: b :: r).length
    match tree ((a :: b :: r).take k), tree ((a :: b :: r).drop k) with
    | some left, some right => some (join left right)
    | _, _ => none
termination_by leaves.length
decreasing_by
  · rw [List.length_take]
    exact Nat.lt_of_le_of_lt (Nat.min_le_left _ _) (leftSize_lt (by simp))
  · rw [List.length_drop]
    exact Nat.sub_lt (by simp) (leftSize_pos _)

/-! ## The digest -/

/-- A word as four octets, the least first. -/
def wordOctets (w : UInt32) : List UInt8 :=
  [w.toUInt8, (w >>> 8).toUInt8, (w >>> 16).toUInt8, (w >>> 24).toUInt8]

/-- The digest of a list of octets. -/
def digest (octets : List UInt8) : List UInt8 :=
  match tree ((pieces 1023 octets).mapIdx fun i chunk => leaf chunk i) with
  | some n => n.finish.toList.flatMap wordOctets
  | none => []

/-- The digest in lower-case hexadecimal. -/
def hexDigest (octets : List UInt8) : String :=
  String.ofList ((digest octets).flatMap Text.octetHex)

end Parley.Digest.Blake3
