import SortMerge.Bytes

set_option autoImplicit false

/-! # Digests

A digest is 32 bytes: the BLAKE3 hash of some bytes. It is written as 64 lower-case hexadecimal
digits and read back from digits of either case. `Digest.ofBytes` is the only way the library makes
one from content. -/

/-! ## The hash function

The input is cut into chunks of 1024 bytes and each chunk into blocks of 64. The blocks of a chunk
are chained through the compression function; the chunks are the leaves of a binary tree whose left
subtrees are full, and each inner node compresses the two chaining values below it. Joining
neighbours level by level, an odd last node going up unchanged, builds exactly that tree. The node
at the top is compressed once more with the root flag and gives the digest. -/

namespace SortMerge.Digest.Blake3

/-! ### The compression function -/

/-- Eight words: a chaining value. -/
abbrev Chain := Vector UInt32 8

/-- Sixteen words: a message block or a compression state. -/
abbrev Block := Vector UInt32 16

/-- The chaining value that every chunk and every inner node starts from. -/
def start : Chain :=
  #v[0x6A09E667, 0xBB67AE85, 0x3C6EF372, 0xA54FF53A, 0x510E527F, 0x9B05688C, 0x1F83D9AB, 0x5BE0CD19]

/-- The order in which one round's message words are taken in the next round. -/
def schedule : Vector (Fin 16) 16 :=
  #v[2, 6, 3, 10, 7, 0, 4, 13, 1, 11, 12, 5, 9, 14, 15, 8]

/-- Marks the first block of a chunk. -/
def chunkStart : UInt32 := 1
/-- Marks the last block of a chunk. -/
def chunkEnd : UInt32 := 2
/-- Marks an inner node of the tree. -/
def parentNode : UInt32 := 4
/-- Marks the compression that yields the digest. -/
def rootNode : UInt32 := 8

/-- The word turned right by `n` bits. -/
def rotateRight (w n : UInt32) : UInt32 := (w >>> n) ||| (w <<< (32 - n))

/-- Mixes two message words into four words of the state. -/
def mix (s : Block) (a b c d : Fin 16) (x y : UInt32) : Block :=
  let va := s.get a + s.get b + x
  let vd := rotateRight (s.get d ^^^ va) 16
  let vc := s.get c + vd
  let vb := rotateRight (s.get b ^^^ vc) 12
  let va := va + vb + y
  let vd := rotateRight (vd ^^^ va) 8
  let vc := vc + vd
  let vb := rotateRight (vb ^^^ vc) 7
  (((s.set a va).set b vb).set c vc).set d vd

/-- One round: the four columns, then the four diagonals. -/
def round (s m : Block) : Block :=
  let s := mix s 0 4 8 12 m[0] m[1]
  let s := mix s 1 5 9 13 m[2] m[3]
  let s := mix s 2 6 10 14 m[4] m[5]
  let s := mix s 3 7 11 15 m[6] m[7]
  let s := mix s 0 5 10 15 m[8] m[9]
  let s := mix s 1 6 11 12 m[10] m[11]
  let s := mix s 2 7 8 13 m[12] m[13]
  mix s 3 4 9 14 m[14] m[15]

/-- The message words in the order of the next round. -/
def permute (m : Block) : Block := schedule.map m.get

/-- The given number of rounds, the message permuted between them. -/
def rounds : Nat → Block → Block → Block
  | 0, s, _ => s
  | n + 1, s, m => rounds n (round s m) (permute m)

/-- The compression function, cut to the eight words that this hash needs. -/
def compress (chain : Chain) (block : Block) (counter : Nat) (length flags : UInt32) : Chain :=
  let s : Block := chain ++ #v[start[0], start[1], start[2], start[3],
    UInt32.ofNat counter, UInt32.ofNat (counter >>> 32), length, flags]
  let s := rounds 7 s block
  Vector.ofFn fun i : Fin 8 => s.get (i.castAdd 8) ^^^ s.get (i.natAdd 8)

/-! ### Chunks -/

/-- The last compression of a node, held back because the flags differ at the root. -/
structure Node where
  chain : Chain
  block : Block
  counter : Nat
  length : UInt32
  flags : UInt32

/-- The chaining value of a node inside the tree. -/
def Node.value (n : Node) : Chain := compress n.chain n.block n.counter n.length n.flags

/-- The digest words of a node at the top. -/
def Node.root (n : Node) : Chain := compress n.chain n.block 0 n.length (n.flags ||| rootNode)

/-- The words of a block; missing bytes count as zero. -/
def blockOfBytes (bs : List UInt8) : Block :=
  Vector.ofFn fun i : Fin 16 => UInt32.ofNat (LittleEndian.decode ((bs.drop (4 * i.val)).take 4))

/-- The bytes cut into pieces of `size` from the front, at most `count` of them. -/
def pieces (size : Nat) : Nat → List UInt8 → List (List UInt8)
  | 0, _ => []
  | count + 1, bs => bs.take size :: pieces size count (bs.drop size)

/-- Chains the blocks of a chunk and stops before the last one. -/
def chunkNode (counter : Nat) (chain : Chain) (flags : UInt32) : List (List UInt8) → Node
  | [] => ⟨chain, blockOfBytes [], counter, 0, flags ||| chunkEnd⟩
  | [last] => ⟨chain, blockOfBytes last, counter, UInt32.ofNat last.length, flags ||| chunkEnd⟩
  | b :: rest =>
    chunkNode counter (compress chain (blockOfBytes b) counter 64 flags) 0 rest

/-- The node of the chunk with the given number. -/
def leaf (counter : Nat) (bytes : List UInt8) : Node :=
  chunkNode counter start chunkStart (pieces 64 ((bytes.length + 63) / 64) bytes)

/-! ### The tree -/

def parent (l r : Node) : Node :=
  ⟨start, Vector.cast (by decide) (l.value ++ r.value), 0, 64, parentNode⟩

/-- Joins neighbours; an odd last node stays. -/
def joinPairs : List Node → List Node
  | l :: r :: rest => parent l r :: joinPairs rest
  | rest => rest

theorem length_joinPairs_le (ns : List Node) : (joinPairs ns).length ≤ ns.length := by
  fun_induction joinPairs ns with
  | case1 l r rest ih => simp only [List.length_cons]; omega
  | case2 => exact Nat.le_refl _

/-- Joins level by level until one node is left. -/
def top (first : Node) : List Node → Node
  | [] => first
  | second :: rest => top (parent first second) (joinPairs rest)
termination_by rest => rest.length
decreasing_by
  have := length_joinPairs_le rest
  simp only [List.length_cons]
  omega

/-- The chunks of an input; an empty input is one empty chunk. -/
def chunks (bytes : List UInt8) : List (List UInt8) :=
  pieces 1024 (max 1 ((bytes.length + 1023) / 1024)) bytes

def leaves : Nat → List (List UInt8) → List Node
  | _, [] => []
  | counter, c :: cs => leaf counter c :: leaves (counter + 1) cs

/-- The 32 digest bytes of an input. -/
def hash (bytes : List UInt8) : List UInt8 :=
  let root :=
    match leaves 0 (chunks bytes) with
    | [] => leaf 0 []
    | first :: rest => top first rest
  root.root.toList.flatMap fun w => LittleEndian.encode 4 w.toNat

theorem length_flatMap_encode (width : Nat) (ws : List UInt32) :
    (ws.flatMap fun w => LittleEndian.encode width w.toNat).length = ws.length * width := by
  induction ws with
  | nil => simp
  | cons w ws ih => simp [List.flatMap_cons, ih, Nat.succ_mul, Nat.add_comm]

@[simp] theorem length_hash (bytes : List UInt8) : (hash bytes).length = 32 := by
  rw [hash, length_flatMap_encode, Vector.length_toList]

end SortMerge.Digest.Blake3

/-! ## Digests of bytes and texts -/

namespace SortMerge

/-- A 32-byte fingerprint. -/
structure Digest where
  bytes : List UInt8
  length_eq : bytes.length = 32

namespace Digest

instance : DecidableEq Digest := fun a b =>
  match decEq a.bytes b.bytes with
  | isTrue h => isTrue (by cases a; cases b; cases h; rfl)
  | isFalse h => isFalse fun e => h (by rw [e])

def ofBytes (bytes : List UInt8) : Digest := ⟨Blake3.hash bytes, Blake3.length_hash bytes⟩

/-- The fingerprint of a text, taken over its UTF-8 bytes. -/
def ofText (s : String) : Digest := ofBytes s.toUTF8.toList

def toHex (d : Digest) : String := String.ofList (Text.Hex.encode d.bytes)

def ofHex? (s : String) : Option Digest :=
  match Text.Hex.decode s.toList with
  | none => none
  | some bytes => if h : bytes.length = 32 then some ⟨bytes, h⟩ else none

end Digest

end SortMerge
