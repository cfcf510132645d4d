/-!
# The BLAKE3 digest

The input is cut into chunks of 1024 bytes and each chunk into blocks of 64.  The blocks of a
chunk are compressed one after the other, the chunks are the leaves of a binary tree, and the
digest is what the root of that tree compresses to.  Adjacent nodes are paired level by level and
an odd one is carried up, so every left subtree is complete.
-/

namespace MeteredLedger.Digest.Blake3

/-- The eight words that link one compression to the next. -/
abbrev Chain := Vector UInt32 8

/-- Sixteen words: a block of input, or the state of a compression. -/
abbrev Words := Vector UInt32 16

def initialChain : Chain :=
  #v[0x6a09e667, 0xbb67ae85, 0x3c6ef372, 0xa54ff53a, 0x510e527f, 0x9b05688c, 0x1f83d9ab, 0x5be0cd19]

/-- Where each word of the next round's block comes from. -/
def permutation : Vector (Fin 16) 16 :=
  #v[2, 6, 3, 10, 7, 0, 4, 13, 1, 11, 12, 5, 9, 14, 15, 8]

def chunkStart : UInt32 := 1
def chunkEnd : UInt32 := 2
def parentNode : UInt32 := 4
def rootNode : UInt32 := 8

def rotateRight (w n : UInt32) : UInt32 :=
  (w >>> n) ||| (w <<< (32 - n))

/-- Mixes two words of the block into four words of the state. -/
def mix (s : Words) (a b c d : Fin 16) (x y : UInt32) : Words :=
  let a₁ := s[a] + s[b] + x
  let d₁ := rotateRight (s[d] ^^^ a₁) 16
  let c₁ := s[c] + d₁
  let b₁ := rotateRight (s[b] ^^^ c₁) 12
  let a₂ := a₁ + b₁ + y
  let d₂ := rotateRight (d₁ ^^^ a₂) 8
  let c₂ := c₁ + d₂
  let b₂ := rotateRight (b₁ ^^^ c₂) 7
  (((s.set a a₂).set b b₂).set c c₂).set d d₂

/-- One round: the four columns, then the four diagonals. -/
def round (s m : Words) : Words :=
  let s := mix s 0 4 8 12 m[0] m[1]
  let s := mix s 1 5 9 13 m[2] m[3]
  let s := mix s 2 6 10 14 m[4] m[5]
  let s := mix s 3 7 11 15 m[6] m[7]
  let s := mix s 0 5 10 15 m[8] m[9]
  let s := mix s 1 6 11 12 m[10] m[11]
  let s := mix s 2 7 8 13 m[12] m[13]
  mix s 3 4 9 14 m[14] m[15]

def permute (m : Words) : Words :=
  Vector.ofFn fun i ↦ m[permutation[i]]

def rounds : Nat → Words → Words → Words
  | 0, s, _ => s
  | n + 1, s, m => rounds n (round s m) (permute m)

/-- A compression that has not been run yet, so that the root can still be marked as such. -/
structure Node where
  chain : Chain
  block : Words
  counter : Nat
  blockLength : Nat
  flags : UInt32

namespace Node

/-- Seven rounds, after which the two halves of the state are folded into the next chain. -/
def compress (n : Node) (extraFlags : UInt32) : Chain :=
  let h := n.chain
  let start : Words :=
    #v[h[0], h[1], h[2], h[3], h[4], h[5], h[6], h[7],
      initialChain[0], initialChain[1], initialChain[2], initialChain[3],
      n.counter.toUInt32, (n.counter >>> 32).toUInt32, n.blockLength.toUInt32,
      n.flags ||| extraFlags]
  let s := rounds 7 start n.block
  #v[s[0] ^^^ s[8], s[1] ^^^ s[9], s[2] ^^^ s[10], s[3] ^^^ s[11],
    s[4] ^^^ s[12], s[5] ^^^ s[13], s[6] ^^^ s[14], s[7] ^^^ s[15]]

def next (n : Node) : Chain := n.compress 0

/-- The node above two subtrees. -/
def parent (l r : Node) : Node :=
  let a := l.next
  let b := r.next
  { chain := initialChain
    block := #v[a[0], a[1], a[2], a[3], a[4], a[5], a[6], a[7],
      b[0], b[1], b[2], b[3], b[4], b[5], b[6], b[7]]
    counter := 0
    blockLength := 64
    flags := parentNode }

end Node

/-- The pieces of a list, all of the given size but for the last; the empty list is one piece. -/
def pieces (size : Nat) (bytes : List UInt8) : List (List UInt8) :=
  if size = 0 ∨ bytes.length ≤ size then [bytes]
  else bytes.take size :: pieces size (bytes.drop size)
termination_by bytes.length
decreasing_by
  simp only [List.length_drop]
  omega

/-- Four bytes as a word, the least significant first; bytes that are missing count as zero. -/
def word (bytes : List UInt8) : UInt32 :=
  (bytes.take 4).foldr (fun b w ↦ b.toUInt32 ||| (w <<< 8)) 0

/-- A block of at most 64 bytes as sixteen words, filled up with zeros. -/
def blockWords (bytes : List UInt8) : Words :=
  Vector.ofFn fun i ↦ word (bytes.drop (4 * i))

/-- The last compression of a chunk, after all blocks before it have been compressed. -/
def chunkNode (counter : Nat) : Chain → UInt32 → List UInt8 → List (List UInt8) → Node
  | chain, flags, block, [] =>
    ⟨chain, blockWords block, counter, block.length, flags ||| chunkEnd⟩
  | chain, flags, block, block' :: rest =>
    let n : Node := ⟨chain, blockWords block, counter, block.length, flags⟩
    chunkNode counter n.next 0 block' rest

/-- The leaf of a chunk of at most 1024 bytes. -/
def leaf (counter : Nat) (bytes : List UInt8) : Node :=
  chunkNode counter initialChain chunkStart (bytes.take 64)
    (if bytes.length ≤ 64 then [] else pieces 64 (bytes.drop 64))

/-- One level of the tree up. -/
def pairUp : List Node → List Node
  | l :: r :: ns => .parent l r :: pairUp ns
  | ns => ns

theorem length_pairUp (ns : List Node) : (pairUp ns).length = (ns.length + 1) / 2 := by
  fun_induction pairUp ns with
  | case1 l r ns ih => simp only [List.length_cons, ih]; omega
  | case2 ns h =>
    match ns with
    | [] => rfl
    | [_] => simp
    | l :: r :: ns => exact absurd rfl (h l r ns)

/-- The root above a first node and those that follow it. -/
def root : Node → List Node → Node
  | n, [] => n
  | n, m :: ns => root (.parent n m) (pairUp ns)
termination_by _ ns => ns.length
decreasing_by
  simp only [length_pairUp, List.length_cons]
  omega

/-- The least significant byte first. -/
def wordBytes (w : UInt32) : List UInt8 :=
  [w.toUInt8, (w >>> 8).toUInt8, (w >>> 16).toUInt8, (w >>> 24).toUInt8]

/-- The digest of 32 bytes. -/
def digest (bytes : List UInt8) : List UInt8 :=
  let leaves := (pieces 1024 bytes).zipIdx.map fun (chunk, i) ↦ leaf i chunk
  let top :=
    match leaves with
    | [] => leaf 0 []
    | n :: ns => root n ns
  (top.compress rootNode).toList.flatMap wordBytes

end MeteredLedger.Digest.Blake3
