import ShaderPipeline.Bytes

/-!
The unkeyed BLAKE3 hash.

The input is cut into chunks of 1024 bytes, each chunk into blocks of 64 bytes.  Blocks of a chunk are
chained by the compression function; chunks are the leaves of a binary tree whose left subtrees are
complete.  The digest is the compression of the root, made with the root flag.
-/

set_option autoImplicit false
set_option relaxedAutoImplicit false

namespace ShaderPipeline.Digest

abbrev Words := Array UInt32

def initialWords : Words :=
  #[0x6A09E667, 0xBB67AE85, 0x3C6EF372, 0xA54FF53A, 0x510E527F, 0x9B05688C, 0x1F83D9AB, 0x5BE0CD19]

/-- The order in which a round's message words are taken for the next round. -/
def permutation : Array Nat :=
  #[2, 6, 3, 10, 7, 0, 4, 13, 1, 11, 12, 5, 9, 14, 15, 8]

def chunkStart : UInt32 := 1

def chunkEnd : UInt32 := 2

def parentNode : UInt32 := 4

def rootNode : UInt32 := 8

private def rotateRight (x : UInt32) (n : UInt32) : UInt32 :=
  (x >>> n) ||| (x <<< (32 - n))

private def word (ws : Words) (i : Nat) : UInt32 :=
  ws.getD i 0

/-- Mixes two message words into one column or diagonal of the state. -/
def mixQuarter (state : Words) (a b c d : Nat) (x y : UInt32) : Words :=
  let va := word state a + word state b + x
  let vd := rotateRight (word state d ^^^ va) 16
  let vc := word state c + vd
  let vb := rotateRight (word state b ^^^ vc) 12
  let va := va + vb + y
  let vd := rotateRight (vd ^^^ va) 8
  let vc := vc + vd
  let vb := rotateRight (vb ^^^ vc) 7
  (((state.setIfInBounds a va).setIfInBounds b vb).setIfInBounds c vc).setIfInBounds d vd

/-- The positions of the four columns and the four diagonals of the state. -/
def quarters : List (Nat × Nat × Nat × Nat) :=
  [(0, 4, 8, 12), (1, 5, 9, 13), (2, 6, 10, 14), (3, 7, 11, 15),
    (0, 5, 10, 15), (1, 6, 11, 12), (2, 7, 8, 13), (3, 4, 9, 14)]

/-- One round: columns first, then diagonals, two message words each. -/
def mixRound (state message : Words) : Words :=
  (quarters.zip (List.range 8)).foldl
    (fun s q => mixQuarter s q.1.1 q.1.2.1 q.1.2.2.1 q.1.2.2.2
      (word message (2 * q.2)) (word message (2 * q.2 + 1)))
    state

/-- The given number of rounds, with the message permuted between them. -/
def mixRounds : Nat → Words → Words → Words
  | 0, state, _ => state
  | n + 1, state, message =>
      mixRounds n (mixRound state message) (permutation.map (word message ·))

/-- A compression that is still to be made, so that the root flag can be added. -/
structure Pending where
  chaining : Words
  block : Words
  counter : UInt64
  length : UInt32
  flags : UInt32

/-- The chaining value that a pending compression gives under further flags. -/
def Pending.compress (p : Pending) (flags : UInt32) : Words :=
  let state := p.chaining ++ (initialWords.extract 0 4) ++
    #[p.counter.toUInt32, (p.counter >>> 32).toUInt32, p.length, p.flags ||| flags]
  let mixed := mixRounds 7 state p.block
  (Array.range 8).map fun i => word mixed i ^^^ word mixed (i + 8)

/-- Cuts a list into parts of a given positive length, the last one possibly shorter. -/
def parts {α : Type} (size : Nat) (positive : 0 < size) (xs : List α) : List (List α) :=
  if _ : xs.length ≤ size then [xs]
  else xs.take size :: parts size positive (xs.drop size)
termination_by xs.length
decreasing_by
  simp only [List.length_drop]
  omega

/-- The word of four bytes, least significant first; missing bytes are zero. -/
def littleWord (bytes : List UInt8) : UInt32 :=
  (bytes.take 4).foldr (fun b w => b.toUInt32 ||| (w <<< 8)) 0

/-- The sixteen words of a block of at most 64 bytes. -/
def blockWords (bytes : List UInt8) : Words :=
  (Array.range 16).map fun i => littleWord (bytes.drop (4 * i))

/-- The last compression of a chunk, after chaining the blocks before it. -/
def chainBlocks (counter : UInt64) : Words → UInt32 → List (List UInt8) → Pending
  | chaining, flags, [] => ⟨chaining, blockWords [], counter, 0, flags ||| chunkEnd⟩
  | chaining, flags, [b] =>
      ⟨chaining, blockWords b, counter, UInt32.ofNat b.length, flags ||| chunkEnd⟩
  | chaining, flags, b :: c :: bs =>
      let step : Pending := ⟨chaining, blockWords b, counter, UInt32.ofNat b.length, flags⟩
      chainBlocks counter (step.compress 0) 0 (c :: bs)

/-- A chunk of at most 1024 bytes as a leaf of the tree. -/
def leaf (counter : Nat) (bytes : List UInt8) : Pending :=
  chainBlocks (UInt64.ofNat counter) initialWords chunkStart (parts 64 (by decide) bytes)

/-- The largest power of two below `n`, doubling at most `fuel` times from `p`. -/
def powerBelow (n : Nat) : Nat → Nat → Nat
  | 0, p => p
  | fuel + 1, p => if 2 * p < n then powerBelow n fuel (2 * p) else p

def leftSize (n : Nat) : Nat :=
  min (max 1 (powerBelow n n 1)) (n - 1)

def tree (leaves : List Pending) : Pending :=
  if _ : 2 ≤ leaves.length then
    let left := tree (leaves.take (leftSize leaves.length))
    let right := tree (leaves.drop (leftSize leaves.length))
    ⟨initialWords, left.compress 0 ++ right.compress 0, 0, 64, parentNode⟩
  else leaves.headD (leaf 0 [])
termination_by leaves.length
decreasing_by
  · simp only [List.length_take, leftSize]
    omega
  · simp only [List.length_drop, leftSize]
    omega

def digest (bytes : List UInt8) : Words :=
  let chunks := parts 1024 (by decide) bytes
  (tree (chunks.mapIdx leaf)).compress rootNode

def digestBytes (bytes : List UInt8) : List UInt8 :=
  (digest bytes).toList.flatMap wordBytes

/-- The first eight bytes of the digest of a text, least significant first. -/
def textHash (s : String) : UInt64 :=
  let ws := digest s.toUTF8.toList
  (word ws 0).toUInt64 ||| ((word ws 1).toUInt64 <<< 32)

end ShaderPipeline.Digest
