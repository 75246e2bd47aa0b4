import ShaderPipeline.Bytes

/-!
Database files: their header, their pages, and the trees of entries that the pages make up.

A file is a sequence of pages of one size.  A page of a tree holds entries, or points to the pages below it, or
both.  An entry that is too long for its page goes on in a chain of further pages.  Bytes beyond the end of the
file count as zero.  A file whose header is not one of a database has no image.
-/

set_option autoImplicit false
set_option relaxedAutoImplicit false

namespace ShaderPipeline.Database

inductive TextEncoding where
  | utf8
  | utf16Little
  | utf16Big
  deriving DecidableEq, Repr

structure Image where
  bytes : ByteArray
  pageSize : Nat
  /-- How many bytes of each page are in use. -/
  usable : Nat
  pageCount : Nat
  encoding : TextEncoding
  /-- Whether changes go to a journal that is written ahead of the file. -/
  journaled : Bool
  /-- Whether the version of the format is one that may be written. -/
  writable : Bool

def byteAt (bytes : ByteArray) (position : Nat) : UInt8 :=
  if h : position < bytes.size then bytes[position] else 0

def slice (bytes : ByteArray) (start count : Nat) : List UInt8 :=
  (List.range count).map fun i => byteAt bytes (start + i)

def numberAt (bytes : ByteArray) (start count : Nat) : Nat :=
  bytesNat (slice bytes start count)

def signature : List UInt8 :=
  "SQLite format 3".toUTF8.toList ++ [0]

def pageSizes : List Nat :=
  [512, 1024, 2048, 4096, 8192, 16384, 32768, 65536]

def TextEncoding.ofNumber (n : Nat) : TextEncoding :=
  match n % 4 with
  | 2 => utf16Little
  | 3 => utf16Big
  | _ => utf8

namespace Image

/-- The image of a file.  The header counts the pages only if it was the last thing written. -/
def ofBytes? (bytes : ByteArray) : Option Image :=
  let number := numberAt bytes
  let pageSize := 256 * number 16 1 + 65536 * number 17 1
  let usable := pageSize - number 20 1
  let inFile := (bytes.size + pageSize - 1) / pageSize
  let inHeader := number 28 4
  let pageCount :=
    if inHeader == 0 || slice bytes 24 4 != slice bytes 92 4 then inFile else inHeader
  if slice bytes 0 16 == signature && slice bytes 21 3 == [64, 32, 32] && number 19 1 ≤ 2
      && pageSizes.contains pageSize && 480 ≤ usable && pageCount ≤ inFile && number 47 1 ≤ 4 then
    some ⟨bytes, pageSize, usable, pageCount, .ofNumber (number 56 4), number 19 1 == 2,
      number 18 1 ≤ 2⟩
  else none

def pageStart (i : Image) (page : Nat) : Nat :=
  (page - 1) * i.pageSize

def hasPage (i : Image) (page : Nat) : Bool :=
  1 ≤ page && page ≤ i.pageCount

end Image

/-- A number in groups of seven bits, most significant first, and what follows it.  Each byte but the last has
its high bit set; a byte after eight others is the last one and counts whole. -/
def grouped? : Nat → Nat → List UInt8 → Option (Nat × List UInt8)
  | _, _, [] => none
  | 0, n, b :: rest => some (256 * n + b.toNat, rest)
  | more + 1, n, b :: rest =>
      if b < 128 then some (128 * n + b.toNat, rest)
      else grouped? more (128 * n + (b.toNat - 128)) rest

def leadingNumber? (bytes : List UInt8) : Option (Nat × List UInt8) :=
  grouped? 8 0 bytes

structure Entry where
  /-- The number of the row, in trees that number their rows. -/
  row : Nat
  content : List UInt8

namespace Image

/-- The bytes of a chain of pages that starts at a page; a chain has at most `steps` pages. -/
def chained? (i : Image) : Nat → Nat → Nat → Option (List UInt8)
  | _, _, 0 => some []
  | 0, _, _ + 1 => none
  | steps + 1, page, count =>
      if i.hasPage page then do
        let start := i.pageStart page
        let taken := min count (i.usable - 4)
        let rest ← chained? i steps (numberAt i.bytes start 4) (count - taken)
        pure (slice i.bytes (start + 4) taken ++ rest)
      else none

def localLength (i : Image) (numbered : Bool) (length : Nat) : Nat :=
  let most := if numbered then i.usable - 35 else (i.usable - 12) * 64 / 255 - 23
  let least := (i.usable - 12) * 32 / 255 - 23
  let fitting := least + (length - least) % (i.usable - 4)
  if length ≤ most then length else if fitting ≤ most then fitting else least

/-- The content of an entry of a given length that starts with the given bytes. -/
def content? (i : Image) (numbered : Bool) (length : Nat) (bytes : List UInt8) :
    Option (List UInt8) :=
  let here := i.localLength numbered length
  if bytes.length < here then none
  else do
    let rest ← i.chained? i.pageCount (bytesNat ((bytes.drop here).take 4)) (length - here)
    pure (bytes.take here ++ rest)

/-- The entry that starts with the given bytes, in a tree that numbers its rows or not. -/
def entry? (i : Image) (numbered : Bool) (bytes : List UInt8) : Option Entry := do
  let (length, bytes) ← leadingNumber? bytes
  let (row, bytes) ← if numbered then leadingNumber? bytes else some (0, bytes)
  pure ⟨row, ← i.content? numbered length bytes⟩

def treeKinds : List Nat :=
  [2, 5, 10, 13]

def visit? (i : Image) (page : Nat) : Option (List Entry × List Nat) := do
  let start := i.pageStart page
  let header := start + if page = 1 then 100 else 0
  let kind := numberAt i.bytes header 1
  let numbered := kind == 13 || kind == 5
  let inner := kind == 5 || kind == 2
  let count := numberAt i.bytes (header + 3) 2
  if !i.hasPage page || !treeKinds.contains kind || i.pageSize < 6 * count + 8 then none
  let cells := (List.range count).map fun k =>
    let offset := numberAt i.bytes (header + (if inner then 12 else 8) + 2 * k) 2 % i.pageSize
    slice i.bytes (start + offset) (i.pageSize - offset)
  let below := if inner then
    cells.map (fun cell => bytesNat (cell.take 4)) ++ [numberAt i.bytes (header + 8) 4] else []
  let bodies := if kind == 5 then [] else if inner then cells.map (·.drop 4) else cells
  pure (← bodies.mapM (i.entry? numbered), below)

/-- The entries of the trees at some pages, of which at most `steps` are visited. -/
def entriesWithin? (i : Image) : Nat → List Nat → Option (List Entry)
  | _, [] => some []
  | 0, _ :: _ => none
  | steps + 1, page :: pages => do
      let (entries, below) ← i.visit? page
      let others ← entriesWithin? i steps (below ++ pages)
      pure (entries ++ others)

/-- The entries of the tree at a page; no page belongs to a tree twice. -/
def entries? (i : Image) (root : Nat) : Option (List Entry) :=
  i.entriesWithin? i.pageCount [root]

end Image

inductive Value where
  | null
  | integer (n : Int)
  | real
  | text (bytes : List UInt8)
  | blob (bytes : List UInt8)
  deriving DecidableEq, Repr

namespace Value

def length (type : Nat) : Nat :=
  if 12 ≤ type then (type - 12) / 2 else [0, 1, 2, 3, 4, 6, 8, 8, 0, 0, 0, 0].getD type 0

def ofBytes (type : Nat) (bytes : List UInt8) : Value :=
  if 12 ≤ type then if type % 2 = 0 then blob bytes else text bytes
  else
    match type with
    | 0 | 10 | 11 => null
    | 7 => real
    | 8 => integer 0
    | 9 => integer 1
    | _ => integer (bytesInt bytes)

def sequence : List Nat → List UInt8 → List Value
  | [], _ => []
  | type :: types, bytes =>
      ofBytes type (bytes.take (length type)) :: sequence types (bytes.drop (length type))

end Value

/-- The numbers that make up some bytes, of which there are at most `steps`. -/
def numbersWithin? : Nat → List UInt8 → Option (List Nat)
  | _, [] => some []
  | 0, _ :: _ => none
  | steps + 1, bytes => do
      let (n, rest) ← leadingNumber? bytes
      let others ← numbersWithin? steps rest
      pure (n :: others)

/-- The values of a record: a header with its own length and the types of the values, then the values.  A record
without content has none. -/
def record? (content : List UInt8) : Option (List Value) :=
  if content.isEmpty then some []
  else do
    let (length, afterLength) ← leadingNumber? content
    let header := afterLength.take (length - (content.length - afterLength.length))
    let types ← numbersWithin? header.length header
    pure (Value.sequence types (content.drop length))

end ShaderPipeline.Database
