import ShaderPipeline.Digest.Blake3

/-!
Tables of compiled binaries.

A row is found by the short name of a stage and the source that was compiled; of a row that was read from a
file only the digest of both is known.  A binary is kept as the bytes of its words, least significant first; a
row whose bytes are no whole number of words counts as missing.  What a table does with a row that is put into
it depends on what must be unique in it.
-/

set_option autoImplicit false
set_option relaxedAutoImplicit false

namespace ShaderPipeline

structure BinaryKey where
  stage : String
  source : String
  deriving DecidableEq, Repr

/-- The digest of a key: that of its stage and its source with a zero between them. -/
def BinaryKey.digest (k : BinaryKey) : List UInt8 :=
  Digest.digestBytes (k.stage.toUTF8.toList ++ 0 :: k.source.toUTF8.toList)

/-- The key of a row, or its digest where the key itself is not known. -/
inductive RowKey where
  | known (key : BinaryKey)
  | digest (bytes : List UInt8)
  deriving DecidableEq, Repr

def RowKey.isFor (k : RowKey) (key : BinaryKey) : Bool :=
  match k with
  | known own => own == key
  | digest bytes => bytes == key.digest

structure BinaryRow where
  key : RowKey
  /-- The bytes of the binary; none where something else stands. -/
  bytes : Option (List UInt8)
  deriving DecidableEq, Repr

/-- What no two rows of a table may have in common. -/
structure Uniqueness where
  key : Bool
  bytes : Bool
  deriving DecidableEq, Repr

structure TableRules where
  readable : Bool
  writable : Bool
  unique : List Uniqueness
  deriving DecidableEq, Repr

/-- The rules of a table that was made for binaries: one row for each key. -/
def TableRules.standard : TableRules :=
  ⟨true, true, [⟨true, false⟩]⟩

inductive TableFault where
  | notReadable
  | notWritable
  | notBytes
  deriving DecidableEq, Repr

/-- Rows in the order in which they were put in. -/
structure BinaryTable where
  rules : TableRules
  rows : List BinaryRow
  deriving DecidableEq, Repr

namespace BinaryTable

def empty : BinaryTable :=
  ⟨.standard, []⟩

def unsuited : BinaryTable :=
  ⟨⟨false, false, []⟩, []⟩

/-- The binary in a row, if there is a whole one. -/
def rowBinary? (row : BinaryRow) : Except TableFault (Option (List UInt32)) :=
  match row.bytes with
  | some bytes => .ok (bytesWords? bytes)
  | none => .error .notBytes

/-- The binary in the first row for a key, if there is a whole one. -/
def get? (t : BinaryTable) (key : BinaryKey) : Except TableFault (Option (List UInt32)) :=
  if t.rules.readable then
    match t.rows.find? (·.key.isFor key) with
    | some row => rowBinary? row
    | none => .ok none
  else .error .notReadable

/-- Whether a row has what must be unique in common with bytes for a key. -/
def collides (rules : TableRules) (key : BinaryKey) (bytes : List UInt8) (row : BinaryRow) : Bool :=
  rules.unique.any fun u => (!u.key || row.key.isFor key) && (!u.bytes || row.bytes == some bytes)

def set (t : BinaryTable) (key : BinaryKey) (words : List UInt32) :
    Except TableFault BinaryTable :=
  let bytes := words.flatMap wordBytes
  if t.rules.writable then
    .ok { t with
      rows := t.rows.filter (fun row => !collides t.rules key bytes row)
        ++ [⟨.known key, some bytes⟩] }
  else .error .notWritable

/-- Cuts every row to at most `length` bytes. -/
def truncate (t : BinaryTable) (length : Nat) : BinaryTable :=
  { t with rows := t.rows.map fun row => { row with bytes := row.bytes.map (·.take length) } }

end BinaryTable

end ShaderPipeline
