import ShaderPipeline.BinaryTable
import ShaderPipeline.Database.Image

/-!
What a database file says of its tables, and the table for binaries that it holds.

The first tree of a file has a record for every table, view and index, with the statement that made it.  Only so
much of a statement is read as decides what can be done with a table: its columns, which of them must be
given, and what must be unique.
-/

set_option autoImplicit false
set_option relaxedAutoImplicit false

namespace ShaderPipeline.Database

/-- The character of a code unit; half of a character counts as one that is unknown. -/
def unitChars : List UInt8 → List Char
  | high :: low :: rest => Char.ofNat (bytesNat [high, low]) :: unitChars rest
  | _ => []

def exchanged : List UInt8 → List UInt8
  | a :: b :: rest => b :: a :: exchanged rest
  | rest => rest

def TextEncoding.decode : TextEncoding → List UInt8 → String
  | utf8, bytes => (String.fromUTF8? ⟨bytes.toArray⟩).getD ""
  | utf16Big, bytes => String.ofList (unitChars bytes)
  | utf16Little, bytes => String.ofList (unitChars (exchanged bytes))

inductive Token where
  | word (text : String)
  | quoted (text : String)
  | mark (c : Char)
  deriving DecidableEq, Repr

namespace Token

def name : Token → String
  | word text | quoted text => text
  | mark c => c.toString

def isWord (t : Token) (text : String) : Bool :=
  match t with
  | word own => own.toUpper == text
  | _ => false

def isNameChar (c : Char) : Bool :=
  c.isAlphanum || c == '_' || c == '$' || 0x80 ≤ c.toNat

def closing? : Char → Option Char
  | '[' => some ']'
  | '"' => some '"'
  | '\x27' => some '\x27'
  | '\x60' => some '\x60'
  | _ => none

/-- The text up to a closing mark, which stands in it twice where it is meant, and what follows. -/
def scanQuoted (close : Char) : List Char → List Char × List Char
  | [] => ([], [])
  | c :: rest =>
      if c == close then
        match rest with
        | d :: more =>
            if d == close && close != ']' then
              let (text, after) := scanQuoted close more
              (close :: text, after)
            else ([], rest)
        | [] => ([], [])
      else
        let (text, after) := scanQuoted close rest
        (c :: text, after)

def afterComment : List Char → List Char
  | '*' :: '/' :: rest => rest
  | _ :: rest => afterComment rest
  | [] => []

/-- The tokens of a statement, of which there are at most `steps`. -/
def scan : Nat → List Char → List Token
  | 0, _ | _, [] => []
  | steps + 1, '-' :: '-' :: rest => scan steps (rest.dropWhile (· != '\n'))
  | steps + 1, '/' :: '*' :: rest => scan steps (afterComment rest)
  | steps + 1, c :: rest =>
      if c.isWhitespace then scan steps rest
      else if isNameChar c then
        let (more, after) := rest.span isNameChar
        word (String.ofList (c :: more)) :: scan steps after
      else
        match closing? c with
        | some close =>
            let (text, after) := scanQuoted close rest
            quoted (String.ofList text) :: scan steps after
        | none => mark c :: scan steps rest

end Token

abbrev Nested := Nat × Token

def nested : Nat → List Token → List Nested
  | _, [] => []
  | depth, .mark '(' :: rest => (depth, .mark '(') :: nested (depth + 1) rest
  | depth, .mark ')' :: rest => (depth - 1, .mark ')') :: nested (depth - 1) rest
  | depth, t :: rest => (depth, t) :: nested depth rest

def partsAt (depth : Nat) (tokens : List Nested) : List (List Nested) :=
  tokens.splitOnP (· == (depth, .mark ','))

def hasPair (first second : String) : List Token → Bool
  | a :: b :: rest => (a.isWord first && b.isWord second) || hasPair first second (b :: rest)
  | _ => false

structure Column where
  name : String
  type : List String
  notNull : Bool
  hasDefault : Bool
  primary : Bool
  unique : Bool
  generated : Bool
  deriving DecidableEq, Repr

/-- Whether names are the same but for the case of their letters. -/
def sameName (a b : String) : Bool :=
  a.toLower == b.toLower

def constraintWords : List String :=
  ["CONSTRAINT", "PRIMARY", "NOT", "NULL", "UNIQUE", "CHECK", "DEFAULT", "COLLATE", "REFERENCES",
    "GENERATED", "AS"]

def ruleWords : List String :=
  ["CONSTRAINT", "PRIMARY", "UNIQUE", "CHECK", "FOREIGN"]

def Column.ofTokens? : List Token → Option Column
  | [] => none
  | name :: rest =>
      let isRule (t : Token) : Bool := constraintWords.any t.isWord
      some
        { name := name.name
          type := (rest.takeWhile fun t => !isRule t).map fun t => t.name.toUpper
          notNull := hasPair "NOT" "NULL" rest
          hasDefault := rest.any (·.isWord "DEFAULT") && !hasPair "DEFAULT" "NULL" rest
          primary := hasPair "PRIMARY" "KEY" rest
          unique := rest.any (·.isWord "UNIQUE")
          generated := rest.any (·.isWord "AS") }

def namesAt (depth : Nat) (tokens : List Nested) : List String :=
  (partsAt depth (tokens.filter (depth ≤ ·.1))).filterMap fun part =>
    (part.head?).map (·.2.name)

/-- A table as the statement that made it defines it. -/
structure TableDefinition where
  columns : List Column
  primary : List String
  unique : List (List String)
  numbered : Bool
  strict : Bool
  deriving DecidableEq, Repr

namespace TableDefinition

def tokens (statement : String) : List Nested :=
  nested 0 (Token.scan (statement.length + 1) statement.toList)

def ofStatement (statement : String) : TableDefinition :=
  let all := tokens statement
  let inside := (all.dropWhile (·.1 == 0)).takeWhile (1 ≤ ·.1)
  let options := ((all.dropWhile (·.1 == 0)).dropWhile (1 ≤ ·.1)).map (·.2)
  let isRule (part : List Nested) : Bool :=
    (part.head?).any fun t => ruleWords.any t.2.isWord
  let parts := partsAt 1 inside
  let top (part : List Nested) : List Token := (part.filter (·.1 == 1)).map (·.2)
  let columns := (parts.filter (!isRule ·)).filterMap fun part => Column.ofTokens? (top part)
  let rules := parts.filter isRule
  let primary := (columns.filter (·.primary)).map (·.name)
    ++ (rules.filter fun r => hasPair "PRIMARY" "KEY" (top r)).flatMap (namesAt 2)
  { columns, primary
    unique := (columns.filter (·.unique)).map (fun c => [c.name])
      ++ (rules.filter fun r => (top r).any (·.isWord "UNIQUE")).map (namesAt 2)
    numbered := !hasPair "WITHOUT" "ROWID" options
    strict := options.any (·.isWord "STRICT") }

def column? (d : TableDefinition) (name : String) : Option Column :=
  d.columns.find? fun c => sameName c.name name

def isRowNumber (d : TableDefinition) (name : String) : Bool :=
  d.numbered && d.primary.length == 1 && d.primary.all (sameName name)
    && (d.column? name).any (·.type == ["INTEGER"])

/-- The names of the columns in the order in which records have them. -/
def recorded (d : TableDefinition) : List String :=
  if d.numbered then d.columns.map (·.name)
  else d.primary ++ (d.columns.map (·.name)).filter fun c => !d.primary.any (sameName c)

end TableDefinition

/-- What a file says of a table, a view or an index. -/
structure SchemaEntry where
  kind : String
  name : String
  table : String
  root : Nat
  statement : Option String

namespace SchemaEntry

/-- The entry that a record stands for; its tree must start at one of the pages.  What has no statement is an
index with a name. -/
def ofRecord? (encoding : TextEncoding) (pageCount : Nat) : List Value → Option SchemaEntry
  | [kind, name, table, .integer root, statement] =>
      let asText : Value → Option String
        | .text bytes => some (encoding.decode bytes)
        | _ => none
      match asText name, asText statement with
      | some name, text =>
          if root.toNat ≤ pageCount
              && text.all fun s => s.isEmpty || (s.take 2).toString.toUpper == "CR" then
            some ⟨(asText kind).getD "", name, (asText table).getD "", root.toNat,
              text.filter (!·.isEmpty)⟩
          else none
      | none, _ => none
  | _ => none

def unique? (e : SchemaEntry) : Option (List String) :=
  let tokens := TableDefinition.tokens (e.statement.getD "")
  let words := (tokens.filter (·.1 == 0)).map (·.2)
  if e.kind == "index" && words.any (·.isWord "UNIQUE") && !words.any (·.isWord "WHERE") then
    some (namesAt 1 (tokens.filter fun t => t.1 ≠ 0))
  else none

/-- Whether an entry is a trigger that stops what is put into its table with an error. -/
def refuses (e : SchemaEntry) : Bool :=
  let words := (TableDefinition.tokens (e.statement.getD "")).map (·.2)
  let first := words.find? fun t => ["INSERT", "UPDATE", "DELETE"].any t.isWord
  e.kind == "trigger" && first.any (·.isWord "INSERT") && !words.any (·.isWord "WHEN")
    && words.any (·.isWord "RAISE") && !words.any (·.isWord "IGNORE")

/-- The names of the columns of a view: those in brackets after its name, else the last words of what is
selected. -/
def viewColumns (e : SchemaEntry) : List String :=
  let tokens := TableDefinition.tokens (e.statement.getD "")
  let named := tokens.takeWhile fun t => !t.2.isWord "SELECT"
  let selected := (tokens.drop (named.length + 1)).takeWhile fun t => !t.2.isWord "FROM"
  let given := namesAt 1 (named.filter (·.1 ≠ 0))
  if given.isEmpty then (partsAt 0 selected).filterMap fun part => part.getLast?.map (·.2.name)
  else given

def viewSource? (e : SchemaEntry) : Option String :=
  let tokens := (TableDefinition.tokens (e.statement.getD "")).map (·.2)
  match tokens.dropWhile fun t => !t.isWord "SELECT" with
  | [_, Token.mark '*', source, table] => if source.isWord "FROM" then some table.name else none
  | _ => none

end SchemaEntry

def Image.schema? (i : Image) : Option (List SchemaEntry) := do
  let entries ← i.entries? 1
  let records ← entries.mapM fun entry => record? entry.content
  records.mapM (SchemaEntry.ofRecord? i.encoding i.pageCount)

/-- The names in a database that the table for binaries goes by. -/
structure TableNames where
  table : String
  index : String
  key : String
  value : String
  /-- What the rows for binaries are marked with in the index column. -/
  mark : String
  deriving DecidableEq, Repr

namespace TableNames

def columns (n : TableNames) : List String :=
  [n.index, n.key, n.value]

/-- What columns that must be unique together demand of binaries.  Columns that no binary gives are empty, and
empty ones never collide, unless all of them have a default. -/
def uniqueness? (n : TableNames) (d : TableDefinition) (unique : List String) :
    Option Uniqueness :=
  let has (name : String) : Bool := unique.any (sameName name)
  let others := unique.filter fun c => !n.columns.any (sameName c)
  if others.all fun c => (d.column? c).any (·.hasDefault) then some ⟨has n.key, has n.value⟩
  else none

/-- What can be done with a table of a definition, on which there are also some unique indices. -/
def rules (n : TableNames) (d : TableDefinition) (indices : List (List String)) : TableRules :=
  let given (c : Column) : Bool := n.columns.any (sameName c.name)
  let mayBeEmpty (c : Column) : Bool :=
    c.hasDefault || d.isRowNumber c.name
      || !(c.notNull || (!d.numbered && d.primary.any (sameName c.name)))
  let takes (name : String) (types : List String) : Bool :=
    (d.column? name).any fun c =>
      !c.generated && !d.isRowNumber name && (!d.strict || types.any fun t => c.type == [t])
  let primary := if d.primary.all d.isRowNumber then [] else [d.primary]
  { readable := n.columns.all fun c => (d.column? c).isSome
    writable := takes n.index ["TEXT", "ANY"] && takes n.key ["BLOB", "ANY"]
      && takes n.value ["BLOB", "ANY"] && (d.columns.filter (!given ·)).all mayBeEmpty
    unique := (primary ++ d.unique ++ indices).filterMap (n.uniqueness? d) }

/-- The row of a binary that a record of some columns stands for. -/
def row? (n : TableNames) (encoding : TextEncoding) (columns : List String) (values : List Value) :
    Option BinaryRow :=
  let value (name : String) : Value :=
    ((columns.zip values).find? fun c => sameName c.1 name).elim .null (·.2)
  match value n.index, value n.key with
  | .text mark, .blob key =>
      if encoding.decode mark == n.mark then
        match value n.value with
        | .blob bytes => some ⟨.digest key, some bytes⟩
        | _ => some ⟨.digest key, none⟩
      else none
  | _, _ => none

def tableOf (n : TableNames) (i : Image) (schema : List SchemaEntry) (e : SchemaEntry) :
    BinaryTable :=
  let d := TableDefinition.ofStatement (e.statement.getD "")
  let onTable := schema.filter fun s => sameName s.table n.table
  let rules := n.rules d (onTable.filterMap (·.unique?))
  match (i.entries? e.root).bind (·.mapM fun entry => record? entry.content) with
  | some records =>
      ⟨{ rules with writable := rules.writable && !onTable.any (·.refuses) },
        records.filterMap (n.row? i.encoding d.recorded)⟩
  | none => .unsuited

/-- The table for binaries that a view is, into which nothing can be put: the table of which it selects
everything, or one without rows. -/
def tableOfView (n : TableNames) (i : Image) (schema : List SchemaEntry) (e : SchemaEntry) :
    BinaryTable :=
  let source := e.viewSource?.bind fun name => schema.find? fun s => sameName s.name name
  match source with
  | some s =>
      let table := n.tableOf i schema s
      { table with rules := { table.rules with writable := false } }
  | none => ⟨⟨n.columns.all fun c => e.viewColumns.any (sameName c), false, []⟩, []⟩

/-- What an image holds as the table for binaries: none if it has no such table.  An index of that name leaves
no room for one. -/
def find (n : TableNames) (i : Image) : Except TableFault (Option BinaryTable) :=
  match i.schema? with
  | none => .error .notReadable
  | some schema =>
      let named := schema.filter fun e => sameName e.name n.table
      match named.find? fun e => e.kind == "table" || e.kind == "view" with
      | some e =>
          .ok (some (if e.kind == "view" then n.tableOfView i schema e else n.tableOf i schema e))
      | none => if named.any (·.kind == "index") then .error .notWritable else .ok none

end TableNames

end ShaderPipeline.Database
