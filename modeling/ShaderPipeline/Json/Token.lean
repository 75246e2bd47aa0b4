import ShaderPipeline.Json.Numeral
import ShaderPipeline.Text.Hex

/-!
Tokens of JSON texts.

A text is a sequence of tokens with spaces, tabs and line ends between them.  Strings hold no control
characters.  A string in which surrogates are not paired is a token, but stands for no text.
-/

set_option autoImplicit false
set_option relaxedAutoImplicit false

namespace ShaderPipeline.Json

inductive Token where
  | openObject | closeObject | openArray | closeArray | colon | comma
  /-- A constant or number. -/
  | scalar (value : Json)
  /-- A string, which may be a value or a key, with the text that it stands for. -/
  | string (text : Option String)

def codeUnit? (a b c d : Char) : Option Nat :=
  Text.hexValue? [a, b, c, d]

def isHighUnit (n : Nat) : Bool :=
  0xD800 ≤ n && n < 0xDC00

def isLowUnit (n : Nat) : Bool :=
  0xDC00 ≤ n && n < 0xE000

def escape? : Char → Option Char
  | '"' => some '"'
  | '\\' => some '\\'
  | '/' => some '/'
  | 'b' => some '\x08'
  | 'f' => some '\x0c'
  | 'n' => some '\n'
  | 'r' => some '\r'
  | 't' => some '\t'
  | _ => none

inductive Piece where
  | char (c : Char)
  /-- A code unit given by number, which may be half of a character. -/
  | unit (n : Nat)
  deriving DecidableEq, Repr

/-- The pieces of a string whose opening quote has been read, and what follows its closing quote. -/
def scanString : List Char → Option (List Piece × List Char)
  | '"' :: rest => some ([], rest)
  | '\\' :: 'u' :: a :: b :: c :: d :: rest => do
      let n ← codeUnit? a b c d
      let (pieces, after) ← scanString rest
      pure (.unit n :: pieces, after)
  | '\\' :: c :: rest => do
      let ch ← escape? c
      let (pieces, after) ← scanString rest
      pure (.char ch :: pieces, after)
  | c :: rest =>
      if c.toNat < 0x20 then none
      else (scanString rest).map fun r => (.char c :: r.1, r.2)
  | [] => none

def pairedChar (high low : Nat) : Char :=
  Char.ofNat (0x10000 + (high - 0xD800) * 0x400 + (low - 0xDC00))

/-- The characters that pieces stand for, if surrogates come in pairs only.  The first argument is the first of
a pair that waits for its second. -/
def pieceChars? : Option Nat → List Piece → Option (List Char)
  | none, [] => some []
  | none, .char c :: rest => (pieceChars? none rest).map (c :: ·)
  | none, .unit n :: rest =>
      if isHighUnit n then pieceChars? (some n) rest
      else if isLowUnit n then none
      else (pieceChars? none rest).map (Char.ofNat n :: ·)
  | some high, .unit n :: rest =>
      if isLowUnit n then (pieceChars? none rest).map (pairedChar high n :: ·) else none
  | some _, _ => none

def stringToken (pieces : List Piece) : Token :=
  .string ((pieceChars? none pieces).map String.ofList)

def isScalarChar (c : Char) : Bool :=
  c.isAlphanum || c == '-' || c == '+' || c == '.'

def scalar? (cs : List Char) : Option Json :=
  match String.ofList cs with
  | "null" => some .null
  | "true" => some (.bool true)
  | "false" => some (.bool false)
  | _ => (scanNumeral cs).map Numeral.value

def isSpace (c : Char) : Bool :=
  c == ' ' || c == '\t' || c == '\n' || c == '\r'

/-- The first token of a text that starts with no space, and what follows it. -/
def scanToken (cs : List Char) : Option (Token × List Char) :=
  match cs with
  | [] => none
  | '\x7b' :: rest => some (.openObject, rest)
  | '\x7d' :: rest => some (.closeObject, rest)
  | '[' :: rest => some (.openArray, rest)
  | ']' :: rest => some (.closeArray, rest)
  | ':' :: rest => some (.colon, rest)
  | ',' :: rest => some (.comma, rest)
  | '"' :: rest => (scanString rest).map fun r => (stringToken r.1, r.2)
  | cs =>
      let (word, rest) := cs.span isScalarChar
      if word.isEmpty then none else (scalar? word).map fun v => (.scalar v, rest)

/-- At most `limit` tokens, which must make up the text. -/
def scanTokens : Nat → List Char → Option (List Token)
  | limit, cs =>
      match cs.dropWhile isSpace, limit with
      | [], _ => some []
      | _ :: _, 0 => none
      | c :: rest, limit + 1 => do
          let (token, after) ← scanToken (c :: rest)
          let tokens ← scanTokens limit after
          pure (token :: tokens)

def tokens? (cs : List Char) : Option (List Token) :=
  scanTokens cs.length cs

end ShaderPipeline.Json
