/-!
Blank characters, splitting at separators, trimming, and words.

A character is blank when it has the Unicode property White_Space.  Texts are taken apart as lists of
characters; the functions on `String` wrap those on lists.
-/

set_option autoImplicit false
set_option relaxedAutoImplicit false

namespace ShaderPipeline.Text

def isBlank (c : Char) : Bool :=
  let n := c.toNat
  (9 ≤ n && n ≤ 13) || n == 0x20 || n == 0x85 || n == 0xA0 || n == 0x1680 ||
    (0x2000 ≤ n && n ≤ 0x200A) || n == 0x2028 || n == 0x2029 || n == 0x202F || n == 0x205F ||
    n == 0x3000

/-- The pieces between separators: one more than there are separators. -/
def pieces (isSeparator : Char → Bool) : List Char → List (List Char)
  | [] => [[]]
  | c :: cs =>
      if isSeparator c then [] :: pieces isSeparator cs
      else
        match pieces isSeparator cs with
        | [] => [[c]]
        | p :: ps => (c :: p) :: ps

def dropBlankStart (cs : List Char) : List Char :=
  cs.dropWhile isBlank

def dropBlankEnd (cs : List Char) : List Char :=
  (cs.reverse.dropWhile isBlank).reverse

def dropBlankEnds (cs : List Char) : List Char :=
  dropBlankEnd (dropBlankStart cs)

def blankWords (cs : List Char) : List (List Char) :=
  (pieces isBlank cs).filter (fun w => !w.isEmpty)

/-- `dropBlankEnd` on strings. -/
def trimEnd (s : String) : String :=
  String.ofList (dropBlankEnd s.toList)

/-- `dropBlankEnds` on strings. -/
def trim (s : String) : String :=
  String.ofList (dropBlankEnds s.toList)

/-- `blankWords` on strings. -/
def words (s : String) : List String :=
  (blankWords s.toList).map String.ofList

def splitAt (separator : Char) (s : String) : List String :=
  (pieces (· == separator) s.toList).map String.ofList

/-- Whether a string holds no character but blank ones. -/
def isBlankText (s : String) : Bool :=
  s.toList.all isBlank

def dropStart? : List Char → List Char → Option (List Char)
  | [], cs => some cs
  | _ :: _, [] => none
  | p :: ps, c :: cs => if p = c then dropStart? ps cs else none

def occursIn (needle : List Char) : List Char → Bool
  | [] => needle.isEmpty
  | c :: cs => (dropStart? needle (c :: cs)).isSome || occursIn needle cs

def contains (needle haystack : String) : Bool :=
  occursIn needle.toList haystack.toList

/-- Capital letters of the Latin alphabet made small, all else as it is. -/
def asciiLower (s : String) : String :=
  String.ofList (s.toList.map Char.toLower)

end ShaderPipeline.Text
