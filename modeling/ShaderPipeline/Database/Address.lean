import ShaderPipeline.Path
import ShaderPipeline.Text.Hex

/-!
Addresses of databases.

An address is a path, or it starts with a scheme: then come a host, which may only be the local one, a path,
a question mark with options, and a number sign with a rest that does not count.  In paths and options bytes may
be written as a percent sign and two digits.  Options say how the file is opened.
-/

set_option autoImplicit false
set_option relaxedAutoImplicit false

namespace ShaderPipeline.Database

/-- How far a database may be changed by those who open it. -/
inductive OpenMode where
  | read
  | write
  /-- The file is made if it is missing. -/
  | create
  /-- There is no file. -/
  | memory
  deriving DecidableEq, Repr

structure Address where
  path : Path
  mode : OpenMode
  deriving DecidableEq, Repr

namespace Address

/-- The bytes of a part of an address.  A byte that is zero ends the part. -/
def unescape : List Char → List UInt8
  | [] => []
  | '%' :: a :: b :: rest =>
      match Text.hexValue? [a, b] with
      | some 0 => []
      | some n => UInt8.ofNat n :: unescape rest
      | none => 0x25 :: unescape (a :: b :: rest)
  | c :: rest => c.toString.toUTF8.toList ++ unescape rest

/-- The text of a part of an address; one whose bytes are no text stays as it is written. -/
def part (cs : List Char) : String :=
  (String.fromUTF8? ⟨(unescape cs).toArray⟩).getD (String.ofList cs)

/-- What stands before the first of some characters, and what stands after it. -/
def cut (c : Char) (cs : List Char) : List Char × List Char :=
  (cs.takeWhile (· != c), (cs.dropWhile (· != c)).drop 1)

/-- The options of an address with their values; one without a name does not count. -/
def options (cs : List Char) : List (String × String) :=
  ((Text.pieces (· == '&') cs).map fun item =>
    (part (cut '=' item).1, part (cut '=' item).2)).filter fun option => !option.1.isEmpty

/-- The access that options ask for: the last one named. -/
def accessNames : List String :=
  ["unix", "unix-none", "unix-dotfile", "unix-excl", "memdb"]

def modes : List (String × OpenMode) :=
  [("ro", .read), ("rw", .write), ("rwc", .create), ("memory", .memory)]

/-- Whether one mode may be given after another: it must not allow more, unless there is no file. -/
def allows : OpenMode → OpenMode → Bool
  | _, .memory | .memory, _ | .create, _ => true
  | .write, mode => mode != .create
  | .read, mode => mode == .read

/-- The mode after an option; some options and values are refused. -/
def withOption (mode : OpenMode) (option : String × String) : Option OpenMode :=
  match option.1 with
  | "mode" =>
      ((modes.find? (·.1 == option.2)).map (·.2)).filter (allows mode)
  | "cache" => if ["shared", "private"].contains option.2 then some mode else none
  | _ => some mode

def access (options : List (String × String)) : String :=
  (((options.filter (·.1 == "vfs")).map (·.2)).getLast?).getD "unix"

def withoutHost : List Char → Option (List Char)
  | '/' :: '/' :: rest =>
      let host := String.ofList (rest.takeWhile (· != '/'))
      if host.isEmpty || host == "localhost" then some (rest.dropWhile (· != '/')) else none
  | cs => some cs

/-- The address after its scheme.  Where there is no file, nothing could be read from it. -/
def ofScheme? (cs : List Char) : Option Address := do
  let content := (cut '#' (← withoutHost cs)).1
  let (path, query) := cut '?' content
  let given := options query
  let mode ← given.foldlM withOption .create
  if !accessNames.contains (access given) then none
  let path := part path
  let isFile := !path.isEmpty && path != ":memory:" && access given != "memdb"
  if isFile then pure ⟨⟨path⟩, mode⟩
  else if mode == .read then none
  else pure ⟨⟨path⟩, .memory⟩

def ofText? (s : String) : Option Address :=
  match s.toList with
  | 'f' :: 'i' :: 'l' :: 'e' :: ':' :: rest => ofScheme? rest
  | _ => some ⟨⟨s⟩, .create⟩

end Address

end ShaderPipeline.Database
