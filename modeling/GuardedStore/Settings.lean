import GuardedStore.Text.Blank

/-! # Settings

The settings of a server and how two kinds of them are read: the paths of files, which hang off the
server's directory when they are relative, and the levels of its log.
-/

namespace GuardedStore

structure Settings where
  version : String := "0.1.0"
  environment : String := "development"
  identityField : String := "email"
  identityCollection : String := "users"
  hashSecret : String := "This is not a production server"
  defaultPageSize : Int := 10
  deriving Repr, Inhabited

namespace Settings

/-- The parts of a path that count: no empty ones and no single dots. -/
def pathParts (cs : List Char) : List (List Char) :=
  (Text.splitWhere (· = '/') cs).filter fun part => part ≠ [] && part ≠ ['.']

/-- The root that an absolute path starts with: exactly two slashes are kept, more are one. -/
def pathRoot : List Char → List Char
  | '/' :: '/' :: '/' :: _ => ['/']
  | '/' :: '/' :: _ => ['/', '/']
  | '/' :: _ => ['/']
  | _ => []

def joinParts (parts : List (List Char)) : List Char :=
  ['/'].intercalate parts

/-- The path of a configured file: none when the setting is empty, as it is when it is absolute, and
    below the server's directory otherwise. Parts that do not count are left out. -/
def resolvePath (directory setting : String) : Option String :=
  if setting.isEmpty then none
  else
    let cs := setting.toList
    let parts := pathParts cs
    some (match pathRoot cs with
      | [] => String.ofList (joinParts (directory.toList :: parts))
      | root => String.ofList (root ++ joinParts parts))

/-- The upper-case letter of ASCII that a letter becomes, also from a dotless i and a long s. -/
def upperLetter (c : Char) : Char :=
  if c = '\u0131' then 'I' else if c = '\u017F' then 'S' else c.toUpper

def levelNames : List (String × Nat) :=
  [("CRITICAL", 50), ("FATAL", 50), ("ERROR", 40), ("WARN", 30), ("WARNING", 30), ("INFO", 20),
    ("DEBUG", 10), ("NOTSET", 0)]

/-- The log level when a name is unknown. -/
def defaultLevel : Nat := 20

/-- The log level of a name in any case, with blanks around it. -/
def logLevel (name : String) : Nat :=
  let upper := String.ofList ((Text.trim name).toList.map upperLetter)
  ((levelNames.find? (·.1 = upper)).map (·.2)).getD defaultLevel

end Settings

end GuardedStore
