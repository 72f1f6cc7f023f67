import GuardedStore.Json.Reader
import GuardedStore.Text.Split
import GuardedStore.Text.Utf8

/-! # Targets of calls

What a call is addressed to: a path and named parameters, written with percent escapes that spell
the bytes of UTF-8. A path is made straight before it is decoded, so that an escaped point or slash
leads nowhere.
-/

namespace GuardedStore.Http

/-- A percent-encoded text behind bytes in the given state. A percent sign without two digits stands
    for itself. -/
def decodeFrom (state : Text.Utf8.State) : List Char → List Char
  | [] => state.finish
  | '%' :: a :: b :: cs =>
    match Json.hexDigit? a, Json.hexDigit? b with
    | some high, some low =>
      let (yielded, state) := Text.Utf8.step state (high * 16 + low)
      yielded ++ decodeFrom state cs
    | _, _ => state.finish ++ '%' :: decodeFrom .start (a :: b :: cs)
  | c :: cs => state.finish ++ c :: decodeFrom .start cs

/-- The text that a percent-encoded text stands for. -/
def decode (cs : List Char) : List Char :=
  decodeFrom .start cs

/-- The steps of a path without those that lead nowhere: a single point stays where it is, and two
    points go back by one. The steps are given and returned in reverse order behind `walked`. -/
def walk (walked : List (List Char)) : List (List Char) → List (List Char)
  | [] => walked
  | ['.'] :: steps => walk walked steps
  | ['.', '.'] :: steps => walk (if walked = [[]] then walked else walked.drop 1) steps
  | step :: steps => walk (step :: walked) steps

/-- A path without steps that lead nowhere. -/
def straighten (path : List Char) : List Char :=
  ['/'].intercalate (walk [] (Text.splitWhere (· = '/') path)).reverse

/-- A named parameter: the name ends at the first equals sign. Plus signs stand for spaces. -/
def readParameter (cs : List Char) : String × String :=
  let spaced := cs.map fun c => if c = '+' then ' ' else c
  let (name, value) := (Text.cutAt '=' spaced).getD (spaced, [])
  (String.ofList (decode name), String.ofList (decode value))

def readParameters (cs : List Char) : List (String × String) :=
  ((Text.splitWhere (· = '&') cs).filter (!·.isEmpty)).map readParameter

structure Target where
  path : List Char
  /-- The parameters; of two with one name the later one counts. -/
  parameters : List (String × String)
  deriving DecidableEq, Repr

/-- The path behind the name of a host, which may stand behind two slashes at the start. -/
def behindHost : List Char → List Char
  | '/' :: '/' :: cs => straighten (cs.dropWhile (· ≠ '/'))
  | cs => cs

/-- The path that a text stands for: it starts with one slash. -/
def readPath (cs : List Char) : List Char :=
  decode (straighten ('/' :: (behindHost cs).dropWhile (· = '/')))

/-- The target that a text stands for. What follows a number sign is not part of it. -/
def Target.ofText (text : String) : Target :=
  let whole := text.toList.takeWhile (· ≠ '#')
  let (path, query) := (Text.cutAt '?' whole).getD (whole, [])
  { path := readPath path, parameters := readParameters query }

end GuardedStore.Http
