import GuardedStore.Yaml.Scalar

/-! # Tokens of YAML

The tokens that a YAML text is made of, and how those that are no collections or scalars are read:
directives, tags, anchors and references to them.
-/

namespace GuardedStore.Yaml

/-- A line that speaks about the document behind it. -/
inductive Directive where
  /-- The version of YAML, its first number and its second. -/
  | version (major minor : Nat)
  /-- A shorthand for the start of tags. -/
  | shorthand (handle start : String)
  | unknown
  deriving DecidableEq, Repr

/-- A tag as it is written: behind a handle, or whole. -/
structure WrittenTag where
  handle : Option String
  suffix : String
  deriving DecidableEq, Repr

inductive Token where
  | directive (directive : Directive)
  | documentStart
  | documentEnd
  | sequenceStart
  | mappingStart
  /-- The lines of a sequence or a mapping are over. -/
  | blockEnd
  | openBracket
  | closeBracket
  | openBrace
  | closeBrace
  | comma
  | item
  | key
  | value
  | anchor (name : String)
  | reference (name : String)
  | tag (tag : WrittenTag)
  /-- A scalar, which is plain or written between quotes or as a block. -/
  | scalar (plain : Bool) (text : String)
  deriving DecidableEq, Repr

def isNameChar (c : Char) : Bool :=
  c.isAlphanum || c = '-' || c = '_'

/-- The characters that may follow the name of an anchor, but for white space. -/
def nameStops : List Char :=
  ['?', ':', ',', ']', '\x7d', '%', '@', '\x60']

def isTagChar (c : Char) : Bool :=
  isNameChar c || ";/?:@&=+$,.!~*'()[]%".toList.contains c

/-- Bytes as text, if they are UTF-8. -/
def textOfBytes? (codes : List Nat) : Option (List Char) :=
  (String.fromUTF8? ⟨(codes.map UInt8.ofNat).toArray⟩).map String.toList

namespace Scan

def name : Scan String := do
  let taken ← takeWhile isNameChar
  ensure !taken.isEmpty
  return String.ofList taken

/-- The name behind the mark of an anchor or a reference. -/
def anchorName : Scan String := do
  skip 1
  let taken ← name
  let next ← peek
  ensure (endsToken next || next.any nameStops.contains)
  return taken

def versionNumber : Scan Nat := do
  let digits ← takeWhile Char.isDigit
  ensure !digits.isEmpty
  return Json.natOfDigits digits

/-- A handle of tags: an exclamation mark, or a name between two. -/
def tagHandle : Scan String := do
  ensure ((← peek) = some '!')
  skip 1
  if (← peek) = some ' ' then return "!"
  let taken ← takeWhile isNameChar
  ensure ((← peek) = some '!')
  skip 1
  return String.ofList ('!' :: taken ++ ['!'])

def escapedBytes : Nat → Scan (List Nat)
  | 0 => malformed
  | fuel + 1 => do
    if (← peek) = some '%' then
      skip 1
      let byte ← hexNumber 2
      return byte :: (← escapedBytes fuel)
    else return []

/-- The characters of a tag behind its handle, percent escapes decoded. -/
def tagChars : Nat → Scan (List Char)
  | 0 => malformed
  | fuel + 1 => do
    match ← peek with
    | none => return []
    | some c =>
      if c = '%' then
        match textOfBytes? (← escapedBytes ((← rest).length + 1)) with
        | some cs => return cs ++ (← tagChars fuel)
        | none => malformed
      else if isTagChar c then
        skip 1
        return c :: (← tagChars fuel)
      else return []

/-- A tag behind its handle, of one character at least. -/
def tagSuffix : Scan String := do
  let before := (← rest).length
  let taken ← tagChars (before + 1)
  ensure ((← rest).length < before)
  return String.ofList taken

def tag : Scan WrittenTag := do
  let cs ← rest
  let written ← match cs[1]? with
    | some '<' => do
      skip 2
      let suffix ← tagSuffix
      ensure ((← peek) = some '>')
      skip 1
      pure ⟨none, suffix⟩
    | next =>
      if endsToken next then do
        skip 1
        pure ⟨none, "!"⟩
      else if ((cs.drop 1).takeWhile fun c => !endsField (some c)).contains '!' then do
        let handle ← tagHandle
        pure ⟨some handle, ← tagSuffix⟩
      else do
        skip 1
        pure ⟨some "!", ← tagSuffix⟩
  ensure (endsField (← peek))
  return written

def directive : Scan Directive := do
  skip 1
  let kind ← name
  ensure (endsField (← peek))
  let directive ← match kind with
    | "YAML" => do
      skipWhile (· = ' ')
      let major ← versionNumber
      ensure ((← peek) = some '.')
      skip 1
      let minor ← versionNumber
      ensure (endsField (← peek))
      pure (.version major minor)
    | "TAG" => do
      skipWhile (· = ' ')
      let handle ← tagHandle
      ensure ((← peek) = some ' ')
      skipWhile (· = ' ')
      let start ← tagSuffix
      ensure (endsField (← peek))
      pure (.shorthand handle start)
    | _ => do
      skipWhile (!isBreak ·)
      pure .unknown
  finishLine
  return directive

end Scan

end GuardedStore.Yaml
