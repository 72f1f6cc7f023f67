import GuardedStore.Text.CodeRuns

/-! # Cursors of YAML texts

A cursor is a place in a text: what is still to be read, with the line and the column that it stands
in. Reading is a state monad over a cursor that can stop at a flaw.

Carriage returns are line feeds before a text is read, so that four characters end a line.
-/

namespace GuardedStore.Yaml

/-- Why a text holds no configuration data. -/
inductive Flaw where
  /-- The text is not YAML, or it uses a tag that nothing is known about. -/
  | malformed
  /-- A text does not spell what its tag says. -/
  | misspelled (details : String)
  /-- A text tagged as a truth value is no word for one. -/
  | unknownWord
  /-- A text tagged as a number holds no character of one. -/
  | emptyNumber
  /-- A text tagged as a time has not the form of one. -/
  | unformedTime
  /-- A mapping that stands for a text is tagged as a time. -/
  | mappingAsTime
  | outOfRange
  deriving DecidableEq, Repr

structure Cursor where
  rest : List Char
  index : Nat := 0
  line : Nat := 0
  column : Nat := 0
  deriving Repr

def isBreak (c : Char) : Bool :=
  c = '\n' || c = '\x85' || c = '\u2028' || c = '\u2029'

def isGap (c : Char) : Bool :=
  c = ' ' || c = '\t'

/-- Whether a token may end before what follows: a space, a tab, the end of a line or of the text. -/
def endsToken (next : Option Char) : Bool :=
  next.all fun c => isGap c || isBreak c

/-- Whether a line is over, or goes on behind a space. -/
def endsField (next : Option Char) : Bool :=
  next.all fun c => c = ' ' || isBreak c

def endsLine (next : Option Char) : Bool :=
  next.all isBreak

/-- Whether a text starts with a marker of documents, three hyphens or three points that stand
    alone. -/
def startsWithMarker (mark : Char) (cs : List Char) : Bool :=
  [mark, mark, mark].isPrefixOf cs && endsToken cs[3]?

/-- Whether a line that starts with the given characters separates documents. -/
def separatesDocuments (cs : List Char) : Bool :=
  startsWithMarker '-' cs || startsWithMarker '.' cs

def allowedRuns : Text.CodeRuns :=
  [(9, 10), (13, 13), (0x20, 0x7E), (0x85, 0x85), (0xA0, 0xD7FF), (0xE000, 0xFFFD),
    (0x10000, 0x10FFFF)]

/-- A text with line feeds for carriage returns. -/
def normalizeBreaks : List Char → List Char
  | [] => []
  | '\r' :: '\n' :: cs => '\n' :: normalizeBreaks cs
  | c :: cs => (if c = '\r' then '\n' else c) :: normalizeBreaks cs

namespace Cursor

def ofText (text : String) : Cursor where
  rest := normalizeBreaks text.toList

/-- The cursor one character on. A byte order mark takes no column. -/
def next (cursor : Cursor) : Cursor :=
  match cursor.rest with
  | [] => cursor
  | c :: rest =>
    if isBreak c then ⟨rest, cursor.index + 1, cursor.line + 1, 0⟩
    else
      ⟨rest, cursor.index + 1, cursor.line,
        if c = '\uFEFF' then cursor.column else cursor.column + 1⟩

def skip : Nat → Cursor → Cursor
  | 0, cursor => cursor
  | n + 1, cursor => skip n cursor.next

end Cursor

abbrev Scan := StateT Cursor (Except Flaw)

namespace Scan

def malformed {α : Type} : Scan α :=
  throw .malformed

def ensure (condition : Bool) : Scan Unit :=
  if condition then pure () else malformed

def rest : Scan (List Char) := do
  return (← get).rest

def peek : Scan (Option Char) := do
  return (← get).rest.head?

def skip (n : Nat) : Scan Unit :=
  modify (Cursor.skip n)

/-- Reads the characters up to the first that does not satisfy `p`. -/
def takeWhile (p : Char → Bool) : Scan (List Char) := do
  let taken := (← rest).takeWhile p
  skip taken.length
  return taken

def skipWhile (p : Char → Bool) : Scan Unit :=
  discard (takeWhile p)

/-- Reads the end of a line, if the cursor is there: a line feed, or one of the two separators. -/
def takeBreak : Scan (List Char) := do
  match ← peek with
  | some c =>
    if isBreak c then
      skip 1
      return [if c = '\x85' then '\n' else c]
    else return []
  | none => return []

/-- Reads the rest of a line that holds nothing but spaces and a comment. -/
def finishLine : Scan Unit := do
  skipWhile (· = ' ')
  if (← peek) = some '#' then skipWhile (!isBreak ·)
  ensure (endsLine (← peek))
  discard takeBreak

end Scan

end GuardedStore.Yaml
