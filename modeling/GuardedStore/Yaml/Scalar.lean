import GuardedStore.Json.Reader
import GuardedStore.Yaml.Cursor

/-! # Scalars

How the text of a scalar is read in its three forms: plain, between quotes, and as a block of lines.
A single line feed between two lines of text is folded into a space, and a longer run of line ends
loses its first one; in a literal block nothing is folded.

Loops count down from the number of characters that are left, each round reads one at least.
-/

namespace GuardedStore.Yaml

/-- What the end of a line and the ends of the empty lines behind it become. -/
def foldBreaks (first more : List Char) : List Char :=
  if first ≠ ['\n'] then first ++ more
  else if more.isEmpty then [' '] else more

namespace Scan

/-- The characters that part what stands inside brackets. -/
def isFlowMark (c : Char) : Bool :=
  [',', '[', ']', '\x7b', '\x7d'].contains c

/-- Whether plain text ends before a character. Inside brackets more characters end it. -/
def endsPlain (bracketed : Bool) (c : Char) (next : Option Char) : Bool :=
  isGap c || isBreak c || (bracketed && (c = '?' || isFlowMark c)) ||
    (c = ':' && (endsToken next || (bracketed && next.any isFlowMark)))

/-- The part of plain text that a text starts with. -/
def plainPart (bracketed : Bool) : List Char → List Char
  | [] => []
  | c :: cs => if endsPlain bracketed c cs.head? then [] else c :: plainPart bracketed cs

/-- The ends of empty lines, with spaces between them, up to a line that separates documents. The
    flag tells whether there is such a line. -/
def plainBreaks : Nat → Scan (List Char × Bool)
  | 0 => malformed
  | fuel + 1 => do
    if separatesDocuments (← rest) then return ([], true)
    skipWhile (· = ' ')
    match ← takeBreak with
    | [] => return ([], false)
    | ends =>
      let (more, stopped) ← plainBreaks fuel
      return (ends ++ more, stopped)

/-- The folded gap behind a part of plain text, none before a line that separates documents, and
    whether a line ends in it. -/
def plainGap : Scan (List Char × Bool) := do
  let spaces ← takeWhile (· = ' ')
  match ← takeBreak with
  | [] => return (spaces, false)
  | first =>
    let (more, stopped) ← plainBreaks ((← rest).length + 1)
    return (if stopped then [] else foldBreaks first more, true)

/-- The parts of plain text behind a gap, and whether a line ends behind the last of them; `crossed`
    tells so of the gap. -/
def plainParts (bracketed : Bool) (indent : Int) : Nat → List Char → Bool → Scan (List Char × Bool)
  | 0, _, _ => malformed
  | fuel + 1, gap, crossed => do
    if (← peek) = some '#' then return ([], crossed)
    match plainPart bracketed (← rest) with
    | [] => return ([], crossed)
    | part =>
      skip part.length
      let (next, crossed) ← plainGap
      let cursor ← get
      if next.isEmpty || (!bracketed && cursor.column < indent) then return (gap ++ part, crossed)
      else
        let (more, crossed) ← plainParts bracketed indent fuel next crossed
        return (gap ++ part ++ more, crossed)

/-- A plain scalar whose lines are indented by `indent` columns at least, unless it stands inside
    brackets, and whether a line ends behind it. -/
def plain (bracketed : Bool) (indent : Int) : Scan (List Char × Bool) := do
  plainParts bracketed indent ((← rest).length + 1) [] false

/-- The characters that are written as a backslash and one character. -/
def escapes : List (Char × Char) :=
  [('0', '\x00'), ('a', '\x07'), ('b', '\x08'), ('t', '\t'), ('\t', '\t'), ('n', '\n'),
    ('v', '\x0b'), ('f', '\x0c'), ('r', '\r'), ('e', '\x1b'), (' ', ' '), ('"', '"'), ('\\', '\\'),
    ('/', '/'), ('N', '\x85'), ('_', '\xa0'), ('L', '\u2028'), ('P', '\u2029')]

/-- The number of digits of a code point behind a backslash and a letter. -/
def codeLength? : Char → Option Nat
  | 'x' => some 2
  | 'u' => some 4
  | 'U' => some 8
  | _ => none

/-- The character of a code point. A surrogate is none and is replaced. -/
def ofCodePoint (code : Nat) : Scan Char := do
  if 0x80000000 ≤ code then throw .outOfRange
  if 0x110000 ≤ code then throw (.misspelled "chr() arg not in range(0x110000)")
  return if 0xD800 ≤ code ∧ code < 0xE000 then '\uFFFD' else Char.ofNat code

def hexNumber (count : Nat) : Scan Nat := do
  let digits := ((← rest).take count).filterMap Json.hexDigit?
  ensure (digits.length = count)
  skip count
  return digits.foldl (fun n d => n * 16 + d) 0

/-- The ends of empty lines inside quotes, with blanks between them. -/
def quotedBreaks : Nat → Scan (List Char)
  | 0 => malformed
  | fuel + 1 => do
    ensure !(separatesDocuments (← rest))
    skipWhile isGap
    match ← takeBreak with
    | [] => return []
    | ends => return ends ++ (← quotedBreaks fuel)

/-- What a backslash between double quotes stands for, from behind the backslash on. -/
def escaped : Scan (List Char) := do
  match ← peek with
  | none => malformed
  | some c =>
    match escapes.find? (·.1 = c), codeLength? c with
    | some (_, meant), _ =>
      skip 1
      return [meant]
    | none, some count =>
      skip 1
      return [← ofCodePoint (← hexNumber count)]
    | none, none =>
      ensure (isBreak c)
      discard takeBreak
      quotedBreaks ((← rest).length + 1)

def quotedGap : Scan (List Char) := do
  let blanks ← takeWhile isGap
  match ← takeBreak with
  | [] => return blanks
  | first => return foldBreaks first (← quotedBreaks ((← rest).length + 1))

def quotedText (mark : Char) : Nat → Scan (List Char)
  | 0 => malformed
  | fuel + 1 => do
    match ← rest with
    | [] => malformed
    | c :: cs =>
      if c = mark then
        if mark = '\x27' ∧ cs.head? = some mark then
          skip 2
          return mark :: (← quotedText mark fuel)
        else
          skip 1
          return []
      else if c = '\\' ∧ mark = '"' then
        skip 1
        let meant ← escaped
        return meant ++ (← quotedText mark fuel)
      else if isGap c || isBreak c then
        let gap ← quotedGap
        return gap ++ (← quotedText mark fuel)
      else
        skip 1
        return c :: (← quotedText mark fuel)

def quoted (mark : Char) : Scan (List Char) := do
  skip 1
  quotedText mark ((← rest).length + 1)

/-- What becomes of the line ends behind the last line of a block. -/
inductive Chomping where
  | strip
  /-- That of the last line stays. -/
  | clip
  | keep
  deriving DecidableEq, Repr

def takeChomping : Scan (Option Chomping) := do
  match ← peek with
  | some '+' => skip 1; return some .keep
  | some '-' => skip 1; return some .strip
  | _ => return none

def takeIndentation : Scan (Option Nat) := do
  match ← peek with
  | some c =>
    if c.isDigit then
      ensure (c ≠ '0')
      skip 1
      return some (c.toNat - 48)
    else return none
  | none => return none

/-- The two indicators behind the mark of a block, in any order. -/
def blockHeader : Scan (Chomping × Option Nat) := do
  let early ← takeChomping
  let indentation ← takeIndentation
  let late ← if early.isNone && indentation.isSome then takeChomping else pure none
  ensure (endsField (← peek))
  return ((early.or late).getD .clip, indentation)

/-- The line ends before the first line of a block, and the widest indentation among the lines up to
    it. -/
def blockStart : Nat → Nat → Scan (List Char × Nat)
  | 0, _ => malformed
  | fuel + 1, widest => do
    skipWhile (· = ' ')
    let widest := max widest (← get).column
    match ← takeBreak with
    | [] => return ([], widest)
    | ends =>
      let (more, widest) ← blockStart fuel widest
      return (ends ++ more, widest)

/-- Passes over the indentation of a line, `indent` spaces at most. -/
def skipIndentation (indent : Nat) : Scan Unit := do
  let cursor ← get
  let spaces := cursor.rest.takeWhile (· = ' ')
  skip (min spaces.length (indent - cursor.column))

/-- The line ends before the next line of a block. -/
def blockBreaks (indent : Nat) : Nat → Scan (List Char)
  | 0 => malformed
  | fuel + 1 => do
    skipIndentation indent
    match ← takeBreak with
    | [] => return []
    | ends => return ends ++ (← blockBreaks indent fuel)

def atBlockLine (indent : Nat) : Scan Bool := do
  let cursor ← get
  return cursor.column = indent && !cursor.rest.isEmpty

/-- Whether the line at the cursor starts with text and not with a blank. -/
def atText : Scan Bool := do
  return !(← peek).any isGap

/-- What stands between two lines of a block: the end of the first and the ends of the empty lines
    behind it. In a folded block they are folded between two lines that start with text. -/
def blockGap (folded : Bool) (first more : List Char) : List Char :=
  if folded && first = ['\n'] then foldBreaks first more else first ++ more

/-- The lines of a block from the cursor on, which stands at one. -/
def blockLines (folded : Bool) (chomping : Chomping) (indent : Nat) : Nat → Scan (List Char)
  | 0 => malformed
  | fuel + 1 => do
    let text ← atText
    let line ← takeWhile (!isBreak ·)
    let first ← takeBreak
    let more ← blockBreaks indent ((← rest).length + 1)
    if ← atBlockLine indent then
      let gap := blockGap (folded && text && (← atText)) first more
      return line ++ gap ++ (← blockLines folded chomping indent fuel)
    else
      return line ++ match chomping with
        | .strip => []
        | .clip => first
        | .keep => first ++ more

/-- A block behind its mark. Its lines are indented deeper than `parent`; how deep, its header says
    or else its first line. -/
def block (folded : Bool) (parent : Int) : Scan (List Char) := do
  skip 1
  let (chomping, indentation) ← blockHeader
  finishLine
  let least := (max (parent + 1) 1).toNat
  let fuel := (← rest).length + 1
  let (ends, indent) ← match indentation with
    | none => do
      let (ends, widest) ← blockStart fuel 0
      pure (ends, max least widest)
    | some indentation => do
      let indent := least + indentation - 1
      pure (← blockBreaks indent fuel, indent)
  if ← atBlockLine indent then
    return ends ++ (← blockLines folded chomping indent fuel)
  else return if chomping = .keep then ends else []

end Scan

end GuardedStore.Yaml
