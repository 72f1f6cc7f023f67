import GuardedStore.Yaml.Token

/-! # The layout of YAML texts

A text becomes a list of tokens in one pass. The columns in which lines start say where sequences
and mappings begin and end. A key without a mark of its own is known as one by the colon behind it,
when its tokens have been read already: each place where such a key may start is kept as pending,
and the colon puts the mark of the key before it. A pending key lapses at the end of its line and
after 1024 characters.
-/

namespace GuardedStore.Yaml

structure PendingKey where
  position : Nat
  /-- Whether nothing but a key can stand there. -/
  required : Bool
  index : Nat
  line : Nat
  column : Nat
  deriving Repr

structure Layout where
  cursor : Cursor
  /-- The tokens so far, the last one first. -/
  tokens : List Token := []
  count : Nat := 0
  /-- The column of the innermost sequence or mapping of lines; -1 outside all of them. -/
  indent : Int := -1
  /-- The columns of the sequences and mappings around it. -/
  outerIndents : List Int := []
  /-- The pending key inside the innermost brackets. -/
  pending : Option PendingKey := none
  /-- The pending keys around them, one for each open bracket. -/
  outerPending : List (Option PendingKey) := []
  /-- Whether a key may start at the cursor. -/
  allowsKey : Bool := true
  deriving Repr

/-- The farthest that a colon may stand behind the start of its key. -/
def keyReach : Nat := 1024

abbrev Lex := StateT Layout (Except Flaw)

namespace Lex

def malformed {α : Type} : Lex α :=
  throw .malformed

def ensure (condition : Bool) : Lex Unit :=
  if condition then pure () else malformed

def scan {α : Type} (read : Scan α) : Lex α := do
  let (a, cursor) ← (read.run (← get).cursor : Except Flaw (α × Cursor))
  modify fun layout => { layout with cursor }
  return a

def push (token : Token) : Lex Unit :=
  modify fun layout =>
    { layout with tokens := token :: layout.tokens, count := layout.count + 1 }

/-- Adds tokens behind those before a position. -/
def insert (position : Nat) (tokens : List Token) : Lex Unit :=
  modify fun layout =>
    let behind := layout.count - position
    { layout with
      tokens := layout.tokens.take behind ++ tokens.reverse ++ layout.tokens.drop behind
      count := layout.count + tokens.length }

def bracketed : Lex Bool := do
  return !(← get).outerPending.isEmpty

def allowKey (allows : Bool) : Lex Unit :=
  modify fun layout => { layout with allowsKey := allows }

/-- A pending key as it is further on; it lapses when it is out of reach, and must not when it is
    required. -/
def carry (cursor : Cursor) (pending : Option PendingKey) : Lex (Option PendingKey) := do
  match pending with
  | none => return none
  | some key =>
    if key.line = cursor.line ∧ cursor.index ≤ key.index + keyReach then return some key
    ensure !key.required
    return none

/-- Lets the pending keys lapse that are out of reach. -/
def carryPending : Lex Unit := do
  let layout ← get
  let outerPending ← layout.outerPending.mapM (carry layout.cursor)
  let pending ← carry layout.cursor layout.pending
  set { layout with pending, outerPending }

/-- Gives up the pending key inside the innermost brackets. -/
def dropPending : Lex Unit := do
  let layout ← get
  ensure !(layout.pending.any (·.required))
  set { layout with pending := none }

/-- Keeps the cursor as the place where a key may start. -/
def keepPending : Lex Unit := do
  let layout ← get
  if layout.allowsKey then
    dropPending
    let cursor := layout.cursor
    let key : PendingKey :=
      { position := layout.count
        required := layout.outerPending.isEmpty && layout.indent = cursor.column
        index := cursor.index, line := cursor.line, column := cursor.column }
    modify fun layout => { layout with pending := some key }

/-- Ends the sequences and mappings of lines that are indented deeper than a column. -/
def closeBlocks (column : Int) : Lex Unit := do
  if ← bracketed then return ()
  let layout ← get
  let columns := layout.indent :: layout.outerIndents
  let closed := columns.takeWhile (column < ·)
  match columns.drop closed.length with
  | [] => return ()
  | indent :: outerIndents =>
    set { layout with
      indent, outerIndents
      tokens := (closed.map fun _ => Token.blockEnd) ++ layout.tokens
      count := layout.count + closed.length }

/-- Whether a column starts a sequence or a mapping of lines; it becomes the innermost one. -/
def opensBlock (column : Nat) : Lex Bool := do
  let layout ← get
  if layout.indent < column then
    set { layout with indent := column, outerIndents := layout.indent :: layout.outerIndents }
    return true
  else return false

/-- Starts a sequence or a mapping of lines at the cursor, if its column does so. Outside brackets a
    mark of an item, a key or a value needs a place where a key may start. -/
def startBlock (start : Token) : Lex Unit := do
  if !(← bracketed) then
    ensure (← get).allowsKey
    if ← opensBlock (← get).cursor.column then push start

/-- Adds a token of a number of characters. -/
def mark (length : Nat) (token : Token) : Lex Unit := do
  scan (Scan.skip length)
  push token

/-- Ends all sequences and mappings of lines, before what stands between documents. -/
def leaveDocument : Lex Unit := do
  closeBlocks (-1)
  dropPending
  allowKey false

def openFlow (token : Token) : Lex Unit := do
  keepPending
  modify fun layout =>
    { layout with pending := none, outerPending := layout.pending :: layout.outerPending }
  allowKey true
  mark 1 token

def closeFlow (token : Token) : Lex Unit := do
  dropPending
  match (← get).outerPending with
  | [] => malformed
  | pending :: outerPending =>
    modify fun layout => { layout with pending, outerPending }
    allowKey false
    mark 1 token

def comma : Lex Unit := do
  allowKey true
  dropPending
  mark 1 .comma

def item : Lex Unit := do
  startBlock .sequenceStart
  allowKey true
  dropPending
  mark 1 .item

def key : Lex Unit := do
  startBlock .mappingStart
  allowKey !(← bracketed)
  dropPending
  mark 1 .key

def value : Lex Unit := do
  match (← get).pending with
  | some key =>
    modify fun layout => { layout with pending := none }
    let starts ← if ← bracketed then pure false else opensBlock key.column
    insert key.position (if starts then [.mappingStart, .key] else [.key])
    allowKey false
  | none =>
    startBlock .mappingStart
    allowKey !(← bracketed)
    dropPending
  mark 1 .value

/-- A token that a key may start with. -/
def keyStart (read : Scan Token) : Lex Unit := do
  keepPending
  allowKey false
  push (← scan read)

/-- A plain scalar. A key may start behind it when it ends its line. -/
def plain : Lex Unit := do
  keepPending
  let (text, crossed) ← scan (Scan.plain (← bracketed) ((← get).indent + 1))
  allowKey crossed
  push (.scalar true (String.ofList text))

def quoted (mark : Char) : Lex Unit :=
  keyStart ((.scalar false <| String.ofList ·) <$> Scan.quoted mark)

def block (folded : Bool) : Lex Unit := do
  allowKey true
  dropPending
  let text ← scan (Scan.block folded (← get).indent)
  push (.scalar false (String.ofList text))

/-- Passes over spaces, comments and the ends of lines. -/
def skipToToken : Nat → Lex Unit
  | 0 => malformed
  | fuel + 1 => do
    scan (Scan.skipWhile (· = ' '))
    if (← scan Scan.peek) = some '#' then scan (Scan.skipWhile (!isBreak ·))
    match ← scan Scan.takeBreak with
    | [] => return ()
    | _ =>
      if !(← bracketed) then allowKey true
      skipToToken fuel

/-- Whether plain text starts with a character before another one. -/
def startsPlain (bracketed : Bool) (c : Char) (next : Option Char) : Bool :=
  !(isGap c || isBreak c || "-?:,[]\x7b\x7d#&*!|>'\"%@\x60".toList.contains c) ||
    (!endsToken next && (c = '-' || (!bracketed && (c = '?' || c = ':'))))

/-- The token that starts with a character at a column, before the characters `cs`. -/
def token (column : Nat) (c : Char) (cs : List Char) : Lex Unit := do
  let bracketed ← bracketed
  let next := cs.head?
  let alone := endsToken next
  if c = '%' ∧ column = 0 then
    leaveDocument
    push (.directive (← scan Scan.directive))
  else if column = 0 ∧ startsWithMarker '-' (c :: cs) then
    leaveDocument
    mark 3 .documentStart
  else if column = 0 ∧ startsWithMarker '.' (c :: cs) then
    leaveDocument
    mark 3 .documentEnd
  else if c = '[' then openFlow .openBracket
  else if c = '\x7b' then openFlow .openBrace
  else if c = ']' then closeFlow .closeBracket
  else if c = '\x7d' then closeFlow .closeBrace
  else if c = ',' then comma
  else if c = '-' ∧ alone then item
  else if c = '?' ∧ (bracketed ∨ alone) then key
  else if c = ':' ∧ (bracketed ∨ alone) then value
  else if c = '*' then keyStart (.reference <$> Scan.anchorName)
  else if c = '&' then keyStart (.anchor <$> Scan.anchorName)
  else if c = '!' then keyStart (.tag <$> Scan.tag)
  else if c = '|' ∧ !bracketed then block false
  else if c = '>' ∧ !bracketed then block true
  else if c = '\x27' ∨ c = '"' then quoted c
  else if startsPlain bracketed c next then plain
  else malformed

/-- All tokens from the cursor on. Each round reads one character at least, so that the rounds left are
    more than the characters left. -/
def all : Nat → Lex Unit
  | 0 => malformed
  | fuel + 1 => do
    skipToToken (fuel + 1)
    carryPending
    let cursor := (← get).cursor
    closeBlocks cursor.column
    match cursor.rest with
    | [] => leaveDocument
    | c :: cs =>
      token cursor.column c cs
      all fuel

end Lex

def tokens (text : String) : Except Flaw (List Token) := do
  if !text.toList.all allowedRuns.contains then throw .malformed
  let cursor := Cursor.ofText text
  let cursor := if cursor.rest.head? = some '\uFEFF' then cursor.next else cursor
  let ((), layout) ← (Lex.all (cursor.rest.length + 1)).run { cursor }
  return layout.tokens.reverse

end GuardedStore.Yaml
