import GuardedStore.Refusal
import GuardedStore.Text.Blank
import GuardedStore.Text.Case

/-! # Query parameters

The parameters of a read request as they were received, and the two that hold lists of specifiers:
what to sort by and which relations to load.
-/

namespace GuardedStore.Query

/-- The parameters of a read request. A parameter that is not given is missing. -/
structure Parameters where
  filter : Option String := none
  sort : Option String := none
  offset : Option String := none
  pageSize : Option String := none
  distinct : Option String := none
  count : Option String := none
  select : Option String := none
  load : Option String := none
  deriving Repr, Inhabited

def given? (parameter : Option String) : Option String :=
  parameter.filter (!·.isEmpty)

namespace Parameters

/-- The parameters among named texts. -/
def ofEntries (entries : Entries String) : Parameters where
  filter := Entries.get? entries "where"
  sort := Entries.get? entries "sortBy"
  offset := Entries.get? entries "offset"
  pageSize := Entries.get? entries "pageSize"
  distinct := Entries.get? entries "distinct"
  count := Entries.get? entries "count"
  select := Entries.get? entries "select"
  load := Entries.get? entries "load"

/-- Whether the answer is the number of records. -/
def wantsCount (parameters : Parameters) : Bool :=
  (given? parameters.count).isSome

end Parameters

/-- The non-empty items of a comma-separated parameter. -/
def listItems (parameter : Option String) : List String :=
  Text.commaParts (parameter.getD "")

structure SortKey where
  field : String
  descending : Bool
  deriving DecidableEq, Repr

namespace SortKey

/-- The sort key of a specifier: a field, and `desc` as the second word for the descending order. A
    blank specifier has none. -/
def ofText? (text : String) : Option SortKey :=
  match Text.words text with
  | [] => none
  | [field] => some ⟨field, false⟩
  | field :: order :: _ => some ⟨field, Text.lowerCase order = "desc"⟩

def ofParameter (parameter : Option String) : List SortKey :=
  (listItems parameter).filterMap ofText?

end SortKey

/-- A relation to load: the field `field` gets the record of `collection` whose id stands in
    `idField`. -/
structure Relation where
  field : String
  idField : String
  collection : String
  deriving DecidableEq, Repr

namespace Relation

/-- The relation of a specifier `field=idField:collection`, whose parts are not empty. -/
def ofText? (text : String) : Option Relation := do
  let (field, rest) ← Text.cutAt '=' text.toList
  let (idField, collection) ← Text.cutAt ':' rest
  if field.isEmpty ∨ idField.isEmpty ∨ collection.isEmpty then none
  else some ⟨String.ofList field, String.ofList idField, String.ofList collection⟩

def ofTexts : List String → Except Refusal (List Relation)
  | [] => .ok []
  | text :: rest =>
    match ofText? text with
    | none => .error (.relationUnreadable text)
    | some relation => do return relation :: (← ofTexts rest)

def ofParameter (parameter : Option String) : Except Refusal (List Relation) :=
  ofTexts (listItems parameter)

end Relation

end GuardedStore.Query
