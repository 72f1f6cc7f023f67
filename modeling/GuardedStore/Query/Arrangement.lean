import GuardedStore.Number.Whole
import GuardedStore.Query.Filter
import GuardedStore.Query.Parameters

/-! # Arranging records

The records of a read request are filtered, sorted, cut to a page and freed of repetitions, in this
order. Sorting by several keys is one stable sort, the first key being the most significant one.
-/

namespace GuardedStore.Query

/-- The order of two field values: numbers by their size, all else by the folded plain text and then
    by the plain text. -/
def valueOrder (left right : Value) : Ordering :=
  match left.isNumber && right.isNumber, left.place?, right.place? with
  | true, some a, some b => a.compare b
  | true, _, _ => .eq
  | false, _, _ =>
    let leftText := left.plainText
    let rightText := right.plainText
    (Value.textOrder (Text.foldCase leftText) (Text.foldCase rightText)).then
      (Value.textOrder leftText rightText)

def fieldOrder (field : String) (left right : Record) : Ordering :=
  valueOrder (left.value field) (right.value field)

/-- Whether a record may stand before another one under a key. -/
def SortKey.mayPrecede (key : SortKey) (left right : Record) : Bool :=
  if key.descending then (fieldOrder key.field left right).isGE
  else (fieldOrder key.field left right).isLE

/-- Sorts records by one key; records that the key does not tell apart keep their order. -/
def sortByKey (records : List Record) (key : SortKey) : List Record :=
  records.mergeSort key.mayPrecede

/-- Sorts records by keys: the last one first, so that the first one decides in the end. -/
def sort (records : List Record) (keys : List SortKey) : List Record :=
  keys.reverse.foldl sortByKey records

/-- The position that an offset stands for; a negative one counts from the end. -/
def startPosition (length : Nat) (offset : Int) : Nat :=
  if 0 ≤ offset then offset.toNat else length - offset.natAbs

/-- The records from an offset on. -/
def dropTo (records : List α) (offset : Int) : List α :=
  records.drop (startPosition records.length offset)

/-- The records up to a size; a negative one leaves out so many at the end. -/
def takeUpTo (records : List α) (size : Int) : List α :=
  records.take (startPosition records.length size)

/-- The size of a page: what the parameter says, or the default size when it says zero or cannot be
    read. -/
def pageLength (defaultSize : Int) (parameter : String) : Int :=
  match Numeral.readWhole? parameter with
  | some n => if n = 0 then defaultSize else n
  | none => defaultSize

def paginate (defaultSize : Int) (records : List α) (offset pageSize : Option String) : List α :=
  let rest := match given? offset with
    | some text => dropTo records ((Numeral.readWhole? text).getD 0)
    | none => records
  match given? pageSize with
  | some text => takeUpTo rest (pageLength defaultSize text)
  | none => rest

/-- The plain texts of some fields of a record, joined by two colons. -/
def combinedText (fields : List String) (record : Record) : String :=
  "::".intercalate (fields.map fun name => (record.value name).plainText)

/-- The records whose text is not among the seen ones and not that of an earlier record. -/
def firstsBy (text : Record → String) (seen : List String) : List Record → List Record
  | [] => []
  | record :: rest =>
    if seen.contains (text record) then firstsBy text seen rest
    else record :: firstsBy text (text record :: seen) rest

/-- The first record for each combination of field values. -/
def distinct (records : List Record) (fields : List String) : List Record :=
  firstsBy (combinedText fields) [] records

/-- What queries need to know besides their parameters. -/
structure Engine where
  /-- The collection of users, whose records are never shown with the password hash. -/
  identityCollection : String := "users"
  /-- The size of pages when none is given that can be read. -/
  defaultPageSize : Int := 10
  deriving Repr, Inhabited

/-- Filters records when a filter is given. -/
def filterRecords (parameter : Option String) (records : List Record) :
    Except Fault (List Record) :=
  match given? parameter with
  | none => .ok records
  | some text => do
    let filter ← (Filter.ofText text).mapError FilterFault.fault
    filter.apply records

/-- Whether a field of some record holds itself. Such a field has no text that tells where the record
    belongs. -/
def anyCircular (fields : List String) (records : List Record) : Bool :=
  records.any fun record => fields.any record.isCircularAt

/-- Sorts records, of which only several are compared. -/
def sortRecords (records : List Record) (keys : List SortKey) : Except Fault (List Record) :=
  if 1 < records.length && anyCircular (keys.map (·.field)) records then .error .circular
  else .ok (sort records keys)

/-- Leaves out repetitions when fields are given. -/
def distinctRecords (parameter : Option String) (records : List Record) :
    Except Fault (List Record) :=
  match given? parameter with
  | none => .ok records
  | some text =>
    if anyCircular (listItems (some text)) records then .error .circular
    else .ok (distinct records (listItems (some text)))

/-- The records after filter, sort, page and distinct. -/
def Engine.arrange (engine : Engine) (records : List Record) (parameters : Parameters) :
    Except Fault (List Record) := do
  let kept ← filterRecords parameters.filter records
  let sorted ← sortRecords kept (SortKey.ofParameter parameters.sort)
  let page := paginate engine.defaultPageSize sorted parameters.offset parameters.pageSize
  distinctRecords parameters.distinct page

end GuardedStore.Query
