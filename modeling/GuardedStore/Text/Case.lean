import GuardedStore.Text.CaseTable

/-! # Lower case and case folding

Folding maps each character by itself and is what two texts are compared by when their case does
not count. Lower case differs from it in special letters, and a capital sigma becomes the final
one at the end of a word.
-/

namespace GuardedStore.Text

/-- The image of one character under a case table. -/
def mapCase (runs : List CaseRun) (sequences : List (Nat × List Nat)) (c : Char) : List Char :=
  if c.toNat < 128 then [c.toLower]
  else match sequences.find? (·.1 = c.toNat) with
    | some (_, codes) => codes.map Char.ofNat
    | none =>
      match runs.findSome? (·.image? c.toNat) with
      | some code => [Char.ofNat code]
      | none => [c]

/-- The folded form of a text: two texts that differ in case only have the same one. -/
def foldCase (text : String) : String :=
  String.ofList (text.toList.flatMap (mapCase foldRuns foldSequences))

/-- Whether a list of neighbours of a sigma, nearest first, starts with a cased letter once the
    characters that do not count are passed over. -/
def meetsCased (neighbours : List Char) : Bool :=
  match neighbours.dropWhile caseIgnorableRuns.contains with
  | [] => false
  | c :: _ => casedRuns.contains c

/-- The lower case of a text whose preceding characters are given in reverse order. -/
def lowerAfter (before : List Char) : List Char → List Char
  | [] => []
  | c :: after =>
    (if c = 'Σ' then
      [if meetsCased before && !meetsCased after then 'ς' else 'σ']
    else mapCase lowerRuns lowerSequences c) ++ lowerAfter (c :: before) after

def lowerCase (text : String) : String :=
  String.ofList (lowerAfter [] text.toList)

end GuardedStore.Text
