/-! # Cutting texts

Texts are cut at single characters: into all the parts between separators, or in two at the first
one. No character but the separators is lost.
-/

namespace GuardedStore.Text

/-- The parts of a text between the characters that satisfy `p`, empty parts included. -/
def splitWhere (p : Char → Bool) : List Char → List (List Char)
  | [] => [[]]
  | c :: cs =>
    if p c then [] :: splitWhere p cs
    else match splitWhere p cs with
      | [] => [[c]]
      | part :: parts => (c :: part) :: parts

/-- The texts before and after the first `mark`, if there is one. -/
def cutAt (mark : Char) : List Char → Option (List Char × List Char)
  | [] => none
  | c :: cs =>
    if c = mark then some ([], cs)
    else (cutAt mark cs).map fun (before, after) => (c :: before, after)

/-- Whether a text stands somewhere in another one. -/
def occursIn (needle : List Char) : List Char → Bool
  | [] => needle.isEmpty
  | c :: cs => needle.isPrefixOf (c :: cs) || occursIn needle cs

def commaParts (text : String) : List String :=
  ((splitWhere (· = ',') text.toList).filter (!·.isEmpty)).map String.ofList

end GuardedStore.Text
