import GuardedStore.Text.CodeRuns
import GuardedStore.Text.Split

/-! # White space

The white space of Unicode with the four information separators of ASCII.
-/

namespace GuardedStore.Text

def blankRuns : CodeRuns :=
  [(9, 13), (28, 32), (133, 133), (160, 160), (5760, 5760), (8192, 8202), (8232, 8233), (8239, 8239),
    (8287, 8287), (12288, 12288)]

def isBlank (c : Char) : Bool :=
  blankRuns.contains c

/-- A text without the characters of `p` at its two ends. -/
def stripEnds (p : Char → Bool) (cs : List Char) : List Char :=
  ((cs.dropWhile p).reverse.dropWhile p).reverse

/-- A text without the white space at its two ends. -/
def trim (text : String) : String :=
  String.ofList (stripEnds isBlank text.toList)

/-- The words of a text, which white space separates. -/
def words (text : String) : List String :=
  ((splitWhere isBlank text.toList).filter (!·.isEmpty)).map String.ofList

end GuardedStore.Text
