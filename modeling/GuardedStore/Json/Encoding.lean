import GuardedStore.Json.Reader

/-! # Receiving JSON

A JSON text is received as bytes in UTF-8, UTF-16 or UTF-32. Its first two characters stand in ASCII,
so that the zeros among its first bytes tell the encoding.
-/

namespace GuardedStore.Json

inductive Encoding where
  | utf8
  /-- Units of two bytes, of which the high or the low one comes first. -/
  | utf16 (lowFirst : Bool)
  /-- Units of four bytes, of which the highest or the lowest one comes first. -/
  | utf32 (lowFirst : Bool)
  deriving DecidableEq, Repr

namespace Encoding

def ofBytes : List UInt8 → Encoding
  | a :: b :: c :: d :: _ =>
    if a = 0 then if b = 0 then .utf32 false else .utf16 false
    else if b = 0 then if c = 0 ∧ d = 0 then .utf32 true else .utf16 true
    else .utf8
  | [a, b] => if a = 0 then .utf16 false else if b = 0 then .utf16 true else .utf8
  | _ => .utf8

/-- The number that bytes spell, the highest first. -/
def unit (bytes : List UInt8) : Nat :=
  bytes.foldl (fun n b => n * 256 + b.toNat) 0

/-- The units of two bytes, if nothing is left over. -/
def units16? (lowFirst : Bool) : List UInt8 → Option (List Nat)
  | [] => some []
  | a :: b :: rest =>
    (units16? lowFirst rest).map (unit (if lowFirst then [b, a] else [a, b]) :: ·)
  | [_] => none

/-- The units of four bytes, if nothing is left over and each is a code point. -/
def units32? (lowFirst : Bool) : List UInt8 → Option (List Nat)
  | [] => some []
  | a :: b :: c :: d :: rest =>
    let code := unit (if lowFirst then [d, c, b, a] else [a, b, c, d])
    if code < 0x110000 then (units32? lowFirst rest).map (code :: ·) else none
  | _ => none

/-- A text without the byte order mark that it may start with. -/
def withoutMark (text : String) : String :=
  match text.toList with
  | '\uFEFF' :: cs => String.ofList cs
  | _ => text

/-- The text that bytes stand for, if they stand for one. -/
def decode? (bytes : List UInt8) : Encoding → Option String
  | .utf8 => (String.fromUTF8? ⟨bytes.toArray⟩).map withoutMark
  | .utf16 lowFirst => (units16? lowFirst bytes).map (String.ofList ∘ Text.Utf16.join)
  | .utf32 lowFirst => (units32? lowFirst bytes).map (String.ofList ∘ Text.Utf16.join)

end Encoding

/-- Why bytes are not JSON. -/
inductive Unreadable where
  | undecodable
  /-- What is wrong with their text. -/
  | text (flaw : Flaw)
  deriving DecidableEq, Repr

/-- The value of a JSON text that is received as bytes. -/
def receive (bytes : List UInt8) : Except Unreadable Value :=
  match (Encoding.ofBytes bytes).decode? bytes with
  | none => .error .undecodable
  | some text => (parse text).mapError .text

end GuardedStore.Json
