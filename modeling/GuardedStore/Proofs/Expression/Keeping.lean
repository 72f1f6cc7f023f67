import GuardedStore.Expression.Evaluation
import GuardedStore.Proofs.Run
import GuardedStore.Proofs.Expression.Loading
import GuardedStore.Proofs.Expression.Roundtrip

/-! # Rules that keep a field

A rule may set a field of what is to be written to the same field of the stored record. It is read so
although nothing but points stands between its names, and evaluated it changes what is to be written in this
field and nothing else.
-/

namespace GuardedStore.Expression

open Token (continuesName startsName read? readSign?)

/-- The rule that sets a field of what is to be written to the field of the stored record. -/
def keeping (field : String) : String :=
  "newData." ++ field ++ " = data." ++ field

/-- What the rule is written for. -/
def keepingExpr (field : String) : Expr :=
  .assignMember (.name "newData") field (.member (.name "data") field)

theorem readAs_name_before_point {s : String} (h : isName s = true) (rest : List Char) :
    ReadAs s.toList ('.' :: rest) (.name s) := by
  have isWord := ofWord_of_isName h
  unfold isName at h
  split at h
  · cases h
  · rename_i c name text
    simp only [Bool.and_eq_true] at h
    obtain ⟨⟨starts, goesOn⟩, -⟩ := h
    obtain ⟨noSign, noDigit, unskipped, noSingle, noDouble⟩ := startsName_apart starts
    have word : (name ++ '.' :: rest).takeWhile continuesName = name := by
      rw [List.takeWhile_append_of_pos (List.all_eq_true.mp goesOn)]
      simp [continuesName]
    rw [text]
    refine ⟨⟨c, name, rfl, unskipped⟩, ?_⟩
    rw [List.cons_append, read?, readNumber?_of_head noSign noDigit]
    simp [noSingle, noDouble, starts, word, ← text, isWord]

theorem readAs_point (rest : List Char) : ReadAs ['.'] rest .dot := by
  refine ⟨⟨'.', [], rfl, rfl⟩, ?_⟩
  rw [List.cons_append, read?, readNumber?_of_head (by decide) (by decide)]
  rfl

theorem Begins.read {text rest : List Char} {token : Token} {tokens : List Token}
    (h : ReadAs text rest token) (unspelled : token.respelled .sign = token)
    (others : ∀ offset, Begins tokens (Tokens.ofChars offset rest) .done) (offset : Nat) :
    Begins (token :: tokens) (Tokens.ofChars offset (text ++ rest)) .done := by
  have first : Begins (token :: tokens) (.more (token.respelled .sign) offset _) .done :=
    .cons .sign offset (others (offset + text.length))
  rw [ofChars_read h]
  rwa [unspelled] at first

theorem Begins.skip {tokens : List Token} {rest : List Char}
    (others : ∀ offset, Begins tokens (Tokens.ofChars offset rest) .done) (offset : Nat) :
    Begins tokens (Tokens.ofChars offset (' ' :: rest)) .done := by
  rw [Tokens.ofChars]
  exact others (offset + 1)

theorem begins_keeping {field : String} (h : isName field = true) :
    Begins (keepingExpr field).tokens (Tokens.ofSource (keeping field)) .done := by
  have blank (rest : List Char) : Apart (' ' :: rest) := by
    rintro c ⟨⟩
    exact List.mem_cons_self
  have isData : isName "data" = true := by decide
  have isNewData : isName "newData" = true := by decide
  have isSign : (['='], Token.assign) ∈ Token.signs := by decide
  have nothing (offset : Nat) : Begins [] (Tokens.ofChars offset []) .done := by
    rw [Tokens.ofChars]
    exact .nil
  -- The rule is read from its end on.
  have source := Begins.read (readAs_name h apart_nil) rfl nothing
  have source := Begins.read (readAs_point _) rfl source
  have source := Begins.read (readAs_name_before_point isData _) rfl source
  have assigned := Begins.read (readAs_sign isSign (blank _)) rfl (Begins.skip source)
  have target := Begins.read (readAs_name h (blank _)) rfl (Begins.skip assigned)
  have target := Begins.read (readAs_point _) rfl target
  have target := Begins.read (readAs_name_before_point isNewData _) rfl target
  have chars : (keeping field).toList = "newData".toList ++ (['.'] ++ (field.toList ++
      ' ' :: (['='] ++ ' ' :: ("data".toList ++ (['.'] ++ (field.toList ++ [])))))) := by
    simp [keeping, String.toList_append]
  rw [Tokens.ofSource, chars]
  exact target 0

/-- The rule is read as it is meant. -/
theorem compile_keeping {field : String} (h : isName field = true) :
    compile (keeping field) = .ok (keepingExpr field) := by
  have writable : (keepingExpr field).isWritable = true := by
    simp [keepingExpr, Expr.isWritable, h]
    decide
  have begins := begins_keeping h
  have count := begins.count
  rw [compile, (rereads writable).rule _ _ _ begins rfl rfl (by omega)]
  rfl

theorem Heap.kind_of_fields? {heap : Heap} {slot : Slot} {fields : Entries Slot}
    (found : heap.fields? slot = some fields) : heap.kind slot = .object := by
  obtain ⟨address, rfl, stands⟩ := fields?_eq_some_iff.mp found
  simp only [kind, stands]

theorem readProperty_of_fields? {heap : Heap} {slot : Slot} {fields : Entries Slot}
    (found : heap.fields? slot = some fields) (field : String) :
    readProperty slot (.plain (.str field)) heap =
      .ok ((Entries.get? fields field).getD (.plain .null)) heap := by
  obtain ⟨address, rfl, stands⟩ := Heap.fields?_eq_some_iff.mp found
  simp only [readProperty, get_bind, stands]
  rfl

/-- The field of what is to be written holds from then on what the field of the stored record holds. -/
theorem evaluate_keeping {scope : Scope} {heap : Heap} {stored written : Entries Slot}
    (held : heap.fields? scope.data = some stored) (new : heap.fields? scope.newData = some written)
    {field : String} {slot : Slot} (found : Entries.get? stored field = some slot) :
    evaluate scope (keepingExpr field) heap =
      .ok slot (heap.modifyFields scope.newData fun fields => Entries.set fields field slot) := by
  have target : evaluate scope (.name "newData") heap = .ok scope.newData heap := by
    rw [evaluate]
    rfl
  have object : requireObject scope.newData field heap = .ok () heap := by
    have kind := Heap.kind_of_fields? new
    simp [requireObject, get_bind, kind]
    rfl
  have source : evaluate scope (.member (.name "data") field) heap = .ok slot heap := by
    have root : evaluate scope (.name "data") heap = .ok scope.data heap := by
      rw [evaluate]
      rfl
    rw [evaluate, bind_of_ok root, readProperty_of_fields? held field, found]
    rfl
  rw [keepingExpr, evaluate, bind_of_ok target, bind_of_ok object, bind_of_ok source]
  rfl

end GuardedStore.Expression
