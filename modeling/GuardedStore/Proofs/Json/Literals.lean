import GuardedStore.Proofs.Json.Ends

/-! # Text literals

The JSON of a text is read up to the quote that closes it, whatever stands behind. So no proper beginning of
it is JSON, neither alone nor in brackets.
-/

namespace GuardedStore.Json

variable {cs rest inside : List Char} {units : List Nat} {opening : Nat}

/-- What stands between quotes is read as these code points and units, whatever stands behind them. -/
def Spelled (inside : List Char) (units : List Nat) : Prop :=
  ∀ opening rest, readUnits opening (inside ++ '"' :: rest) = .ok (units, rest)

theorem spelled_nil : Spelled [] [] :=
  fun _ _ => rfl

theorem Spelled.unit (h : Spelled inside units) {a b c d : Char} {unit : Nat}
    (value : unit? a b c d = some unit) :
    Spelled ('\\' :: 'u' :: a :: b :: c :: d :: inside) (unit :: units) := by
  intro opening rest
  have read := h opening rest
  cases inside with
  | nil =>
      simp only [List.nil_append] at read
      simp only [List.cons_append, List.nil_append, readUnits.eq_3 opening a b c d unit '"' rest value, read]
      rfl
  | cons next inside =>
      simp only [List.cons_append] at read
      simp only [List.cons_append, readUnits.eq_3 opening a b c d unit next _ value, read]
      rfl

theorem Spelled.escape (h : Spelled inside units) {e c : Char} (other : e ≠ 'u')
    (value : escape? e = some c) : Spelled ('\\' :: e :: inside) (c.toNat :: units) := by
  intro opening rest
  rw [List.cons_append, List.cons_append,
    readUnits.eq_6 opening e _ (fun _ _ _ _ _ same _ => other same) other]
  simp only [value, h opening rest]
  rfl

theorem Spelled.plain (h : Spelled inside units) {c : Char} (quote : c ≠ '"') (escape : c ≠ '\\')
    (printable : ¬ c.toNat < 32) : Spelled (c :: inside) (c.toNat :: units) := by
  intro opening rest
  have escapeless {p : Prop} (same : c = '\\') : p := absurd same escape
  rw [List.cons_append, readUnits.eq_8 opening c _ quote (fun _ _ _ _ _ same => escapeless same)
    (fun _ same => escapeless same) (fun _ _ same => escapeless same) escapeless, if_neg printable,
    h opening rest]
  rfl

theorem spelled_of_readUnits (h : readUnits opening cs = .ok (units, rest)) :
    ∃ inside, cs = inside ++ '"' :: rest ∧ Spelled inside units := by
  fun_induction readUnits opening cs generalizing units with
  | case1 => cases h
  | case2 cs =>
      cases h
      exact ⟨[], rfl, spelled_nil⟩
  | case3 a b c d unit next rest' read ih =>
      obtain ⟨⟨units, behind⟩, inner, same⟩ := except_map_ok_iff.mp h
      cases same
      obtain ⟨inside, split, spelled⟩ := ih inner
      exact ⟨'\\' :: 'u' :: a :: b :: c :: d :: inside, by rw [split]; rfl, spelled.unit read⟩
  | case4 => cases h
  | case5 => cases h
  | case6 e rest' _ other c escaped ih =>
      obtain ⟨⟨units, behind⟩, inner, same⟩ := except_map_ok_iff.mp h
      cases same
      obtain ⟨inside, split, spelled⟩ := ih inner
      exact ⟨'\\' :: e :: inside, by rw [split]; rfl, spelled.escape other escaped⟩
  | case7 => cases h
  | case8 => cases h
  | case9 => cases h
  | case10 c cs quote _ _ more none printable ih =>
      obtain ⟨⟨units, behind⟩, inner, same⟩ := except_map_ok_iff.mp h
      cases same
      obtain ⟨inside, split, spelled⟩ := ih inner
      have escape : c ≠ '\\' := by
        intro same
        cases cs with
        | nil => exact none same rfl
        | cons e rest => exact more e rest same rfl
      exact ⟨c :: inside, by rw [split]; rfl, spelled.plain quote escape printable⟩

/-- A beginning of what stands between quotes is not read as a text, with nothing but characters other
than quotes behind it. -/
theorem readUnits_cut {front tail : List Char} (spelled : Spelled inside units) (cut : front <+: inside)
    (quoteless : '"' ∉ tail) (opening : Nat) :
    ∃ stop, readUnits opening (front ++ tail) = .error stop := by
  cases read : readUnits opening (front ++ tail) with
  | error stop => exact ⟨stop, rfl⟩
  | ok result =>
      obtain ⟨units', rest⟩ := result
      obtain ⟨inside', split, spelled'⟩ := spelled_of_readUnits read
      have closed : ∃ behind, front = inside' ++ '"' :: behind := by
        rcases List.append_eq_append_iff.mp split with ⟨beyond, rfl, same⟩ | ⟨beyond, rfl, same⟩
        · rw [same] at quoteless
          exact absurd (List.mem_append_right _ List.mem_cons_self) quoteless
        · cases beyond with
          | nil =>
              rw [List.nil_append] at same
              exact absurd (same ▸ List.mem_cons_self) quoteless
          | cons c beyond =>
              cases same
              exact ⟨beyond, rfl⟩
      obtain ⟨behind, rfl⟩ := closed
      obtain ⟨left, rfl⟩ := cut
      -- The text would end at its first quote as well as at its last one.
      have early := spelled' opening (behind ++ (left ++ ['"']))
      have late := spelled opening []
      simp only [List.append_assoc, List.cons_append] at early late
      rw [early] at late
      simp at late

/-- The JSON of a text, with no white space around it. -/
structure IsLiteralOf (literal s : String) : Prop where
  opens : literal.toList.head? = some '"'
  closes : literal.toList.getLast? = some '"'
  reads : parse? literal = some (.str s)

variable {literal s : String}

theorem IsLiteralOf.toList_ne_nil (isLiteral : IsLiteralOf literal s) : literal.toList ≠ [] := by
  intro none
  have opens := isLiteral.opens
  rw [none] at opens
  cases opens

theorem readValue_quote (fuel : Nat) (cs : List Char) :
    readValue (fuel + 1) ('"' :: cs) =
      (readText (cs.length + 1) cs).map fun (s, rest) => (.str s, rest) := by
  rw [readValue]
  cases readText (cs.length + 1) cs <;> rfl

theorem readValue_items (fuel : Nat) (cs : List Char) :
    readValue (fuel + 1) ('[' :: '"' :: cs) =
      (readItems fuel ('"' :: cs)).map fun (items, rest) => (.list items, rest) := by
  rw [readValue, show skipSpace ('"' :: cs) = '"' :: cs from rfl]
  change (do
    let (items, rest) ← readItems fuel ('"' :: cs)
    return (Value.list items, rest)) = _
  cases readItems fuel ('"' :: cs) <;> rfl

theorem readText_spelled (spelled : Spelled inside units) (opening : Nat) (rest : List Char) :
    readText opening (inside ++ '"' :: rest) = .ok (String.ofList (Text.Utf16.join units), rest) := by
  rw [readText, spelled opening rest]
  rfl

theorem IsLiteralOf.spelled (isLiteral : IsLiteralOf literal s) :
    ∃ inside units, literal.toList = '"' :: (inside ++ ['"']) ∧ Spelled inside units ∧
      s = String.ofList (Text.Utf16.join units) := by
  obtain ⟨fuel, rest, read, spaces⟩ := readAll_ok (readAll_of_parse? isLiteral.reads)
  have opens := isLiteral.opens
  have closes := isLiteral.closes
  cases whole : literal.toList with
  | nil => exact absurd whole isLiteral.toList_ne_nil
  | cons c body =>
      rw [whole] at opens closes read
      cases opens
      rw [show skipSpace ('"' :: body) = '"' :: body from rfl, readValue_quote] at read
      obtain ⟨⟨text, rest'⟩, readText, same⟩ := except_map_ok_iff.mp read
      cases same
      obtain ⟨⟨units, rest'⟩, readUnits, same⟩ := except_map_ok_iff.mp readText
      cases same
      obtain ⟨inside, rfl, spelled⟩ := spelled_of_readUnits readUnits
      have nothing : rest = [] := by
        rcases List.eq_nil_or_concat' rest with rfl | ⟨others, last, rfl⟩
        · rfl
        · have space : isSpace last = true := by
            rw [skipSpace, List.dropWhile_eq_nil_iff] at spaces
            exact spaces last (by simp)
          have isLast : ('"' :: (inside ++ '"' :: (others ++ [last]))).getLast? = some last :=
            List.getLast?_eq_some_iff.mpr ⟨'"' :: (inside ++ '"' :: others), by simp⟩
          rw [isLast] at closes
          cases closes
          cases space
      subst nothing
      exact ⟨inside, units, rfl, spelled, rfl⟩

theorem readValue_cut {front tail : List Char} (spelled : Spelled inside units) (cut : front <+: inside)
    (quoteless : '"' ∉ tail) (fuel : Nat) :
    ∃ stop, readValue (fuel + 1) ('"' :: (front ++ tail)) = .error stop := by
  obtain ⟨stop, unread⟩ := readUnits_cut spelled cut quoteless ((front ++ tail).length + 1)
  exact ⟨stop, by rw [readValue_quote, readText, unread]; rfl⟩

theorem parse?_of_cut {front : List Char} (spelled : Spelled inside units) (cut : front <+: inside) :
    parse? (String.ofList ('"' :: front)) = none := by
  by_contra parsed
  obtain ⟨v, parsed⟩ := Option.ne_none_iff_exists'.mp parsed
  obtain ⟨fuel, rest, read, -⟩ := readAll_ok (readAll_of_parse? parsed)
  obtain ⟨stop, unread⟩ := readValue_cut spelled cut List.not_mem_nil fuel
  rw [String.toList_ofList, show skipSpace ('"' :: front) = '"' :: front from rfl] at read
  rw [List.append_nil, read] at unread
  cases unread

theorem parse?_item_of_cut {front : List Char} (spelled : Spelled inside units) (cut : front <+: inside) :
    parse? (String.ofList ('[' :: '"' :: (front ++ [']']))) = none := by
  by_contra parsed
  obtain ⟨v, parsed⟩ := Option.ne_none_iff_exists'.mp parsed
  obtain ⟨fuel, rest, read, -⟩ := readAll_ok (readAll_of_parse? parsed)
  rw [String.toList_ofList, show skipSpace ('[' :: '"' :: (front ++ [']'])) =
    '[' :: '"' :: (front ++ [']']) from rfl, readValue_items] at read
  obtain ⟨⟨found, rest'⟩, read, -⟩ := except_map_ok_iff.mp read
  have notQuote : '"' ∉ [']'] := by decide
  cases fuel with
  | zero => cases read
  | succ fuel =>
      rw [readItems] at read
      obtain ⟨⟨item, later⟩, first, -⟩ := except_bind_ok_iff.mp read
      cases fuel with
      | zero => cases first
      | succ fuel =>
          obtain ⟨stop, unread⟩ := readValue_cut spelled cut notQuote fuel
          rw [unread] at first
          cases first

/-- In brackets a literal is the JSON of a list with the text. -/
theorem IsLiteralOf.parse?_item (isLiteral : IsLiteralOf literal s) :
    parse? ("[" ++ literal ++ "]") = some (.list [.str s]) := by
  obtain ⟨inside, units, whole, spelled, rfl⟩ := isLiteral.spelled
  have text : ("[" ++ literal ++ "]").toList = '[' :: '"' :: (inside ++ '"' :: [']']) := by
    simp [whole]
  have item (fuel : Nat) : readItems (fuel + 2) ('"' :: (inside ++ '"' :: [']'])) =
      .ok ([.str (String.ofList (Text.Utf16.join units))], []) := by
    rw [readItems, readValue_quote, readText_spelled spelled]
    rfl
  have read : readAll ('[' :: '"' :: (inside ++ '"' :: [']'])) =
      .ok (.list [.str (String.ofList (Text.Utf16.join units))]) := by
    obtain ⟨fuel, enough⟩ : ∃ fuel,
        2 * ('[' :: '"' :: (inside ++ '"' :: [']'])).length + 2 = fuel + 2 + 1 := by
      refine ⟨2 * inside.length + 7, ?_⟩
      simp only [List.length_cons, List.length_append, List.length_nil]
      omega
    rw [readAll, enough, show skipSpace ('[' :: '"' :: (inside ++ '"' :: [']'])) =
      '[' :: '"' :: (inside ++ '"' :: [']']) from rfl, readValue_items, item fuel]
    rfl
  rw [parse?, parse, text, read]
  rfl

end GuardedStore.Json
