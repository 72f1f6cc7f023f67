import GuardedStore.Query.Parameters
import GuardedStore.Proofs.Query.Cutting
import GuardedStore.Proofs.Run

/-! # Parameters that hold lists

What to sort by and which relations to load are lists with commas between their items. Each item is cut at the
first of the signs that end its parts, so that a later part may contain them. Nothing but the empty items is
lost: a list that is written is read as it was, and a text that is read can be written again.
-/

namespace GuardedStore

namespace Text

variable {p : Char → Bool} {cs : List Char}

theorem splitWhere_eq (p : Char → Bool) (cs : List Char) : splitWhere p cs = cs.splitOnP p := by
  induction cs with
  | nil => rw [splitWhere, List.splitOnP_nil]
  | cons c cs ih =>
      rw [splitWhere, ih, List.splitOnP_cons_eq_if_modifyHead]
      obtain ⟨part, parts, split⟩ := List.exists_cons_of_ne_nil (List.splitOnP_ne_nil p cs)
      rw [split]
      rfl

theorem kept_of_mem_splitOnP {part : List Char} (h : part ∈ cs.splitOnP p) : ∀ c ∈ part, p c = false := by
  induction cs generalizing part with
  | nil =>
      cases List.mem_singleton.mp (List.splitOnP_nil ▸ h)
      nofun
  | cons c cs ih =>
      rw [List.splitOnP_cons_eq_if_modifyHead] at h
      obtain ⟨first, others, split⟩ := List.exists_cons_of_ne_nil (List.splitOnP_ne_nil p cs)
      rw [split] at h ih
      split at h
      · rcases List.mem_cons.mp h with rfl | h
        · nofun
        · exact ih h
      · rename_i kept
        rcases List.mem_cons.mp h with rfl | h
        · exact List.forall_mem_cons.mpr ⟨by simpa using kept, ih List.mem_cons_self⟩
        · exact ih (List.mem_cons_of_mem _ h)

theorem cutAt_append {mark : Char} {before : List Char} (free : mark ∉ before) (after : List Char) :
    cutAt mark (before ++ mark :: after) = some (before, after) := by
  induction before with
  | nil => simp [cutAt]
  | cons c before ih =>
      have differs := List.ne_of_not_mem_cons free
      simp [cutAt, Ne.symm differs, ih (List.not_mem_of_not_mem_cons free)]

theorem cutAt_eq_some_iff {mark : Char} {before after : List Char} :
    cutAt mark cs = some (before, after) ↔ cs = before ++ mark :: after ∧ mark ∉ before := by
  constructor
  · intro cut
    fun_induction cutAt mark cs generalizing before with
    | case1 => cases cut
    | case2 =>
        cases cut
        exact ⟨rfl, List.not_mem_nil⟩
    | case3 c cs differs ih =>
        obtain ⟨⟨first, rest⟩, cut, same⟩ := Option.map_eq_some_iff.mp cut
        cases same
        obtain ⟨rfl, free⟩ := ih cut
        exact ⟨rfl, List.not_mem_cons_of_ne_of_not_mem (Ne.symm differs) free⟩
  · rintro ⟨rfl, free⟩
    exact cutAt_append free after

theorem filter_splitOnP_blanks {blanks : List Char} (blank : ∀ c ∈ blanks, p c = true) (cs : List Char) :
    ((blanks ++ cs).splitOnP p).filter (!·.isEmpty) = (cs.splitOnP p).filter (!·.isEmpty) := by
  induction blanks with
  | nil => rfl
  | cons c blanks ih =>
      obtain ⟨first, others⟩ := List.forall_mem_cons.mp blank
      rw [List.cons_append, List.splitOnP_cons_eq_if_modifyHead, if_pos first, List.filter_cons_of_neg (by simp),
        ih others]

/-- A text without white space that is not empty. -/
def IsWord (text : String) : Prop :=
  text ≠ "" ∧ ∀ c ∈ text.toList, isBlank c = false

/-- A text of white space only that is not empty. -/
def IsGap (text : String) : Prop :=
  text ≠ "" ∧ ∀ c ∈ text.toList, isBlank c = true

instance (text : String) : Decidable (IsWord text) :=
  decidable_of_iff (text ≠ "" ∧ text.toList.all (!isBlank ·)) (by simp [IsWord])

instance (text : String) : Decidable (IsGap text) :=
  decidable_of_iff (text ≠ "" ∧ text.toList.all isBlank) (by simp [IsGap])

theorem words_of_isWord {word : String} (h : IsWord word) : words word = [word] := by
  have nonempty : word.toList ≠ [] := by simpa using h.1
  simp [words, splitWhere_eq, List.splitOnP_eq_singleton h.2, nonempty]

theorem words_append {word gap : String} (isWord : IsWord word) (isGap : IsGap gap) (text : String) :
    words (word ++ gap ++ text) = word :: words text := by
  obtain ⟨c, rest, split⟩ := List.exists_cons_of_ne_nil (show gap.toList ≠ [] by simpa using isGap.1)
  have blank := isGap.2
  rw [split] at blank
  obtain ⟨first, others⟩ := List.forall_mem_cons.mp blank
  have nonempty : word.toList ≠ [] := by simpa using isWord.1
  rw [words, splitWhere_eq, String.toList_append, String.toList_append, split, List.append_assoc,
    List.cons_append, List.splitOnP_append_cons_of_forall_mem isWord.2 c first,
    List.filter_cons_of_pos (by simpa using nonempty), filter_splitOnP_blanks others, List.map_cons,
    String.ofList_toList, words, splitWhere_eq]

theorem lowerAfter_of_ascii (ascii : ∀ c ∈ cs, c.toNat < 128) (before : List Char) :
    lowerAfter before cs = cs.map Char.toLower := by
  induction cs generalizing before with
  | nil => rfl
  | cons c cs ih =>
      obtain ⟨first, others⟩ := List.forall_mem_cons.mp ascii
      have noSigma : c ≠ 'Σ' := by
        rintro rfl
        exact absurd first (by decide)
      rw [lowerAfter, if_neg noSigma, mapCase, if_pos first, ih others]
      rfl

end Text

namespace Query

/-- The items of a text with commas between them, but for the empty ones. -/
def items (text : String) : List String :=
  ((text.toList.splitOn ',').filter (!·.isEmpty)).map String.ofList

/-- The text of a list with commas between its items. -/
def listText (items : List String) : String :=
  ",".intercalate items

/-- What can be an item of a list. -/
def IsItem (text : String) : Prop :=
  text ≠ "" ∧ ',' ∉ text.toList

instance (text : String) : Decidable (IsItem text) :=
  inferInstanceAs (Decidable (_ ∧ _))

theorem listItems_some (text : String) : listItems (some text) = items text := by
  rw [listItems, Option.getD_some, Text.commaParts, Text.splitWhere_eq, items, List.splitOn_eq_splitOnP]
  rfl

theorem isItem_of_mem_items {text item : String} (h : item ∈ items text) : IsItem item := by
  obtain ⟨part, kept, rfl⟩ := List.mem_map.mp h
  obtain ⟨part', nonempty⟩ := List.mem_filter.mp kept
  rw [List.splitOn_eq_splitOnP] at part'
  refine ⟨by simpa using nonempty, fun comma => ?_⟩
  rw [String.toList_ofList] at comma
  simpa using Text.kept_of_mem_splitOnP part' _ comma

theorem items_listText {list : List String} (isItem : ∀ item ∈ list, IsItem item) :
    items (listText list) = list := by
  have commas : (listText list).toList = [','].intercalate (list.map String.toList) :=
    String.toList_intercalate
  have nonempty : (list.map String.toList).filter (!·.isEmpty) = list.map String.toList := by
    rw [List.filter_eq_self]
    intro part written
    obtain ⟨item, member, rfl⟩ := List.mem_map.mp written
    simpa using (isItem item member).1
  have back : (list.map String.toList).map String.ofList = list := by simp
  cases list with
  | nil => rfl
  | cons first others =>
      rw [items, commas, List.splitOn_intercalate ',' ?_ (by simp), nonempty, back]
      intro part written
      obtain ⟨item, member, rfl⟩ := List.mem_map.mp written
      exact (isItem item member).2

namespace Relation

/-- The specifier of a relation. -/
def text (relation : Relation) : String :=
  relation.field ++ "=" ++ relation.idField ++ ":" ++ relation.collection

/-- The parts of the relation are not empty, no comma stands in them, and the sign that ends a part does not
stand in it. -/
structure Writable (relation : Relation) : Prop where
  field : IsItem relation.field ∧ '=' ∉ relation.field.toList
  idField : IsItem relation.idField ∧ ':' ∉ relation.idField.toList
  collection : IsItem relation.collection

instance (relation : Relation) : Decidable relation.Writable :=
  decidable_of_iff (_ ∧ _ ∧ _)
    ⟨fun ⟨field, idField, collection⟩ => ⟨field, idField, collection⟩,
      fun h => ⟨h.field, h.idField, h.collection⟩⟩

theorem toList_text (relation : Relation) :
    relation.text.toList =
      relation.field.toList ++ '=' :: (relation.idField.toList ++ ':' :: relation.collection.toList) := by
  simp [text]

theorem Writable.isItem {relation : Relation} (h : relation.Writable) : IsItem relation.text := by
  refine ⟨fun empty => ?_, fun comma => ?_⟩
  · have nothing := relation.toList_text
    rw [empty] at nothing
    simp at nothing
  · rw [toList_text] at comma
    simp [h.field.1.2, h.idField.1.2, h.collection.2] at comma

theorem ofText?_eq_some_iff {item : String} {relation : Relation} :
    ofText? item = some relation ↔
      relation.text = item ∧ (relation.field ≠ "" ∧ '=' ∉ relation.field.toList) ∧
        (relation.idField ≠ "" ∧ ':' ∉ relation.idField.toList) ∧ relation.collection ≠ "" := by
  simp only [ofText?, Option.bind_eq_bind, Option.bind_eq_some_iff, Prod.exists, Text.cutAt_eq_some_iff,
    Option.ite_none_left_eq_some, List.isEmpty_iff, not_or]
  constructor
  · rintro ⟨field, _, ⟨whole, noEqual⟩, idField, collection, ⟨rfl, noColon⟩, ⟨first, second, third⟩, same⟩
    cases same
    refine ⟨String.toList_inj.mp ?_, ⟨by simpa using first, by simpa using noEqual⟩,
      ⟨by simpa using second, by simpa using noColon⟩, by simpa using third⟩
    rw [toList_text, whole]
    simp
  · rintro ⟨rfl, ⟨field, noEqual⟩, ⟨idField, noColon⟩, collection⟩
    refine ⟨relation.field.toList, _, ⟨relation.toList_text, noEqual⟩, relation.idField.toList,
      relation.collection.toList, ⟨rfl, noColon⟩, ⟨?_, ?_, ?_⟩, ?_⟩
    · simpa using field
    · simpa using idField
    · simpa using collection
    · simp

/-- An item is read as a relation just if it is the specifier of a writable one. -/
theorem ofText?_item_iff {item : String} (isItem : IsItem item) {relation : Relation} :
    ofText? item = some relation ↔ relation.Writable ∧ relation.text = item := by
  rw [ofText?_eq_some_iff]
  constructor
  · rintro ⟨rfl, ⟨field, noEqual⟩, ⟨idField, noColon⟩, collection⟩
    have free := isItem.2
    rw [toList_text] at free
    simp only [List.mem_append, List.mem_cons, not_or] at free
    exact ⟨⟨⟨⟨field, free.1⟩, noEqual⟩, ⟨⟨idField, free.2.2.1⟩, noColon⟩, ⟨collection, free.2.2.2.2⟩⟩, rfl⟩
  · rintro ⟨h, rfl⟩
    exact ⟨rfl, ⟨h.field.1.1, h.field.2⟩, ⟨h.idField.1.1, h.idField.2⟩, h.collection.1⟩

theorem ofTexts_ok_iff {texts : List String} {relations : List Relation} :
    ofTexts texts = .ok relations ↔
      List.Forall₂ (fun text relation => ofText? text = some relation) texts relations := by
  induction texts generalizing relations with
  | nil => simp [ofTexts, eq_comm]
  | cons text texts ih =>
      rw [ofTexts, List.forall₂_cons_left_iff]
      cases read : ofText? text with
      | none => simp
      | some relation =>
          constructor
          · intro done
            obtain ⟨others, later, ends⟩ := except_bind_ok_iff.mp done
            cases ends
            exact ⟨relation, others, rfl, ih.mp later, rfl⟩
          · rintro ⟨_, others, same, later, rfl⟩
            cases same
            exact except_bind_ok_iff.mpr ⟨others, ih.mpr later, rfl⟩

theorem ofTexts_error_iff {texts : List String} :
    (∃ refusal, ofTexts texts = .error refusal) ↔ ∃ text ∈ texts, ofText? text = none := by
  induction texts with
  | nil => simp [ofTexts]
  | cons text texts ih =>
      rw [ofTexts, List.exists_mem_cons_iff]
      cases read : ofText? text with
      | none => simp
      | some relation =>
          rw [← ih]
          constructor
          · rintro ⟨refusal, done⟩
            rcases except_bind_error_iff.mp done with later | ⟨_, _, ends⟩
            · exact .inr ⟨refusal, later⟩
            · cases ends
          · rintro (unread | ⟨refusal, later⟩)
            · cases unread
            · exact ⟨refusal, except_bind_error_iff.mpr (.inl later)⟩

theorem ofParameter_some (source : String) : ofParameter (some source) = ofTexts (items source) := by
  rw [ofParameter, listItems_some]

theorem ofParameter_listText {relations : List Relation} (writable : ∀ relation ∈ relations, relation.Writable) :
    ofParameter (some (listText (relations.map text))) = .ok relations := by
  have isItem : ∀ item ∈ relations.map text, IsItem item := by
    intro item written
    obtain ⟨relation, member, rfl⟩ := List.mem_map.mp written
    exact (writable relation member).isItem
  rw [ofParameter_some, items_listText isItem, ofTexts_ok_iff, List.forall₂_map_left_iff, List.forall₂_same]
  intro relation member
  have writable := writable relation member
  exact (ofText?_item_iff writable.isItem).mpr ⟨writable, rfl⟩

theorem items_of_ofParameter {source : String} {relations : List Relation}
    (read : ofParameter (some source) = .ok relations) : relations.map text = items source := by
  rw [ofParameter_some, ofTexts_ok_iff] at read
  have same : List.Forall₂ (fun item relation => item = text relation) (items source) relations :=
    read.imp fun item relation h => (ofText?_eq_some_iff.mp h).1.symm
  rw [← List.forall₂_map_right_iff, List.forall₂_eq_eq_eq] at same
  exact same.symm

/-- A text is refused just if one of its items is no specifier. -/
theorem ofParameter_error_iff {source : String} :
    (∃ refusal, ofParameter (some source) = .error refusal) ↔
      ∃ item ∈ items source, ¬∃ relation : Relation, relation.Writable ∧ relation.text = item := by
  rw [ofParameter_some, ofTexts_error_iff]
  refine exists_congr fun item => and_congr_right fun member => ?_
  rw [Option.eq_none_iff_forall_ne_some, not_exists]
  exact forall_congr' fun relation => not_congr (ofText?_item_iff (isItem_of_mem_items member))

end Relation

/-- Whether a text is the word for the descending order, in any letter case. -/
def SaysDescending (word : String) : Prop :=
  word.toList.map Char.toLower = "desc".toList

theorem mem_of_toLower {letters : List Char} {c : Char} (h : c.toLower ∈ letters) :
    c ∈ letters ++ letters.map Char.toUpper := by
  rcases Text.small_or_capital c with small | capital
  · exact List.mem_append_left _ (small ▸ h)
  · exact List.mem_append_right _ (capital ▸ List.mem_map_of_mem h)

namespace SaysDescending

variable {word : String}

theorem letters (h : SaysDescending word) :
    ∀ c ∈ word.toList, c.toNat < 128 ∧ Text.isBlank c = false ∧ c ≠ ',' := by
  intro c inside
  have small : c.toLower ∈ "desc".toList := h ▸ List.mem_map_of_mem inside
  have plain : ("desc".toList ++ "desc".toList.map Char.toUpper).all fun letter =>
      letter.toNat < 128 ∧ Text.isBlank letter = false ∧ letter ≠ ',' := by decide
  exact of_decide_eq_true (List.all_eq_true.mp plain c (mem_of_toLower small))

theorem lowerCase (h : SaysDescending word) : Text.lowerCase word = "desc" := by
  rw [Text.lowerCase, Text.lowerAfter_of_ascii (fun c inside => (h.letters c inside).1), h,
    String.ofList_toList]

theorem isWord (h : SaysDescending word) : Text.IsWord word := by
  refine ⟨?_, fun c inside => (h.letters c inside).2.1⟩
  rintro rfl
  cases h

end SaysDescending

namespace SortKey

/-- The specifiers of a sort key: its field, and behind a gap the word for the descending order. -/
inductive WrittenAs : SortKey → String → Prop
  | ascending {field : String} (isItem : IsItem field) (isWord : Text.IsWord field) :
      WrittenAs ⟨field, false⟩ field
  | descending {field gap word : String} (isItem : IsItem field) (isWord : Text.IsWord field)
      (isGap : Text.IsGap gap) (order : SaysDescending word) : WrittenAs ⟨field, true⟩ (field ++ gap ++ word)

theorem WrittenAs.isItem {key : SortKey} {text : String} (h : key.WrittenAs text) : IsItem text := by
  cases h with
  | ascending isItem => exact isItem
  | @descending field gap word isItem isWord isGap order =>
      refine ⟨by simp [isItem.1], fun comma => ?_⟩
      simp only [String.toList_append, List.mem_append] at comma
      rcases comma with (comma | comma) | comma
      · exact isItem.2 comma
      · exact absurd (isGap.2 _ comma) (by decide)
      · exact (order.letters _ comma).2.2 rfl

theorem WrittenAs.read {key : SortKey} {text : String} (h : key.WrittenAs text) : ofText? text = some key := by
  cases h with
  | ascending isItem isWord => rw [ofText?, Text.words_of_isWord isWord]
  | descending isItem isWord isGap order =>
      rw [ofText?, Text.words_append isWord isGap, Text.words_of_isWord order.isWord]
      simp [order.lowerCase]

theorem isItem_of_written {keys : List SortKey} {texts : List String}
    (written : List.Forall₂ WrittenAs keys texts) : ∀ text ∈ texts, IsItem text := by
  induction written with
  | nil => nofun
  | cons first _ ih => exact List.forall_mem_cons.mpr ⟨first.isItem, ih⟩

theorem filterMap_ofText? {keys : List SortKey} {texts : List String}
    (written : List.Forall₂ WrittenAs keys texts) : texts.filterMap ofText? = keys := by
  induction written with
  | nil => rfl
  | cons first _ ih => rw [List.filterMap_cons_some first.read, ih]

theorem ofParameter_listText {keys : List SortKey} {texts : List String}
    (written : List.Forall₂ WrittenAs keys texts) : ofParameter (some (listText texts)) = keys := by
  rw [ofParameter, listItems_some, items_listText (isItem_of_written written), filterMap_ofText? written]

end SortKey

/-- The parameters that hold lists are read without loss: relations and sort keys that are written are read as
they were; a text that is read as relations is what they are written as, but for its empty items; and it is not
read just if one of the others is no specifier. -/
theorem lists_read_as_written :
    (∀ relations : List Relation, (∀ relation ∈ relations, relation.Writable) →
        Relation.ofParameter (some (listText (relations.map Relation.text))) = .ok relations) ∧
      (∀ text relations, Relation.ofParameter (some text) = .ok relations →
        listText (relations.map Relation.text) = listText (items text)) ∧
      (∀ text, (∃ refusal, Relation.ofParameter (some text) = .error refusal) ↔
        ∃ item ∈ items text, ¬∃ relation : Relation, relation.Writable ∧ relation.text = item) ∧
      ∀ keys texts, List.Forall₂ SortKey.WrittenAs keys texts →
        SortKey.ofParameter (some (listText texts)) = keys := by
  refine ⟨fun relations writable => ?_, fun text relations read => ?_, fun text => ?_,
    fun keys texts written => ?_⟩
  · exact Relation.ofParameter_listText writable
  · rw [Relation.items_of_ofParameter read]
  · exact Relation.ofParameter_error_iff
  · exact SortKey.ofParameter_listText written

/-- Signs in later parts, empty items, a part that is missing, and orders in two spellings. -/
theorem lists_read_of_authors :
    let relations : List Relation := [⟨"author", "owner=id", "users:a=b"⟩, ⟨"a:b", "c", "d"⟩]
    let keys : List SortKey := [⟨"price", true⟩, ⟨"title", false⟩]
    ((∀ relation ∈ relations, relation.Writable) ∧
        Relation.ofParameter (some (listText (relations.map Relation.text))) = .ok relations) ∧
      (Relation.ofParameter (some ",author=owner=id:users:a=b,,a:b=c:d,") = .ok relations ∧
        listText (relations.map Relation.text) = listText (items ",author=owner=id:users:a=b,,a:b=c:d,")) ∧
      ((∃ refusal, Relation.ofParameter (some "a=b:c,d=:e") = .error refusal) ∧
        ∃ item ∈ items "a=b:c,d=:e", ¬∃ relation : Relation, relation.Writable ∧ relation.text = item) ∧
      List.Forall₂ SortKey.WrittenAs keys ["price \tDeSc", "title"] ∧
        SortKey.ofParameter (some (listText ["price \tDeSc", "title"])) = keys := by
  intro relations keys
  obtain ⟨written, rewritten, refused, sorted⟩ := lists_read_as_written
  have writable : ∀ relation ∈ relations, relation.Writable := by decide
  have read : Relation.ofParameter (some ",author=owner=id:users:a=b,,a:b=c:d,") = .ok relations := by cbv
  have unread : ∃ refusal, Relation.ofParameter (some "a=b:c,d=:e") = .error refusal := ⟨_, by cbv⟩
  have descending : SortKey.WrittenAs ⟨"price", true⟩ "price \tDeSc" :=
    @SortKey.WrittenAs.descending "price" " \t" "DeSc" (by decide) (by decide) (by decide) rfl
  have orders : List.Forall₂ SortKey.WrittenAs keys ["price \tDeSc", "title"] :=
    .cons descending (.cons (.ascending (by decide) (by decide)) .nil)
  exact ⟨⟨writable, written relations writable⟩, ⟨read, rewritten _ relations read⟩,
    ⟨unread, (refused _).mp unread⟩, orders, sorted keys _ orders⟩

end Query

end GuardedStore
