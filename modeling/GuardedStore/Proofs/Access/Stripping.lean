import GuardedStore.Proofs.Access.Denial
import GuardedStore.Proofs.Expression.Growth

/-! # What rules leave of a write

Rules that assign nothing change only what is to be written, and of that they only take out the fields
that they deny. Whether a truth value or a list of roles denies a field is a matter of the caller and
of the record as it was stored.
-/

namespace GuardedStore.Access

open Expression (Heap Node Slot Scope Grows grows_of_still grows_evaluate still_fail)
open Expression.Heap (Extends Holds)

/-- Whether an assignment stands anywhere in a rule. -/
def Rule.assigns : Rule → Bool
  | .expression source =>
    match Expression.compile source with
    | .ok e => e.assigns
    | .error _ => false
  | _ => false

/-- None of the rules that apply assigns anything. -/
structure ResolvedRules.Unassigning (resolved : ResolvedRules) : Prop where
  rule : resolved.rule.assigns = false
  fields : ∀ entry ∈ resolved.fields, entry.2.assigns = false

theorem still_readField (record : Slot) (name : String) : Still (readField record name) := by
  refine still_get.bind fun heap => ?_
  split <;> exact still_pure _

theorem still_callerOwns (caller : Caller) (data : Slot) : Still (callerOwns caller data) := by
  refine (still_readField data ownerField).bind fun owner => ?_
  split
  · exact still_pure _
  · exact still_throw _

theorem still_rolesAllowAction (roles : List Role) (attempt : Attempt) :
    Still (rolesAllowAction roles attempt) := by
  unfold rolesAllowAction
  split
  · exact still_pure _
  · split
    · split
      · exact still_pure _
      · exact still_throw _
    · split
      · exact still_pure _
      · split
        · exact still_callerOwns _ _
        · exact still_pure _

theorem still_rolesAllowField (roles : List Role) (attempt : Attempt) :
    Still (rolesAllowField roles attempt) := by
  unfold rolesAllowField
  split
  · exact still_pure _
  · split
    · exact still_pure _
    · split
      · exact still_pure _
      · split
        · exact still_callerOwns _ _
        · exact still_pure _

theorem leaves_holds (scope : Scope) (source : String) (heap : Heap) :
    leaves (holds scope source) heap = leaves (Expression.evaluateSource scope source) heap := by
  simp only [leaves, holds]
  cases Expression.evaluateSource scope source heap with
  | ok slot left => rfl
  | error stop left => cases stop <;> rfl

theorem grows_holds (scope : Scope) {source : String}
    (h : (Rule.expression source).assigns = false) : Grows (holds scope source) := by
  have evaluated : Grows (Expression.evaluateSource scope source) := by
    rw [Expression.evaluateSource]
    rw [Rule.assigns] at h
    split
    · rename_i e compiled
      rw [compiled] at h
      exact grows_evaluate scope h
    · exact grows_of_still (still_fail _)
  intro heap
  rw [leaves_holds]
  exact evaluated heap

/-- The check of an action only adds to the heap where its rule assigns nothing. -/
theorem grows_allowsAction {rule : Rule} (h : rule.assigns = false) (scope : Scope)
    (attempt : Attempt) : Grows (allowsAction rule scope attempt) := by
  cases rule with
  | unset | flag => exact grows_of_still (still_pure _)
  | expression source => exact grows_holds scope h
  | roles roles => exact grows_of_still (still_rolesAllowAction roles attempt)

theorem grows_allowsField {rule : Rule} (h : rule.assigns = false) (scope : Scope)
    (attempt : Attempt) : Grows (allowsField rule scope attempt) := by
  cases rule with
  | unset | flag => exact grows_of_still (still_pure _)
  | expression source => exact grows_holds scope h
  | roles roles => exact grows_of_still (still_rolesAllowField roles attempt)

theorem grows_openScope (lookup : Lookup) (attempt : Attempt) : Grows (openScope lookup attempt) := by
  intro heap
  obtain ⟨scope, heap', opened, grown⟩ := openScope_run lookup attempt heap
  rw [leaves_of_ok opened]
  exact grown

/-- Everything but the object in a slot stands at its address in another heap. -/
structure ExtendsBeside (slot : Slot) (heap heap' : Heap) : Prop where
  size_le : heap.nodes.size ≤ heap'.nodes.size
  node? : ∀ address < heap.nodes.size, .shared address ≠ slot →
    heap'.node? address = heap.node? address

namespace ExtendsBeside

variable {slot : Slot} {heap heap' heap'' : Heap}

theorem of_extends (h : Extends heap heap') : ExtendsBeside slot heap heap' :=
  ⟨h.1, fun address inside _ => h.2 address inside⟩

theorem trans (h : ExtendsBeside slot heap heap') (h' : ExtendsBeside slot heap' heap'') :
    ExtendsBeside slot heap heap'' :=
  ⟨h.size_le.trans h'.size_le, fun address inside apart =>
    (h'.node? address (inside.trans_le h.size_le) apart).trans (h.node? address inside apart)⟩

theorem fields? (h : ExtendsBeside slot heap heap') {other : Slot} (apart : other ≠ slot)
    {fields : Entries Slot} (found : heap.fields? other = some fields) :
    heap'.fields? other = some fields := by
  obtain ⟨address, rfl, inside⟩ := Heap.inside_of_fields? found
  rw [Heap.fields?, h.node? address inside apart]
  exact found

theorem holds (h : ExtendsBeside slot heap heap') {other : Slot} (apart : other ≠ slot)
    {record : Record} (held : Holds heap other record) : Holds heap' other record := by
  obtain ⟨fields, found, shown⟩ := held
  exact ⟨fields, h.fields? apart found, shown⟩

theorem extends_of_plain {v : Expression.Literal} (h : ExtendsBeside (.plain v) heap heap') : Extends heap heap' :=
  ⟨h.size_le, fun address inside => h.node? address inside (fun same => by cases same)⟩

/-- Beside a new object stands all that was there before. -/
theorem extends_of_alloc {node : Node} (h : ExtendsBeside (heap.alloc node).1 (heap.alloc node).2 heap') :
    Extends heap heap' := by
  have grown := Extends.alloc heap node
  refine ⟨grown.1.trans h.size_le, fun address inside => ?_⟩
  have apart : Slot.shared address ≠ (heap.alloc node).1 := by
    rintro ⟨⟩
    exact Nat.lt_irrefl _ inside
  exact (h.node? address (inside.trans_le grown.1) apart).trans (grown.2 address inside)

end ExtendsBeside

theorem extendsBeside_modifyFields (heap : Heap) (slot : Slot)
    (f : Entries Slot → Entries Slot) : ExtendsBeside slot heap (heap.modifyFields slot f) := by
  unfold Heap.modifyFields
  split
  · exact .of_extends (.refl heap)
  · rename_i changed
    split
    · refine ⟨by simp [Heap.put], fun address _ apart => ?_⟩
      have different : changed ≠ address := fun same => apart (congrArg Slot.shared same.symm)
      simp [Heap.put, Heap.node?, different]
    · exact .of_extends (.refl heap)

theorem fields?_modifyFields {heap : Heap} {slot : Slot} {fields : Entries Slot}
    (found : heap.fields? slot = some fields) (f : Entries Slot → Entries Slot) :
    (heap.modifyFields slot f).fields? slot = some (f fields) := by
  obtain ⟨address, rfl, stands⟩ := Heap.fields?_eq_some_iff.mp found
  have inside : address < heap.nodes.size := (Array.getElem?_eq_some_iff.mp stands).1
  refine Heap.fields?_eq_some_iff.mpr ⟨address, rfl, ?_⟩
  simp only [Heap.modifyFields, stands]
  simp [Heap.put, Heap.node?, inside]

/-- What is to be written was stripped of the denied fields, and nothing else was changed. -/
structure Stripped (slot : Slot) (denied : List String) (heap heap' : Heap) : Prop where
  beside : ExtendsBeside slot heap heap'
  fields? : ∀ fields, heap.fields? slot = some fields →
    heap'.fields? slot = some (fields.filter fun (name, _) => name ∉ denied)

variable {attempt : Attempt} {scope : Scope} {slot : Slot} {heap heap' heap'' : Heap}
  {denied others names : List String}

theorem stripped_of_extends (h : Extends heap heap') : Stripped slot [] heap heap' where
  beside := .of_extends h
  fields? fields found := by
    rw [h.fields? found]
    simp

theorem Stripped.trans (h : Stripped slot denied heap heap')
    (h' : Stripped slot others heap' heap'') : Stripped slot (denied ++ others) heap heap'' where
  beside := h.beside.trans h'.beside
  fields? fields found := by
    rw [h'.fields? _ (h.fields? fields found), List.filter_filter]
    simp only [List.mem_append, not_or, Bool.decide_and, Bool.and_comm]

theorem stripped_dropField (write : attempt.action.isWrite = true) (new : attempt.newData = some slot)
    {name : String} (done : dropField attempt name heap = .ok () heap') :
    Stripped slot [name] heap heap' := by
  rw [dropField, new] at done
  simp only [write, if_true] at done
  cases done
  refine ⟨extendsBeside_modifyFields heap slot _, fun fields found => ?_⟩
  rw [fields?_modifyFields found]
  simp [Entries.erase]

/-- What the rules see as what is to be written. -/
def Attempt.written (attempt : Attempt) : Slot :=
  attempt.newData.getD (.plain .null)

/-- An object that is seen as what is to be written is to be written. -/
theorem Attempt.newData_of_written {address : Nat} (seen : attempt.written = .shared address) :
    attempt.newData = some (.shared address) := by
  cases new : attempt.newData with
  | none =>
      rw [written, new] at seen
      cases seen
  | some slot =>
      rw [written, new, Option.getD_some] at seen
      rw [seen]

/-- The names that are taken out of what is to be written if they are denied: all for a write, none
otherwise. -/
def Attempt.taken (attempt : Attempt) (denied : List String) : List String :=
  if attempt.action.isWrite then denied else []

theorem Attempt.taken_nil (attempt : Attempt) : attempt.taken [] = [] := by
  simp [taken]

theorem Attempt.taken_append (attempt : Attempt) (denied others : List String) :
    attempt.taken (denied ++ others) = attempt.taken denied ++ attempt.taken others := by
  unfold taken
  split <;> rfl

/-- What is left when some names were found denied. -/
abbrev StrippedOf (attempt : Attempt) (denied : List String) (heap left : Heap) : Prop :=
  Stripped attempt.written (attempt.taken denied) heap left

theorem strippedOf_of_extends (grown : Extends heap heap') : StrippedOf attempt [] heap heap' := by
  rw [StrippedOf, attempt.taken_nil]
  exact stripped_of_extends grown

theorem StrippedOf.trans (h : StrippedOf attempt denied heap heap') (h' : StrippedOf attempt others heap' heap'') :
    StrippedOf attempt (denied ++ others) heap heap'' := by
  rw [StrippedOf, attempt.taken_append]
  exact Stripped.trans h h'

theorem strippedOf_dropField (attempt : Attempt) (name : String) (heap : Heap) :
    ∃ left, dropField attempt name heap = .ok () left ∧ StrippedOf attempt [name] heap left := by
  cases new : attempt.newData with
  | none =>
      refine ⟨heap, by rw [dropField, new]; rfl, ?_⟩
      rw [StrippedOf, Attempt.written, new]
      refine ⟨.of_extends (.refl heap), fun fields found => ?_⟩
      cases found
  | some slot =>
      by_cases write : attempt.action.isWrite = true
      · have done : dropField attempt name heap =
            .ok () (heap.modifyFields slot fun fields => Entries.erase fields name) := by
          rw [dropField, new]
          exact congrFun (if_pos write) heap
        refine ⟨_, done, ?_⟩
        rw [StrippedOf, Attempt.written, Attempt.taken, new, if_pos write]
        exact stripped_dropField write new done
      · have done : dropField attempt name heap = .ok () heap := by
          rw [dropField, new]
          exact congrFun (if_neg write) heap
        refine ⟨heap, done, ?_⟩
        rw [StrippedOf, Attempt.taken, if_neg write]
        exact stripped_of_extends (.refl heap)

/-- However the operation ends, some of the names were found denied, in their order, and nothing else has
happened to what was there; where it succeeds, it gives just these names. -/
def StripsAmong (attempt : Attempt) (names : List String) (x : Guarded (List String)) (heap : Heap) : Prop :=
  ∃ absent, absent.Sublist names ∧ StrippedOf attempt absent heap (leaves x heap) ∧
    ∀ denied left, x heap = .ok denied left → denied = absent

theorem StripsAmong.among {x : Guarded (List String)} (h : StripsAmong attempt names x heap) {more : List String}
    (contained : names.Sublist more) : StripsAmong attempt more x heap :=
  let ⟨absent, among, stripped⟩ := h
  ⟨absent, among.trans contained, stripped⟩

theorem stripsAmong_nil : StripsAmong attempt names (pure []) heap := by
  refine ⟨[], List.nil_sublist names, strippedOf_of_extends (.refl heap), ?_⟩
  rintro _ _ ⟨⟩
  rfl

theorem stripsAmong_throw (fault : Fault) : StripsAmong attempt names (throw fault) heap := by
  refine ⟨[], List.nil_sublist names, strippedOf_of_extends (.refl heap), ?_⟩
  rintro _ _ ⟨⟩

theorem stripsAmong_bind {α : Type} {x : Guarded α} {f : α → Guarded (List String)} (grows : Grows x)
    (later : ∀ a next, x heap = .ok a next → StripsAmong attempt names (f a) next) :
    StripsAmong attempt names (x >>= f) heap := by
  cases done : x heap with
  | ok a next =>
      obtain ⟨absent, among, stripped, gives⟩ := later a next done
      have same : (x >>= f) heap = f a next := bind_of_ok done
      refine ⟨absent, among, ?_, fun denied left ends => gives denied left (same.symm.trans ends)⟩
      rw [leaves, same]
      exact (strippedOf_of_extends (grows.of_ok done)).trans stripped
  | error fault next =>
      have same : (x >>= f) heap = .error fault next := bind_of_error done
      refine ⟨[], List.nil_sublist names, ?_, fun denied left ends => ?_⟩
      · rw [leaves_of_error same]
        exact strippedOf_of_extends (leaves_of_error done ▸ grows heap)
      · cases same.symm.trans ends

theorem stripsAmong_dropField {name : String} {x : Guarded (List String)}
    (later : ∀ next, StripsAmong attempt names x next) :
    StripsAmong attempt (name :: names) (do dropField attempt name; return name :: (← x)) heap := by
  obtain ⟨next, dropped, first⟩ := strippedOf_dropField attempt name heap
  obtain ⟨absent, among, stripped, gives⟩ := later next
  have same : (do dropField attempt name; return name :: (← x) : Guarded (List String)) heap =
      (x >>= fun denied => pure (name :: denied)) next := bind_of_ok dropped
  refine ⟨name :: absent, among.cons_cons name, ?_, fun denied left ends => ?_⟩
  · rw [← leaves_bind_pure x (name :: ·)] at stripped
    rw [leaves, same]
    exact first.trans stripped
  · obtain ⟨others, last, done, ends⟩ := bind_ok_iff.mp (same.symm.trans ends)
    cases ends
    rw [gives others _ done]

theorem stripsAmong_deniedFields (scope : Scope) {rules : List (String × Rule)}
    (unassigning : ∀ entry ∈ rules, entry.2.assigns = false) :
    StripsAmong attempt (rules.map (·.1)) (deniedFields scope attempt rules) heap := by
  -- A rule is evaluated on what the rules before it have left, so the heap is arbitrary.
  induction rules generalizing heap with
  | nil => exact stripsAmong_nil
  | cons entry rest ih =>
      obtain ⟨name, rule⟩ := entry
      have others (next : Heap) : StripsAmong attempt (rest.map (·.1)) (deniedFields scope attempt rest) next :=
        ih fun entry later => unassigning entry (List.mem_cons_of_mem _ later)
      rw [deniedFields]
      refine stripsAmong_bind (grows_allowsField (unassigning _ List.mem_cons_self) scope attempt) ?_
      intro allowed next _
      cases allowed with
      | true => exact (others next).among (List.sublist_cons_self _ _)
      | false => exact stripsAmong_dropField others

/-- The fields of the rules that apply to an attempt; none where the record has no id to look them up by. -/
def ruledFields (ruleSet : RuleSet) (attempt : Attempt) (heap : Heap) : List String :=
  match recordKey ruleSet attempt.collection ((heap.readRecord attempt.data).value idField) with
  | .ok id => (ruleSet.resolve attempt.action attempt.collection id).fields.map (·.1)
  | .error _ => []

theorem stripsAmong_enforce {ruleSet : RuleSet}
    (unassigning : ∀ id, (ruleSet.resolve attempt.action attempt.collection id).Unassigning) (lookup : Lookup)
    (heap : Heap) :
    StripsAmong attempt (ruledFields ruleSet attempt heap) (enforce ruleSet lookup attempt) heap := by
  refine stripsAmong_bind (grows_of_still (still_readField _ _)) fun id same read => ?_
  cases (readField_eq heap attempt.data idField).symm.trans read
  rw [ruledFields]
  cases recordKey ruleSet attempt.collection ((heap.readRecord attempt.data).value idField) with
  | error fault => exact stripsAmong_throw fault
  | ok id =>
      dsimp only
      refine stripsAmong_bind (grows_openScope lookup attempt) fun scope _ _ => ?_
      refine stripsAmong_bind (grows_allowsAction (unassigning id).rule scope attempt) fun allowed _ _ => ?_
      split
      · exact stripsAmong_throw _
      · exact stripsAmong_deniedFields scope (unassigning id).fields

/-- The check of an attempt that writes nothing only adds to the heap where no rule assigns. -/
theorem grows_enforce {ruleSet : RuleSet} (nothing : attempt.newData = none)
    (unassigning : ∀ id, (ruleSet.resolve attempt.action attempt.collection id).Unassigning) (lookup : Lookup) :
    Grows (enforce ruleSet lookup attempt) := by
  intro heap
  obtain ⟨denied, -, stripped, -⟩ := stripsAmong_enforce unassigning lookup heap
  rw [StrippedOf, Attempt.written, nothing] at stripped
  exact ExtendsBeside.extends_of_plain stripped.beside

/-- What a successful check of a write gives is what the write was stripped of. -/
theorem StripsAmong.of_ok {x : Guarded (List String)} (h : StripsAmong attempt names x heap)
    (write : attempt.action.isWrite = true) (new : attempt.newData = some slot)
    (done : x heap = .ok denied heap') : Stripped slot denied heap heap' := by
  obtain ⟨absent, -, stripped, gives⟩ := h
  rw [leaves_of_ok done, ← gives denied heap' done, StrippedOf, Attempt.written, Attempt.taken, new,
    if_pos write] at stripped
  exact stripped

theorem deniedFields_stripped (write : attempt.action.isWrite = true)
    (new : attempt.newData = some slot) {rules : List (String × Rule)}
    (unassigning : ∀ entry ∈ rules, entry.2.assigns = false)
    (done : deniedFields scope attempt rules heap = .ok denied heap') :
    Stripped slot denied heap heap' :=
  (stripsAmong_deniedFields scope unassigning).of_ok write new done

theorem enforce_stripped {ruleSet : RuleSet} {lookup : Lookup} (write : attempt.action.isWrite = true)
    (new : attempt.newData = some slot)
    (unassigning : ∀ id, (ruleSet.resolve attempt.action attempt.collection id).Unassigning)
    (done : enforce ruleSet lookup attempt heap = .ok denied heap') :
    Stripped slot denied heap heap' :=
  (stripsAmong_enforce unassigning lookup heap).of_ok write new done

/-- Whether a list of roles admits a caller to a field of a record. -/
def rolesAdmit (roles : List Role) (principal : Option Principal) (record : Record) :
    Except OutOfRange Bool :=
  if roles.contains .guest then .ok true
  else
    match principal with
    | none => .ok false
    | some principal =>
      if roles.contains .user then .ok true
      else if roles.contains .owner then principal.owns record
      else .ok false

/-- A truth value or a list of roles denies a caller a field of a record. -/
inductive Denies (principal : Option Principal) (record : Record) : Rule → Prop
  | flag : Denies principal record (.flag false)
  | roles {roles : List Role} (denied : rolesAdmit roles principal record = .ok false) :
      Denies principal record (.roles roles)

theorem allowsField_of_denies {principal : Option Principal} {record : Record} {rule : Rule}
    (known : attempt.caller.map (·.id) = principal.map (·.id))
    (held : Holds heap attempt.data record) (denied : Denies principal record rule) (scope : Scope) :
    allowsField rule scope attempt heap = .ok false heap := by
  cases denied with
  | flag => rfl
  | @roles roles denied =>
      simp only [allowsField, rolesAllowField]
      unfold rolesAdmit at denied
      split at denied
      · cases denied
      · rename_i noGuest
        rw [if_neg noGuest]
        cases principal with
        | none => rw [Option.map_eq_none_iff.mp known]; rfl
        | some principal =>
            obtain ⟨caller, isCaller, sameId⟩ := Option.map_eq_some_iff.mp known
            rw [isCaller]
            simp only at denied ⊢
            split at denied
            · cases denied
            · rename_i noUser
              rw [if_neg noUser]
              split at denied
              · rename_i owner
                rw [if_pos owner, callerOwns_run held]
                rw [Principal.owns, ← show caller.id = principal.id from sameId] at denied
                rw [denied]
              · rename_i noOwner
                rw [if_neg noOwner]
                rfl

theorem mem_of_deniedFields {principal : Option Principal} {record : Record}
    (known : attempt.caller.map (·.id) = principal.map (·.id))
    (write : attempt.action.isWrite = true) (new : attempt.newData = some slot)
    (apart : attempt.data ≠ slot) (held : Holds heap attempt.data record)
    {rules : List (String × Rule)} (unassigning : ∀ entry ∈ rules, entry.2.assigns = false)
    {name : String} {rule : Rule} (member : (name, rule) ∈ rules)
    (denies : Denies principal record rule)
    (done : deniedFields scope attempt rules heap = .ok denied heap') : name ∈ denied := by
  induction rules generalizing heap denied with
  | nil => cases member
  | cons entry rest ih =>
      obtain ⟨first, firstRule⟩ := entry
      have others : ∀ entry ∈ rest, entry.2.assigns = false :=
        fun entry later => unassigning entry (List.mem_cons_of_mem _ later)
      rw [deniedFields] at done
      obtain ⟨allowed, next, checked, done⟩ := bind_ok_iff.mp done
      have grown := (grows_allowsField (unassigning _ List.mem_cons_self) scope attempt).of_ok checked
      have kept := held.mono grown
      rcases List.mem_cons.mp member with here | later
      · cases here
        rw [allowsField_of_denies known held denies] at checked
        cases checked
        obtain ⟨⟨⟩, dropped, drop, done⟩ := bind_ok_iff.mp done
        obtain ⟨later, last, done, pure⟩ := bind_ok_iff.mp done
        cases pure
        exact List.mem_cons_self
      · cases allowed with
        | true => exact ih kept others later done
        | false =>
            obtain ⟨⟨⟩, dropped, drop, done⟩ := bind_ok_iff.mp done
            obtain ⟨names, last, done, pure⟩ := bind_ok_iff.mp done
            cases pure
            have still := (stripped_dropField write new drop).beside.holds apart kept
            exact List.mem_cons_of_mem _ (ih still others later done)

theorem enforce_ok {ruleSet : RuleSet} {lookup : Lookup} {record : Record} {id : String}
    (held : Holds heap attempt.data record) (named : record.value idField = .str id)
    (done : enforce ruleSet lookup attempt heap = .ok denied heap') :
    ∃ scope opened allowed checked,
      openScope lookup attempt heap = .ok scope opened ∧
        allowsAction (ruleSet.resolve attempt.action attempt.collection (some id)).rule scope attempt
          opened = .ok allowed checked ∧
        (allowed = true ∨ attempt.override = true) ∧
        deniedFields scope attempt
          (ruleSet.resolve attempt.action attempt.collection (some id)).fields checked =
            .ok denied heap' := by
  obtain ⟨v, read, same⟩ := readField_run held idField
  have isId : v = .str id := by simpa [Heap.ReadAs, named, Value.isContainer] using same
  rw [enforce, bind_of_ok read, isId] at done
  simp only [recordKey] at done
  obtain ⟨scope, opened, open', done⟩ := bind_ok_iff.mp done
  obtain ⟨allowed, checked, check, done⟩ := bind_ok_iff.mp done
  refine ⟨scope, opened, allowed, checked, open', check, ?_⟩
  cases allowed with
  | true => exact ⟨.inl rfl, by simpa using done⟩
  | false =>
      cases override : attempt.override with
      | true => exact ⟨.inr rfl, by simpa [override] using done⟩
      | false =>
          simp only [override, Bool.not_false, Bool.and_self, if_true, throw_bind] at done
          cases done

end GuardedStore.Access
