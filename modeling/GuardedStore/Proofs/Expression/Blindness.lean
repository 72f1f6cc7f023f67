import GuardedStore.Proofs.Agreement
import GuardedStore.Proofs.Expression.Sameness
import GuardedStore.Expression.Evaluation

/-! # Evaluation is blind to addresses

On heaps that mirror each other, an expression is evaluated to twins, or fails for the same reason, and
the heaps that are left mirror each other again. This holds with assignments, too: what is assigned on
the one side is assigned to the twin on the other.
-/

namespace GuardedStore.Expression

variable {kept : Nat → Option Node} {link later : Link} {slot slot' : Slot} {α β ε : Type}

/-- The operations do the same on heaps that mirror each other. -/
abbrev Blind (kept : Nat → Option Node) (Same : Link → α → β → Prop) (link : Link)
    (x : EStateM ε Heap α) (y : EStateM ε Heap β) : Prop :=
  Agree (Mirrors kept) Same link x y

theorem blind_fail {Same : Link → α → β → Prop} (reason : Reason) :
    Blind kept Same link (fail reason : Eval α) (fail reason : Eval β) :=
  agree_throw _

theorem blind_ranged (result : Except OutOfRange α) :
    Blind kept Equal link (ranged result) (ranged result) := by
  cases result with
  | ok a => exact agree_pure rfl
  | error fault => exact agree_throw _

theorem blind_readSlot (twin : Twin link slot slot') :
    Blind kept Equal link (readSlot slot) (readSlot slot') :=
  agree_get.bind fun _ _ _ grown m => agree_pure (m.read_eq (twin.mono grown))

theorem blind_slotName (twin : Twin link slot slot') :
    Blind kept Equal link (slotName slot) (slotName slot') :=
  agree_get.bind fun _ _ _ grown m => agree_pure (m.name_eq (twin.mono grown))

theorem blind_readItem (length : Nat) {item item' : Nat → Slot}
    (items : ∀ n, Twin link (item n) (item' n)) (key : Twin link slot slot') :
    Blind kept Twin link (readItem length item slot) (readItem length item' slot') := by
  cases key with
  | shared linked => exact agree_pure (.plain .null)
  | plain key =>
      simp only [readItem]
      split
      · exact agree_pure (.plain _)
      · refine (blind_ranged _).bind_equal fun later index grown => ?_
        cases index with
        | none => exact agree_pure (.plain .null)
        | some n =>
            simp only
            split
            · exact agree_pure ((items _).mono grown)
            · exact agree_pure (.plain .null)

theorem twin_item {items items' : List Slot} (twins : List.Forall₂ (Twin link) items items') (n : Nat) :
    Twin link (items[n]?.getD (.plain .null)) (items'[n]?.getD (.plain .null)) := by
  induction twins generalizing n with
  | nil => exact .plain .null
  | cons first _ ih =>
      cases n with
      | zero => exact first
      | succ n => exact ih n

theorem blind_readProperty {key key' : Slot} (container : Twin link slot slot')
    (named : Twin link key key') :
    Blind kept Twin link (readProperty slot key) (readProperty slot' key') := by
  cases container with
  | plain v =>
      cases v with
      | null =>
          simp only [readProperty]
          refine (blind_slotName named).bind_equal fun later name grown => ?_
          exact blind_fail _
      | str s =>
          simp only [readProperty]
          exact blind_readItem _ (fun n => .plain _) named
      | bool | int | float => exact agree_pure (.plain .null)
  | @shared a b linked =>
      simp only [readProperty]
      refine agree_get.bind fun later heap heap' grown m => ?_
      obtain ⟨node, node', found, found', twins⟩ := m.twins (grown _ _ linked)
      cases twins with
      | list twins =>
          simp only [found, found', ← twins.length_eq]
          exact blind_readItem _ (twin_item twins) (named.mono grown)
      | object twins =>
          simp only [found, found']
          refine (blind_slotName (named.mono grown)).bind_equal fun last name grown' => ?_
          exact agree_pure ((twins.value name).mono grown')

theorem blind_readBoth {left left' right right' : Slot} {f : Value → Value → Eval α}
    (one : Twin link left left') (other : Twin link right right')
    (rest : ∀ later v w, Blind kept Equal later (f v w) (f v w)) :
    Blind kept Equal link (do f (← readSlot left) (← readSlot right))
      (do f (← readSlot left') (← readSlot right')) := by
  refine (blind_readSlot one).bind_equal fun mid v grown => ?_
  exact (blind_readSlot (other.mono grown)).bind_equal fun last w _ => rest last v w

theorem blind_compareContents {left left' right right' : Slot} (one : Twin link left left')
    (other : Twin link right right') :
    Blind kept Equal link (compareContents left right) (compareContents left' right') := by
  refine agree_get.bind fun later heap heap' grown m => ?_
  rw [m.same?_eq (one.mono grown) (other.mono grown)]
  split
  · exact agree_pure rfl
  · exact agree_throw _

theorem blind_comparesEqual (compare : Value → Value → Except OutOfRange Bool)
    {left left' right right' : Slot} (one : Twin link left left') (other : Twin link right right') :
    Blind kept Equal link (comparesEqual compare left right) (comparesEqual compare left' right') := by
  have byValue := blind_readBoth one other fun later v w =>
    (blind_ranged (compare v w) : Blind kept Equal later _ _)
  cases one with
  | plain v => cases other <;> exact byValue
  | shared linked =>
      cases other with
      | plain v => exact byValue
      | shared linked' => exact blind_compareContents (.shared linked) (.shared linked')

theorem blind_compareSlots (op : Comparison) {left left' right right' : Slot}
    (one : Twin link left left') (other : Twin link right right') :
    Blind kept Equal link (compareSlots op left right) (compareSlots op left' right') := by
  have negated (compare : Value → Value → Except OutOfRange Bool) :
      Blind kept Equal link (do return !(← comparesEqual compare left right))
        (do return !(← comparesEqual compare left' right')) :=
    (blind_comparesEqual compare one other).bind fun _ _ _ _ same => agree_pure (congrArg _ same)
  cases op with
  | loose => exact blind_comparesEqual _ one other
  | notLoose => exact negated _
  | strict => exact blind_comparesEqual _ one other
  | notStrict => exact negated _
  | less | lessOrEqual | greater | greaterOrEqual =>
      refine blind_readBoth one other fun later v w => ?_
      exact (blind_ranged _).bind_equal fun _ order _ => by cases order <;> exact agree_pure rfl

theorem truthySlot_eq (twin : Twin link slot slot') : truthySlot slot = truthySlot slot' := by
  cases twin <;> rfl

theorem blind_writeProperty (key : String) {v v' : Slot} (container : Twin link slot slot')
    (value : Twin link v v') :
    Blind kept Twin link (writeProperty slot key v) (writeProperty slot' key v') := by
  intro heap heap' m
  have written := m.modifyFields container fun fields => fields.set key value
  exact ⟨link, le_refl link, .ok written value⟩

theorem blind_requireObject (key : String) (twin : Twin link slot slot') :
    Blind kept Equal link (requireObject slot key) (requireObject slot' key) := by
  refine agree_get.bind fun later heap heap' grown m => ?_
  dsimp only
  rw [m.kind_eq (twin.mono grown)]
  split
  · exact blind_fail _
  · exact agree_pure rfl

/-- Rules see twins, and find the same records. -/
structure ScopeTwin (link : Link) (scope scope' : Scope) : Prop where
  user : Twin link scope.user scope'.user
  data : Twin link scope.data scope'.data
  newData : Twin link scope.newData scope'.newData
  lookup : scope.lookup = scope'.lookup

variable {scope scope' : Scope}

theorem ScopeTwin.mono (h : ScopeTwin link scope scope') (grown : link ≤ later) :
    ScopeTwin later scope scope' :=
  ⟨h.user.mono grown, h.data.mono grown, h.newData.mono grown, h.lookup⟩

theorem ScopeTwin.found (h : ScopeTwin link scope scope') {name : String} {one other : Option Slot}
    (found : scope.variable? name = one) (found' : scope'.variable? name = other) :
    Option.Rel (Twin link) one other := by
  subst found found'
  unfold Scope.variable?
  split
  · exact .some h.user
  · split
    · exact .some h.data
    · split
      · exact .some h.newData
      · exact .none

theorem blind_loadFound (found : Found) : Blind kept Twin link (loadFound found) (loadFound found) := by
  intro heap heap' m
  cases found with
  | record record =>
      obtain ⟨later, grown, m, twin⟩ := m.loadRecord record
      exact ⟨later, grown, .ok m twin⟩
  | records records =>
      obtain ⟨mid, grown, m, twins⟩ := m.loadRecords records
      obtain ⟨later, grown', m, linked⟩ := m.alloc (.list twins)
      exact ⟨later, grown.trans grown', .ok m (.shared linked)⟩

theorem Twin.eq_plain_iff (h : Twin link slot slot') (v : Literal) :
    slot = .plain v ↔ slot' = .plain v := by
  cases h <;> simp

theorem blind_callGet (scopes : ScopeTwin link scope scope') {collection collection' id id' : Slot}
    (named : Twin link collection collection') (ids : Twin link id id') :
    Blind kept Twin link (callGet scope collection id) (callGet scope' collection' id') := by
  refine (blind_slotName named).bind_equal fun mid name grown => ?_
  refine (blind_slotName (ids.mono grown)).bind_equal fun last shownId _ => ?_
  simp only [scopes.lookup, ids.eq_plain_iff]
  split
  · exact blind_loadFound _
  · exact blind_fail _

theorem blind_callIsOwner {user user' record record' : Slot} (users : Twin link user user')
    (records : Twin link record record') :
    Blind kept Twin link (callIsOwner user record) (callIsOwner user' record') := by
  refine agree_get.bind fun later heap heap' grown m => ?_
  have userFields := m.fields? (users.mono grown)
  have recordFields := m.fields? (records.mono grown)
  generalize heap.fields? user = one, heap'.fields? user' = one' at userFields ⊢
  generalize heap.fields? record = other, heap'.fields? record' = other' at recordFields ⊢
  cases userFields with
  | none => exact agree_pure (.plain _)
  | some userFields =>
      cases recordFields with
      | none => exact agree_pure (.plain _)
      | some recordFields =>
          exact Agree.bind_equal (blind_comparesEqual _ (userFields.value "_id")
            (recordFields.value "_ownerId")) fun _ _ _ => agree_pure (.plain _)

theorem blind_callFunction (scopes : ScopeTwin link scope scope') (function : String)
    {args args' : List Slot} (twins : List.Forall₂ (Twin link) args args') :
    Blind kept Twin link (callFunction scope function args) (callFunction scope' function args') := by
  unfold callFunction
  split
  · cases twins with
    | cons collection rest =>
        cases rest
        exact blind_callGet scopes collection (.plain .null)
  · cases twins with
    | cons collection rest =>
        cases rest with
        | cons id rest =>
            cases rest
            exact blind_callGet scopes collection id
  · cases twins with
    | cons user rest =>
        cases rest with
        | cons record rest =>
            cases rest
            exact blind_callIsOwner user record
  · rename_i notGet notGetOne notIsOwner
    rw [twins.length_eq]
    split
    · cases twins with
      | cons _ rest =>
          cases rest
          exact absurd rfl (notGet _ rfl)
    · cases twins with
      | cons _ rest =>
          cases rest with
          | cons _ rest =>
              cases rest
              exact absurd rfl (notGetOne _ _ rfl)
    · cases twins with
      | cons _ rest =>
          cases rest with
          | cons _ rest =>
              cases rest
              exact absurd rfl (notIsOwner _ _ rfl)
    · exact blind_fail _

/-- Under every link of what can be seen, an expression is evaluated alike. -/
def Blinds (kept : Nat → Option Node) (scope scope' : Scope) (e : Expr) : Prop :=
  ∀ ⦃link : Link⦄, ScopeTwin link scope scope' → Blind kept Twin link (evaluate scope e) (evaluate scope' e)

namespace Blinds

variable {target key value left right : Expr}

theorem logical (op : Connective) (first : Blinds kept scope scope' left) (second : Blinds kept scope scope' right) :
    Blinds kept scope scope' (.logical op left right) := by
  intro link scopes
  cases op with
  | and =>
      simp only [evaluate]
      refine (first scopes).bind fun mid _ _ grown twin => ?_
      rw [truthySlot_eq twin]
      split
      · exact second (scopes.mono grown)
      · exact agree_pure twin
  | or =>
      simp only [evaluate]
      refine (first scopes).bind fun mid _ _ grown twin => ?_
      rw [truthySlot_eq twin]
      split
      · exact agree_pure twin
      · exact second (scopes.mono grown)

theorem assignMember (name : String) (inner : Blinds kept scope scope' target)
    (second : Blinds kept scope scope' value) : Blinds kept scope scope' (.assignMember target name value) := by
  intro link scopes
  simp only [evaluate]
  refine (inner scopes).bind fun mid _ _ grown container => ?_
  refine (blind_requireObject name container).bind fun mid' _ _ grown' _ => ?_
  have container := container.mono grown'
  have scopes := (scopes.mono grown).mono grown'
  exact (second scopes).bind fun _ _ _ grown'' written =>
    blind_writeProperty name (container.mono grown'') written

theorem assignIndex (inner : Blinds kept scope scope' target) (between : Blinds kept scope scope' key)
    (second : Blinds kept scope scope' value) : Blinds kept scope scope' (.assignIndex target key value) := by
  intro link scopes
  simp only [evaluate]
  refine (inner scopes).bind fun mid _ _ grown container => ?_
  have scopes := scopes.mono grown
  refine (between scopes).bind fun mid' _ _ grown' named => ?_
  have container := container.mono grown'
  have scopes := scopes.mono grown'
  refine (blind_slotName named).bind_equal fun mid'' name grown'' => ?_
  have container := container.mono grown''
  have scopes := scopes.mono grown''
  have named := named.mono grown''
  refine (blind_requireObject name container).bind fun last _ _ more _ => ?_
  have container := container.mono more
  have scopes := scopes.mono more
  have named := named.mono more
  refine (second scopes).bind fun last' _ _ more' written => ?_
  refine (blind_slotName (named.mono more')).bind_equal fun last'' name more'' => ?_
  exact blind_writeProperty name ((container.mono more').mono more'') (written.mono more'')

end Blinds

mutual

/-- An expression is evaluated alike on heaps that mirror each other. -/
theorem blind_evaluate {link : Link} (scopes : ScopeTwin link scope scope') (e : Expr) :
    Blind kept Twin link (evaluate scope e) (evaluate scope' e) := by
  cases e with
  | literal v =>
      simp only [evaluate]
      exact agree_pure (.plain v)
  | name var =>
      simp only [evaluate]
      generalize found : scope.variable? var = one, found' : scope'.variable? var = other
      cases scopes.found found found' with
      | none => exact blind_fail _
      | some twin => exact agree_pure twin
  | member target name =>
      simp only [evaluate]
      exact (blind_evaluate scopes target).bind fun _ _ _ _ twin =>
        blind_readProperty twin (.plain _)
  | index target key =>
      simp only [evaluate]
      refine (blind_evaluate scopes target).bind fun mid container container' grown twin => ?_
      exact (blind_evaluate (scopes.mono grown) key).bind fun _ _ _ grown' named =>
        blind_readProperty (twin.mono grown') named
  | call function args =>
      simp only [evaluate]
      split
      · exact (blind_evaluateAll scopes args).bind fun _ _ _ grown twins =>
          blind_callFunction (scopes.mono grown) function twins
      · exact blind_fail _
  | not operand =>
      simp only [evaluate]
      refine (blind_evaluate scopes operand).bind fun _ _ _ _ twin => ?_
      rw [truthySlot_eq twin]
      exact agree_pure (.plain _)
  | compare op left right =>
      simp only [evaluate]
      refine (blind_evaluate scopes left).bind fun mid _ _ grown one => ?_
      refine (blind_evaluate (scopes.mono grown) right).bind fun last _ _ grown' other => ?_
      refine (blind_compareSlots op (one.mono grown') other).bind_equal fun _ _ _ => ?_
      exact agree_pure (.plain _)
  | logical op left right =>
      exact Blinds.logical op (fun _ scopes => blind_evaluate scopes left)
        (fun _ scopes => blind_evaluate scopes right) scopes
  | assignMember target name value =>
      exact Blinds.assignMember name (fun _ scopes => blind_evaluate scopes target)
        (fun _ scopes => blind_evaluate scopes value) scopes
  | assignIndex target key value =>
      exact Blinds.assignIndex (fun _ scopes => blind_evaluate scopes target)
        (fun _ scopes => blind_evaluate scopes key) (fun _ scopes => blind_evaluate scopes value) scopes
termination_by sizeOf e

theorem blind_evaluateAll {link : Link} (scopes : ScopeTwin link scope scope') (es : List Expr) :
    Blind kept (fun link => List.Forall₂ (Twin link)) link (evaluateAll scope es)
      (evaluateAll scope' es) := by
  cases es with
  | nil =>
      simp only [evaluateAll]
      exact agree_pure .nil
  | cons e rest =>
      simp only [evaluateAll]
      refine (blind_evaluate scopes e).bind fun mid _ _ grown twin => ?_
      refine (blind_evaluateAll (scopes.mono grown) rest).bind fun last _ _ grown' twins => ?_
      exact agree_pure (.cons (twin.mono grown') twins)
termination_by sizeOf es

end

theorem blind_evaluateSource (scopes : ScopeTwin link scope scope') (source : String) :
    Blind kept Twin link (evaluateSource scope source) (evaluateSource scope' source) := by
  unfold evaluateSource
  split
  · exact blind_evaluate scopes _
  · exact blind_fail _

end GuardedStore.Expression
