import GuardedStore.Proofs.Expression.Derivation

/-! # Where rules assign

Wherever an assignment stands in a rule that is read, it goes to a property of a chain that starts from one of
the variables whose fields may be set. Every production of the grammar keeps this.
-/

namespace GuardedStore.Expression

namespace Expr

mutual

/-- Whether all assignments in an expression go to properties of assignable variables. -/
def targetsAssignable : Expr → Bool
  | .literal _ | .name _ => true
  | .member target _ => target.targetsAssignable
  | .index target key => target.targetsAssignable && key.targetsAssignable
  | .call _ args => allTargetAssignable args
  | .not operand => operand.targetsAssignable
  | .compare _ left right | .logical _ left right => left.targetsAssignable && right.targetsAssignable
  | .assignMember target _ value =>
    target.isAssignableRoot && target.targetsAssignable && value.targetsAssignable
  | .assignIndex target key value =>
    target.isAssignableRoot && target.targetsAssignable && key.targetsAssignable && value.targetsAssignable

def allTargetAssignable : List Expr → Bool
  | [] => true
  | e :: es => e.targetsAssignable && allTargetAssignable es

end

theorem targetsAssignable_of_assign? {place value assignment : Expr}
    (assigned : place.assign? value = some assignment)
    (left : place.targetsAssignable = true) (right : value.targetsAssignable = true) :
    assignment.targetsAssignable = true := by
  cases place with
  | member target field =>
      simp only [assign?, Option.ite_none_right_eq_some, Option.some.injEq] at assigned
      obtain ⟨isRoot, rfl⟩ := assigned
      simp_all [targetsAssignable]
  | index target key =>
      simp only [assign?, Option.ite_none_right_eq_some, Option.some.injEq] at assigned
      obtain ⟨isRoot, rfl⟩ := assigned
      simp_all [targetsAssignable]
  | _ => cases assigned

end Expr

/-- Whether all assignments in a phrase go to properties of assignable variables. -/
def Phrase.targetsAssignable : Phrase → Bool
  | .expression e => e.targetsAssignable
  | .arguments args | .argumentList args => Expr.allTargetAssignable args

theorem Derives.targetsAssignable {tokens rest : Tokens} {phrase : Phrase}
    (h : Derives tokens phrase rest) : phrase.targetsAssignable = true := by
  induction h with
  | number | text | constant | name | noArguments => rfl
  | group _ ih | not _ ih | member _ ih | someArguments _ ih => exact ih
  | call _ _ _ ih => exact ih
  | index _ _ left right | compare _ _ left right | logical _ _ left right | nextArgument _ _ left right =>
      exact Bool.and_eq_true_iff.mpr ⟨left, right⟩
  | assign _ _ assigned left right => exact Expr.targetsAssignable_of_assign? assigned left right
  | lastArgument _ ih => exact Bool.and_eq_true_iff.mpr ⟨ih, rfl⟩

/-- A rule that can be read assigns to properties of assignable variables only. -/
theorem targetsAssignable_of_compile {source : String} {e : Expr} (compiled : compile source = .ok e) :
    e.targetsAssignable = true :=
  (derives_of_compile compiled).targetsAssignable

namespace Expr

mutual

/-- The places that are assigned anywhere in an expression. -/
def places : Expr → List Expr
  | .literal _ | .name _ => []
  | .member target _ => target.places
  | .index target key => target.places ++ key.places
  | .call _ args => allPlaces args
  | .not operand => operand.places
  | .compare _ left right | .logical _ left right => left.places ++ right.places
  | .assignMember target field value => .member target field :: (target.places ++ value.places)
  | .assignIndex target key value =>
    .index target key :: (target.places ++ key.places ++ value.places)

def allPlaces : List Expr → List Expr
  | [] => []
  | e :: es => e.places ++ allPlaces es

end

/-- A chain of targets that ends in a variable. -/
inductive ChainFrom (var : String) : Expr → Prop
  | name : ChainFrom var (.name var)
  | member {target : Expr} {field : String} (before : ChainFrom var target) :
      ChainFrom var (.member target field)
  | index {target key : Expr} (before : ChainFrom var target) : ChainFrom var (.index target key)

/-- A member or an index whose chain of targets ends in a variable. -/
inductive PropertyOf (var : String) : Expr → Prop
  | member {target : Expr} {field : String} (before : ChainFrom var target) :
      PropertyOf var (.member target field)
  | index {target key : Expr} (before : ChainFrom var target) : PropertyOf var (.index target key)

theorem chainFrom_of_root? {e : Expr} {var : String} (h : e.root? = some var) : ChainFrom var e := by
  fun_induction root? e with
  | case1 => cases h; exact .name
  | case2 _ _ ih => exact .member (ih h)
  | case3 _ _ ih => exact .index (ih h)
  | case4 => cases h

theorem exists_chainFrom {target : Expr} (h : target.isAssignableRoot = true) :
    ∃ var ∈ assignableRoots, ChainFrom var target := by
  unfold isAssignableRoot at h
  split at h
  · rename_i var root
    exact ⟨var, List.contains_iff_mem.mp h, chainFrom_of_root? root⟩
  · cases h

variable {place value assignment : Expr}

/-- What can be assigned is a property of an assignable variable. -/
theorem exists_propertyOf (assigned : place.assign? value = some assignment) :
    ∃ var ∈ assignableRoots, PropertyOf var place := by
  cases place with
  | member target field =>
      simp only [assign?, Option.ite_none_right_eq_some] at assigned
      obtain ⟨var, listed, chain⟩ := exists_chainFrom assigned.1
      exact ⟨var, listed, .member chain⟩
  | index target key =>
      simp only [assign?, Option.ite_none_right_eq_some] at assigned
      obtain ⟨var, listed, chain⟩ := exists_chainFrom assigned.1
      exact ⟨var, listed, .index chain⟩
  | _ => cases assigned

theorem places_of_assign? (assigned : place.assign? value = some assignment) :
    assignment.places = place :: (place.places ++ value.places) := by
  cases place with
  | member target field =>
      simp only [assign?, Option.ite_none_right_eq_some, Option.some.injEq] at assigned
      obtain ⟨-, rfl⟩ := assigned
      rfl
  | index target key =>
      simp only [assign?, Option.ite_none_right_eq_some, Option.some.injEq] at assigned
      obtain ⟨-, rfl⟩ := assigned
      rfl
  | _ => cases assigned

end Expr

def Phrase.places : Phrase → List Expr
  | .expression e => e.places
  | .arguments args | .argumentList args => Expr.allPlaces args

/-- How many of the tokens are assignment signs. -/
def Tokens.assignSigns : Tokens → Nat
  | .done | .stuck _ _ => 0
  | .more .assign _ rest => rest.assignSigns + 1
  | .more _ _ rest => rest.assignSigns

theorem Derives.places_propertyOf {tokens rest : Tokens} {phrase : Phrase} (h : Derives tokens phrase rest) :
    ∀ place ∈ phrase.places, ∃ var ∈ Expr.assignableRoots, place.PropertyOf var := by
  induction h with
  | number | text | constant | name | noArguments => nofun
  | group _ ih | not _ ih | member _ ih | someArguments _ ih => exact ih
  | call _ _ _ ih => exact ih
  | index _ _ left right | compare _ _ left right | logical _ _ left right | nextArgument _ _ left right =>
      exact List.forall_mem_append.mpr ⟨left, right⟩
  | assign _ _ assigned left right =>
      rw [Phrase.places, Expr.places_of_assign? assigned]
      exact List.forall_mem_cons.mpr
        ⟨Expr.exists_propertyOf assigned, List.forall_mem_append.mpr ⟨left, right⟩⟩
  | lastArgument _ ih => exact List.forall_mem_append.mpr ⟨ih, nofun⟩

theorem Derives.assignSigns {tokens rest : Tokens} {phrase : Phrase} (h : Derives tokens phrase rest) :
    tokens.assignSigns = phrase.places.length + rest.assignSigns := by
  induction h with
  | number | text | constant | name | noArguments => exact (Nat.zero_add _).symm
  | group _ ih | not _ ih | member _ ih | someArguments _ ih => exact ih
  | call _ _ left right => exact left.trans ((Nat.zero_add _).trans right)
  | index _ _ left right | compare _ _ left right | logical _ _ left right | nextArgument _ _ left right =>
      simp only [Phrase.places, Expr.places, Expr.allPlaces, List.length_append, Tokens.assignSigns]
        at left right ⊢
      omega
  | assign _ _ assigned left right =>
      rw [Phrase.places, Expr.places_of_assign? assigned]
      simp only [Phrase.places, List.length_cons, List.length_append, Tokens.assignSigns] at left right ⊢
      omega
  | lastArgument _ ih =>
      rw [Phrase.places, Expr.allPlaces, Expr.allPlaces, List.append_nil]
      exact ih

/-- Wherever a rule that can be read assigns, it assigns to a property of `data` or `newData`; and it has an
assignment for every assignment sign of its source. -/
theorem assigned_places {source : String} {e : Expr} (compiled : compile source = .ok e) :
    (∀ place ∈ e.places, ∃ var, (var = "data" ∨ var = "newData") ∧ place.PropertyOf var) ∧
      e.places.length = (Tokens.ofSource source).assignSigns := by
  have derived := derives_of_compile compiled
  constructor
  · intro place assigned
    obtain ⟨var, listed, property⟩ := derived.places_propertyOf place assigned
    exact ⟨var, by simpa [Expr.assignableRoots] using listed, property⟩
  · exact derived.assignSigns.symm

/-- Assignments in an argument, in a key and behind another one. -/
theorem assigned_places_nested :
    let source := "get(data[newData.c = 'k'].d = data.b = 1)"
    let places : List Expr :=
      [.member (.index (.name "data") (.assignMember (.name "newData") "c" (.literal (.str "k")))) "d",
        .member (.name "newData") "c", .member (.name "data") "b"]
    (compile source).map Expr.places = .ok places ∧
      (∀ place ∈ places, ∃ var, (var = "data" ∨ var = "newData") ∧ place.PropertyOf var) ∧
      places.length = (Tokens.ofSource source).assignSigns := by
  intro source places
  let e : Expr :=
    .call "get" [.assignMember
      (.index (.name "data") (.assignMember (.name "newData") "c" (.literal (.str "k")))) "d"
      (.assignMember (.name "data") "b" (.literal (.int 1)))]
  have compiled : compile source = .ok e := by cbv
  exact ⟨by rw [compiled]; rfl, assigned_places compiled⟩

end GuardedStore.Expression
