import GuardedStore.Expression.Expr

/-! # What stands in an expression

Whether anything is assigned in an expression, and which values are written in it.
-/

namespace GuardedStore.Expression.Expr

mutual

/-- Whether an assignment stands anywhere in an expression. -/
def assigns : Expr → Bool
  | .literal _ | .name _ => false
  | .member target _ => target.assigns
  | .index target key => target.assigns || key.assigns
  | .call _ args => someAssigns args
  | .not operand => operand.assigns
  | .compare _ left right | .logical _ left right => left.assigns || right.assigns
  | .assignMember _ _ _ | .assignIndex _ _ _ => true

def someAssigns : List Expr → Bool
  | [] => false
  | e :: es => e.assigns || someAssigns es

end

mutual

/-- The values that are written in an expression. -/
def literals : Expr → List Literal
  | .literal value => [value]
  | .name _ => []
  | .member target _ => target.literals
  | .index target key => target.literals ++ key.literals
  | .call _ args => literalsOfAll args
  | .not operand => operand.literals
  | .compare _ left right | .logical _ left right => left.literals ++ right.literals
  | .assignMember target _ value => target.literals ++ value.literals
  | .assignIndex target key value => target.literals ++ key.literals ++ value.literals

def literalsOfAll : List Expr → List Literal
  | [] => []
  | e :: es => e.literals ++ literalsOfAll es

end

end GuardedStore.Expression.Expr
