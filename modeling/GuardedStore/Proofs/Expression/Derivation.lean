import GuardedStore.Expression.Parser
import GuardedStore.Proofs.Run

/-! # Derivations of rules

The grammar of rules, with a constructor for each of its productions; how tightly the operators bind is left to
the readers. Every expression that is read has a derivation, so that what the productions keep holds of every
rule. The readers call each other with less and less fuel, so the induction is on the fuel, for all of them at
once.
-/

namespace GuardedStore.Expression

/-- What tokens can stand for: an expression, the arguments of a call with the parenthesis that closes them, or
such arguments of which there is one at least. -/
inductive Phrase where
  | expression (e : Expr)
  | arguments (args : List Expr)
  | argumentList (args : List Expr)

/-- The tokens can be read as a phrase, up to the rest of them. -/
inductive Derives : Tokens → Phrase → Tokens → Prop
  | number {value : Literal} {offset : Nat} {rest : Tokens} :
      Derives (.more (.number value) offset rest) (.expression (.literal value)) rest
  | text {s : String} {offset : Nat} {rest : Tokens} :
      Derives (.more (.text s) offset rest) (.expression (.literal (.str s))) rest
  | constant {c : Constant} {offset : Nat} {rest : Tokens} :
      Derives (.more (.constant c) offset rest) (.expression (.literal c.literal)) rest
  | name {var : String} {offset : Nat} {rest : Tokens} :
      Derives (.more (.name var) offset rest) (.expression (.name var)) rest
  | group {inner : Expr} {opens closes : Nat} {tokens rest : Tokens}
      (inside : Derives tokens (.expression inner) (.more .closeGroup closes rest)) :
      Derives (.more .openGroup opens tokens) (.expression inner) rest
  | member {target : Expr} {field : String} {dot offset : Nat} {tokens rest : Tokens}
      (before : Derives tokens (.expression target) (.more .dot dot (.more (.name field) offset rest))) :
      Derives tokens (.expression (.member target field)) rest
  | index {target key : Expr} {opens closes : Nat} {tokens behind rest : Tokens}
      (before : Derives tokens (.expression target) (.more .openIndex opens behind))
      (inside : Derives behind (.expression key) (.more .closeIndex closes rest)) :
      Derives tokens (.expression (.index target key)) rest
  | call {function : String} {args : List Expr} {opens : Nat} {tokens behind rest : Tokens}
      (before : Derives tokens (.expression (.name function)) (.more .openGroup opens behind))
      (inside : Derives behind (.arguments args) rest) :
      Derives tokens (.expression (.call function args)) rest
  | not {operand : Expr} {form : Spelling} {offset : Nat} {tokens rest : Tokens}
      (after : Derives tokens (.expression operand) rest) :
      Derives (.more (.negation form) offset tokens) (.expression (.not operand)) rest
  | compare {op : Comparison} {left right : Expr} {offset : Nat} {tokens behind rest : Tokens}
      (before : Derives tokens (.expression left) (.more (.comparison op) offset behind))
      (after : Derives behind (.expression right) rest) :
      Derives tokens (.expression (.compare op left right)) rest
  | logical {op : Connective} {form : Spelling} {left right : Expr} {offset : Nat} {tokens behind rest : Tokens}
      (before : Derives tokens (.expression left) (.more (.connective op form) offset behind))
      (after : Derives behind (.expression right) rest) :
      Derives tokens (.expression (.logical op left right)) rest
  | assign {place value assignment : Expr} {offset : Nat} {tokens behind rest : Tokens}
      (before : Derives tokens (.expression place) (.more .assign offset behind))
      (after : Derives behind (.expression value) rest) (assigned : place.assign? value = some assignment) :
      Derives tokens (.expression assignment) rest
  | noArguments {closes : Nat} {rest : Tokens} : Derives (.more .closeGroup closes rest) (.arguments []) rest
  | someArguments {args : List Expr} {tokens rest : Tokens} (listed : Derives tokens (.argumentList args) rest) :
      Derives tokens (.arguments args) rest
  | lastArgument {arg : Expr} {closes : Nat} {tokens rest : Tokens}
      (read : Derives tokens (.expression arg) (.more .closeGroup closes rest)) :
      Derives tokens (.argumentList [arg]) rest
  | nextArgument {arg : Expr} {args : List Expr} {comma : Nat} {tokens behind rest : Tokens}
      (read : Derives tokens (.expression arg) (.more .comma comma behind))
      (listed : Derives behind (.argumentList args) rest) :
      Derives tokens (.argumentList (arg :: args)) rest

/-- What the readers give with some fuel has a derivation. An operand that is read on has one from where it
starts. -/
structure ReadsDerived (fuel : Nat) : Prop where
  expr : ∀ {level tokens e rest}, readExpr fuel level tokens = .ok (e, rest) →
    Derives tokens (.expression e) rest
  operand : ∀ {tokens e rest}, readOperand fuel tokens = .ok (e, rest) →
    Derives tokens (.expression e) rest
  postfixes : ∀ {start target tokens e rest}, readPostfixes fuel target tokens = .ok (e, rest) →
    Derives start (.expression target) tokens → Derives start (.expression e) rest
  arguments : ∀ {tokens args rest}, readArguments fuel tokens = .ok (args, rest) →
    Derives tokens (.arguments args) rest
  argumentList : ∀ {tokens args rest}, readArgumentList fuel tokens = .ok (args, rest) →
    Derives tokens (.argumentList args) rest
  operators : ∀ {level start left tokens e rest}, readOperators fuel level left tokens = .ok (e, rest) →
    Derives start (.expression left) tokens → Derives start (.expression e) rest

theorem readsDerived_zero : ReadsDerived 0 where
  expr read := by rw [readExpr] at read; cases read
  operand read := by rw [readOperand] at read; cases read
  postfixes read := by rw [readPostfixes] at read; cases read
  arguments read := by rw [readArguments] at read; cases read
  argumentList read := by rw [readArgumentList] at read; cases read
  operators read := by rw [readOperators] at read; cases read

theorem refuse_ne_ok {α : Type} {tokens : Tokens} {a : α} : tokens.refuse ≠ .ok a := nofun

variable {fuel : Nat}

theorem ReadsDerived.expr_succ (h : ReadsDerived fuel) {level : Level} {tokens rest : Tokens} {e : Expr}
    (read : readExpr (fuel + 1) level tokens = .ok (e, rest)) : Derives tokens (.expression e) rest := by
  rw [readExpr] at read
  obtain ⟨⟨left, behind⟩, operand, operators⟩ := except_bind_ok_iff.mp read
  exact h.operators operators (h.operand operand)

theorem ReadsDerived.operand_succ (h : ReadsDerived fuel) {tokens rest : Tokens} {e : Expr}
    (read : readOperand (fuel + 1) tokens = .ok (e, rest)) : Derives tokens (.expression e) rest := by
  rw [readOperand.eq_def] at read
  split at read
  · cases read
  · rename_i same
    cases same
    split at read
    · obtain ⟨⟨operand, behind⟩, negated, ends⟩ := except_bind_ok_iff.mp read
      cases ends
      exact .not (h.expr negated)
    · exact h.postfixes read .number
    · exact h.postfixes read .text
    · exact h.postfixes read .constant
    · exact h.postfixes read .name
    · obtain ⟨⟨inner, behind⟩, grouped, closed⟩ := except_bind_ok_iff.mp read
      dsimp only at closed
      split at closed
      · exact h.postfixes closed (.group (h.expr grouped))
      · exact absurd closed refuse_ne_ok
    · exact absurd read refuse_ne_ok

theorem ReadsDerived.postfixes_succ (h : ReadsDerived fuel) {target e : Expr} {start tokens rest : Tokens}
    (read : readPostfixes (fuel + 1) target tokens = .ok (e, rest))
    (before : Derives start (.expression target) tokens) : Derives start (.expression e) rest := by
  rw [readPostfixes.eq_def] at read
  split at read
  · cases read
  · rename_i same
    cases same
    split at read
    · split at read
      · exact h.postfixes read (.member before)
      · exact absurd read refuse_ne_ok
    · obtain ⟨⟨key, behind⟩, indexed, closed⟩ := except_bind_ok_iff.mp read
      dsimp only at closed
      split at closed
      · exact h.postfixes closed (.index before (h.expr indexed))
      · exact absurd closed refuse_ne_ok
    · obtain ⟨⟨args, behind⟩, listed, called⟩ := except_bind_ok_iff.mp read
      dsimp only at called
      split at called
      · exact absurd called refuse_ne_ok
      · split at called
        · exact h.postfixes called (.call before (h.arguments listed))
        · cases called
    · split at read
      · cases read
        exact before
      · exact absurd read refuse_ne_ok

theorem ReadsDerived.arguments_succ (h : ReadsDerived fuel) {tokens rest : Tokens} {args : List Expr}
    (read : readArguments (fuel + 1) tokens = .ok (args, rest)) : Derives tokens (.arguments args) rest := by
  rw [readArguments.eq_def] at read
  split at read
  · cases read
  · rename_i same
    cases same
    split at read
    · cases read
      exact .noArguments
    · exact .someArguments (h.argumentList read)

theorem ReadsDerived.argumentList_succ (h : ReadsDerived fuel) {tokens rest : Tokens} {args : List Expr}
    (read : readArgumentList (fuel + 1) tokens = .ok (args, rest)) : Derives tokens (.argumentList args) rest := by
  rw [readArgumentList] at read
  obtain ⟨⟨arg, behind⟩, first, others⟩ := except_bind_ok_iff.mp read
  dsimp only at others
  split at others
  · cases others
    exact .lastArgument (h.expr first)
  · obtain ⟨⟨later, behind⟩, listed, ends⟩ := except_bind_ok_iff.mp others
    cases ends
    exact .nextArgument (h.expr first) (h.argumentList listed)
  · exact absurd others refuse_ne_ok

theorem ReadsDerived.operators_succ (h : ReadsDerived fuel) {level : Level} {left e : Expr}
    {start tokens rest : Tokens} (read : readOperators (fuel + 1) level left tokens = .ok (e, rest))
    (before : Derives start (.expression left) tokens) : Derives start (.expression e) rest := by
  rw [readOperators.eq_def] at read
  split at read
  · cases read
  · rename_i same
    cases same
    split at read
    · split at read
      · cases read
        exact before
      · obtain ⟨⟨right, behind⟩, compared, later⟩ := except_bind_ok_iff.mp read
        dsimp only at later
        split at later
        · exact absurd later refuse_ne_ok
        · exact h.operators later (.compare before (h.expr compared))
    · split at read
      · cases read
        exact before
      · obtain ⟨⟨right, behind⟩, joined, later⟩ := except_bind_ok_iff.mp read
        exact h.operators later (.logical before (h.expr joined))
    · split at read
      · cases read
        exact before
      · obtain ⟨⟨right, behind⟩, value, ends⟩ := except_bind_ok_iff.mp read
        dsimp only at ends
        split at ends
        · rename_i assigned
          cases ends
          exact .assign before (h.expr value) assigned
        · cases ends
    · cases read
      exact before

theorem readsDerived (fuel : Nat) : ReadsDerived fuel := by
  induction fuel with
  | zero => exact readsDerived_zero
  | succ fuel ih =>
      exact {
        expr := ih.expr_succ
        operand := ih.operand_succ
        postfixes := ih.postfixes_succ
        arguments := ih.arguments_succ
        argumentList := ih.argumentList_succ
        operators := ih.operators_succ }

/-- A rule that can be read has a derivation from all tokens of its source. -/
theorem derives_of_compile {source : String} {e : Expr} (compiled : compile source = .ok e) :
    Derives (Tokens.ofSource source) (.expression e) .done := by
  obtain ⟨⟨expr, behind⟩, read, ends⟩ := except_bind_ok_iff.mp compiled
  dsimp only at ends
  split at ends
  · cases ends
    exact (readsDerived _).expr read
  · exact absurd ends refuse_ne_ok

end GuardedStore.Expression
