import GuardedStore.Proofs.Expression.Rereading

/-! # Written rules are read back

Whatever an expression is written like, the rule is compiled to the expression. The induction is on the
expression: one with an operator is read at each level that its operator may stand at, and the parentheses
around its operands are those that the levels of the operands ask for.
-/

namespace GuardedStore.Expression

/-- Whether all tokens can be read back. -/
def Legible (tokens : List Token) : Prop :=
  ∀ token ∈ tokens, token.isLegible = true

@[simp] theorem legible_nil : Legible [] := nofun

@[simp] theorem legible_cons {token : Token} {tokens : List Token} :
    Legible (token :: tokens) ↔ token.isLegible = true ∧ Legible tokens :=
  List.forall_mem_cons

@[simp] theorem legible_append {tokens others : List Token} :
    Legible (tokens ++ others) ↔ Legible tokens ∧ Legible others :=
  List.forall_mem_append

theorem legible_beside {operator inner : Tier} {groups : Bool} {tokens : List Token}
    (h : Legible tokens) : Legible (operator.beside groups inner tokens) := by
  unfold Tier.beside
  split
  · simpa [Token.isLegible] using h
  · exact h

theorem legible_literal {value : Literal} (whole : value.isWhole = true) (short : value.isShort = true) :
    value.token.isLegible = true := by
  cases value with
  | bool b => cases b <;> rfl
  | null | str => rfl
  | int n => exact short
  | float => cases whole

mutual

theorem legible_tokens {e : Expr} (h : e.isWritable = true)
    (short : ∀ value ∈ e.literals, value.isShort = true) : Legible e.tokens := by
  cases e with
  | literal => simpa [Expr.tokens] using legible_literal h (short _ List.mem_cons_self)
  | name => simpa [Expr.tokens, Token.isLegible, Expr.isWritable] using h
  | member target field =>
      obtain ⟨ht, hf⟩ := Bool.and_eq_true_iff.mp h
      simpa [Expr.tokens, Token.isLegible, hf] using legible_beside (legible_tokens ht short)
  | index target key =>
      obtain ⟨ht, hk⟩ := Bool.and_eq_true_iff.mp h
      rw [Expr.literals, List.forall_mem_append] at short
      simpa [Expr.tokens, Token.isLegible, legible_tokens hk short.2] using
        legible_beside (legible_tokens ht short.1)
  | call function args =>
      obtain ⟨hf, ha⟩ := Bool.and_eq_true_iff.mp h
      simpa [Expr.tokens, Token.isLegible, hf] using legible_argumentTokens ha short
  | not operand =>
      have h : operand.isWritable = true := h
      simpa [Expr.tokens, Token.isLegible] using legible_beside (legible_tokens h short)
  | compare op left right | logical op left right =>
      obtain ⟨hl, hr⟩ := Bool.and_eq_true_iff.mp h
      rw [Expr.literals, List.forall_mem_append] at short
      simpa [Expr.tokens, Token.isLegible] using
        And.intro (legible_beside (legible_tokens hl short.1)) (legible_beside (legible_tokens hr short.2))
  | assignMember target field value =>
      simp only [Expr.isWritable, Bool.and_eq_true] at h
      obtain ⟨⟨⟨-, ht⟩, hf⟩, hv⟩ := h
      rw [Expr.literals, List.forall_mem_append] at short
      simpa [Expr.tokens, Token.isLegible, hf, legible_tokens hv short.2] using
        legible_beside (legible_tokens ht short.1)
  | assignIndex target key value =>
      simp only [Expr.isWritable, Bool.and_eq_true] at h
      obtain ⟨⟨⟨-, ht⟩, hk⟩, hv⟩ := h
      rw [Expr.literals, List.forall_mem_append, List.forall_mem_append] at short
      simpa [Expr.tokens, Token.isLegible, legible_tokens hk short.1.2, legible_tokens hv short.2] using
        legible_beside (legible_tokens ht short.1.1)
termination_by sizeOf e

theorem legible_argumentTokens {es : List Expr} (h : Expr.areWritable es = true)
    (short : ∀ value ∈ Expr.literalsOfAll es, value.isShort = true) :
    Legible (Expr.argumentTokens es) := by
  match es, h, short with
  | [], _, _ => exact legible_nil
  | [e], h, short =>
      rw [Expr.literalsOfAll, List.forall_mem_append] at short
      exact legible_tokens (Bool.and_eq_true_iff.mp h).1 short.1
  | e :: next :: es, h, short =>
      obtain ⟨first, others⟩ := Bool.and_eq_true_iff.mp h
      rw [Expr.literalsOfAll, List.forall_mem_append] at short
      simpa [Expr.argumentTokens, Token.isLegible, legible_tokens first short.1] using
        legible_argumentTokens others short.2
termination_by sizeOf es

end

/-- An expression is read at every level that its operator may stand at. -/
structure Rereads (e : Expr) : Prop where
  operand : e.tier = .operand → ReadsOperand e e.tokens
  left : e.tier ≠ .assignment → ∀ level, level.rank ≤ e.tier.level.rank →
    ReadsLeft e e.tokens level e.tier.last
  whole : ∀ level, level.rank ≤ e.tier.level.rank → ReadsWhole e e.tokens level

variable {e left right target key value : Expr}

theorem Rereads.rule (h : Rereads e) : ReadsWhole e e.tokens .assignment :=
  h.whole .assignment (Nat.zero_le _)

theorem Rereads.of_operand (h : ReadsOperand e e.tokens) : Rereads e where
  operand _ := h
  left _ _ _ := h.left
  whole _ _ := h.whole

theorem Rereads.of_left (tier : e.tier ≠ .operand)
    (h : ∀ level, level.rank ≤ e.tier.level.rank → ReadsLeft e e.tokens level e.tier.last) :
    Rereads e where
  operand same := absurd same tier
  left _ := h
  whole level le := (h level le).whole (le.trans e.tier.level_le_last)

theorem Rereads.of_rule (tier : e.tier = .assignment) (h : ReadsWhole e e.tokens .assignment) :
    Rereads e where
  operand same := nomatch tier.symm.trans same
  left other := absurd tier other
  whole level le := by
    rw [tier] at le
    cases level with
    | assignment => exact h
    | disjunction | conjunction | negation | operand => cases le

theorem Rereads.operandBeside (h : Rereads e) {operator : Tier} {groups : Bool}
    (only : operator.encloses groups e.tier = false → e.tier = .operand) :
    ReadsOperand e (operator.beside groups e.tier e.tokens) := by
  unfold Tier.beside
  split
  · exact h.rule.grouped
  · rename_i bare
    exact h.operand (only (Bool.eq_false_of_not_eq_true bare))

theorem Rereads.wholeBeside (h : Rereads e) {operator : Tier} {groups : Bool} {level : Level}
    (tight : operator.encloses groups e.tier = false → level.rank ≤ e.tier.level.rank) :
    ReadsWhole e (operator.beside groups e.tier e.tokens) level := by
  unfold Tier.beside
  split
  · exact h.rule.grouped.whole
  · rename_i bare
    exact h.whole level (tight (Bool.eq_false_of_not_eq_true bare))

theorem Rereads.leftBeside (h : Rereads e) (op : Connective) {level : Level}
    (le : level.rank ≤ op.level.rank) :
    ReadsLeft e (op.tier.beside true e.tier e.tokens) level op.rightLevel := by
  unfold Tier.beside
  split
  · exact h.rule.grouped.left
  · rename_i bare
    have levels : e.tier ≠ .assignment ∧ op.level.rank ≤ e.tier.level.rank ∧
        op.rightLevel.rank ≤ e.tier.last.rank := by
      revert bare
      cases op <;> cases e.tier <;> decide
    obtain ⟨tier, loose, last⟩ := levels
    exact (h.left tier level (le.trans loose)).mono last

theorem Tier.operand_of_bare {inner : Tier} (bare : Tier.operand.encloses true inner = false) :
    inner = .operand := by
  revert bare
  cases inner <;> decide

theorem Tier.operand_of_bare_comparison {inner : Tier}
    (bare : Tier.comparison.encloses false inner = false) : inner = .operand := by
  revert bare
  cases inner <;> decide

section Steps

variable {fuel offset : Nat} {level : Level} {stream rest : Tokens}

theorem readOperators_comparison {op : Comparison} (loose : level.rank < Level.operand.rank)
    (later : readExpr fuel .operand stream = .ok (right, rest)) (stops : rest.stops .negation = true) :
    readOperators (fuel + 1) level left (.more (.comparison op) offset stream) =
      readOperators fuel level (.compare op left right) rest := by
  rw [readOperators, if_neg (Nat.not_le.mpr loose), later]
  simp only [bind, Except.bind]
  split
  · cases stops
  · rfl

theorem readOperators_connective {op : Connective} {spelling : Spelling}
    (loose : level.rank ≤ op.level.rank)
    (later : readExpr fuel op.rightLevel stream = .ok (right, rest)) :
    readOperators (fuel + 1) level left (.more (.connective op spelling) offset stream) =
      readOperators fuel level (.logical op left right) rest := by
  rw [readOperators, if_neg (Nat.not_lt.mpr loose), later]
  rfl

theorem readOperators_assign {assignment : Expr} (place : left.assign? value = some assignment)
    (later : readExpr fuel .assignment stream = .ok (value, rest)) :
    readOperators (fuel + 1) .assignment left (.more .assign offset stream) =
      .ok (assignment, rest) := by
  rw [readOperators, if_neg (by decide), later]
  simp [bind, Except.bind, place]
  rfl

end Steps

theorem Rereads.not (h : Rereads e) : Rereads (.not e) := by
  have operand : ReadsWhole e (Tier.negation.beside true e.tier e.tokens) .negation := by
    refine h.wholeBeside fun bare => ?_
    revert bare
    cases e.tier <;> decide
  refine .of_left nofun fun level le => ?_
  intro fuel stream rest begins follow stops enough
  rw [Expr.tokens] at begins enough ⊢
  obtain ⟨_, _, _, rfl, negated⟩ := begins.of_cons
  rw [List.length_cons] at enough ⊢
  obtain ⟨fuel, rfl⟩ : ∃ n, fuel = n + 2 := ⟨fuel - 2, by omega⟩
  refine ⟨fuel + 1, by omega, ?_⟩
  rw [readExpr, Token.respelled, readOperand, operand fuel _ _ negated follow stops (by omega)]
  rfl

theorem Rereads.compare (hl : Rereads left) (hr : Rereads right) (op : Comparison) :
    Rereads (.compare op left right) := by
  have leftmost (level : Level) :
      ReadsLeft left (Tier.comparison.beside false left.tier left.tokens) level .operand :=
    (hl.operandBeside Tier.operand_of_bare_comparison).left
  have rightmost : ReadsWhole right (Tier.comparison.beside false right.tier right.tokens) .operand :=
    (hr.operandBeside Tier.operand_of_bare_comparison).whole
  refine .of_left nofun fun level le => ?_
  intro fuel stream rest begins follow stops enough
  rw [Expr.tokens] at begins enough ⊢
  obtain ⟨_, first, signed⟩ := begins.of_append
  obtain ⟨_, _, _, rfl, second⟩ := signed.of_cons
  rw [List.length_append, List.length_cons] at enough ⊢
  obtain ⟨left', cost, read⟩ := leftmost level fuel _ _ first rfl rfl (by omega)
  obtain ⟨left', rfl⟩ : ∃ n, left' = n + 1 := Nat.exists_eq_add_one.mpr (by omega)
  have stops : rest.stops .negation = true := stops
  have later := rightmost left' _ _ second follow (Tokens.stops_mono stops (by decide)) (by omega)
  have loose : level.rank < Level.operand.rank := Nat.lt_succ_of_le le
  refine ⟨left', by omega, ?_⟩
  rw [read, Token.respelled]
  · exact readOperators_comparison loose later stops
  · intro _ same
    cases same
  · intro _ _ same
    cases same

theorem Rereads.logical (hl : Rereads left) (hr : Rereads right) (op : Connective) :
    Rereads (.logical op left right) := by
  have leftmost (level : Level) (le : level.rank ≤ op.level.rank) :
      ReadsLeft left (op.tier.beside true left.tier left.tokens) level op.rightLevel :=
    hl.leftBeside op le
  have rightmost : ReadsWhole right (op.tier.beside false right.tier right.tokens) op.rightLevel := by
    refine hr.wholeBeside fun bare => ?_
    revert bare
    cases op <;> cases right.tier <;> decide
  refine .of_left (by cases op <;> nofun) fun level le => ?_
  have le : level.rank ≤ op.level.rank := by
    cases op <;> exact le
  intro fuel stream rest begins follow stops enough
  have stops : rest.stops op.rightLevel = true := by
    cases op <;> exact stops
  rw [Expr.tokens] at begins enough ⊢
  obtain ⟨_, first, signed⟩ := begins.of_append
  obtain ⟨spelling, _, _, rfl, second⟩ := signed.of_cons
  rw [List.length_append, List.length_cons] at enough ⊢
  have reaches : op.level.rank < op.rightLevel.rank := by cases op <;> decide
  obtain ⟨left', cost, read⟩ :=
    leftmost level le fuel _ _ first rfl (decide_eq_true reaches) (by omega)
  obtain ⟨left', rfl⟩ : ∃ n, left' = n + 1 := Nat.exists_eq_add_one.mpr (by omega)
  have later := rightmost left' _ _ second follow stops (by omega)
  refine ⟨left', by omega, ?_⟩
  rw [read, Token.respelled, readOperators_connective le later]

theorem ReadsOperand.assigned {place assignment : Expr} {tokens others : List Token}
    (h : ReadsOperand place tokens) (hv : ReadsWhole value others .assignment)
    (set : place.assign? value = some assignment) :
    ReadsWhole assignment (tokens ++ .assign :: others) .assignment := by
  intro fuel stream rest begins follow stops enough
  obtain ⟨_, first, signed⟩ := begins.of_append
  obtain ⟨_, _, _, rfl, second⟩ := signed.of_cons
  rw [List.length_append, List.length_cons] at enough
  have leftmost : ReadsLeft place tokens .assignment .operand := h.left
  obtain ⟨left', cost, read⟩ := leftmost fuel _ _ first rfl rfl (by omega)
  obtain ⟨left', rfl⟩ : ∃ n, left' = n + 1 := Nat.exists_eq_add_one.mpr (by omega)
  have later := hv left' _ _ second follow stops (by omega)
  rw [read]
  exact readOperators_assign set later

theorem Rereads.place (h : Rereads target) :
    ReadsOperand target (Tier.operand.beside true target.tier target.tokens) :=
  h.operandBeside Tier.operand_of_bare

theorem Rereads.assignMember (ht : Rereads target) (hv : Rereads value) (field : String)
    (root : target.isAssignableRoot = true) : Rereads (.assignMember target field value) := by
  have set : (target.member field).assign? value = some (.assignMember target field value) :=
    if_pos root
  refine .of_rule rfl ?_
  simpa [Expr.tokens] using (ht.place.member field).assigned hv.rule set

theorem Rereads.assignIndex (ht : Rereads target) (hk : Rereads key) (hv : Rereads value)
    (root : target.isAssignableRoot = true) : Rereads (.assignIndex target key value) := by
  have set : (target.index key).assign? value = some (.assignIndex target key value) := if_pos root
  refine .of_rule rfl ?_
  simpa [Expr.tokens] using (ht.place.index hk.rule).assigned hv.rule set

mutual

theorem rereads {e : Expr} (h : e.isWritable = true) : Rereads e := by
  cases e with
  | literal value => exact .of_operand (readsOperand_literal value)
  | name var => exact .of_operand (readsOperand_name var)
  | member target field =>
      obtain ⟨ht, -⟩ := Bool.and_eq_true_iff.mp h
      exact .of_operand ((rereads ht).place.member field)
  | index target key =>
      obtain ⟨ht, hk⟩ := Bool.and_eq_true_iff.mp h
      exact .of_operand ((rereads ht).place.index (rereads hk).rule)
  | call function args =>
      obtain ⟨-, ha⟩ := Bool.and_eq_true_iff.mp h
      cases args with
      | nil => exact .of_operand (readsOperand_call_nothing function)
      | cons => exact .of_operand ((readsArguments ha).call function)
  | not operand =>
      have h : operand.isWritable = true := h
      exact (rereads h).not
  | compare op left right =>
      obtain ⟨hl, hr⟩ := Bool.and_eq_true_iff.mp h
      exact (rereads hl).compare (rereads hr) op
  | logical op left right =>
      obtain ⟨hl, hr⟩ := Bool.and_eq_true_iff.mp h
      exact (rereads hl).logical (rereads hr) op
  | assignMember target field value =>
      simp only [Expr.isWritable, Bool.and_eq_true] at h
      obtain ⟨⟨⟨root, ht⟩, -⟩, hv⟩ := h
      exact (rereads ht).assignMember (rereads hv) field root
  | assignIndex target key value =>
      simp only [Expr.isWritable, Bool.and_eq_true] at h
      obtain ⟨⟨⟨root, ht⟩, hk⟩, hv⟩ := h
      exact (rereads ht).assignIndex (rereads hk) (rereads hv) root
termination_by sizeOf e

theorem readsArguments {e : Expr} {es : List Expr} (h : Expr.areWritable (e :: es) = true) :
    ReadsArguments (e :: es) (Expr.argumentTokens (e :: es)) := by
  obtain ⟨first, others⟩ := Bool.and_eq_true_iff.mp h
  cases es with
  | nil => exact (rereads first).rule.onlyArgument
  | cons => exact (rereads first).rule.argument (readsArguments others)
termination_by sizeOf (e :: es)

end

/-- A written rule is compiled to the expression that it was written for, whoever writes it, if no integer
in it has too many digits. -/
theorem compile_print {e : Expr} (h : e.isWritable = true)
    (short : ∀ value ∈ e.literals, value.isShort = true) (hands : Nat → Hand) :
    compile (e.print hands) = .ok e := by
  have begins : Begins e.tokens (Tokens.ofSource (e.print hands)) .done := by
    rw [Tokens.ofSource, Expr.print, String.toList_ofList]
    exact begins_writtenAll hands (legible_tokens h short) 0
  have count := begins.count
  rw [compile, (rereads h).rule _ _ _ begins rfl rfl (by omega)]
  rfl

/-- Operators of all tiers and a text with quotes, a backslash and a line break, in signs and in words. -/
theorem compile_print_grouped :
    let e : Expr := .assignIndex (.name "data") (.literal (.str "it's \"\\n\"\n"))
      (.logical .and (.logical .or (.name "user") (.not (.name "x")))
        (.compare .loose (.literal (.int (-12))) (.not (.call "get" []))))
    let hands : Nat → Hand := fun i =>
      if i % 2 = 0 then ⟨.sign, .single, ⟨[' '], by simp, by simp⟩⟩
      else ⟨.word, .double, ⟨['\t', '\n'], by simp, by simp⟩⟩
    e.isWritable = true ∧ (∀ value ∈ e.literals, value.isShort = true) ∧ compile (e.print hands) = .ok e :=
  ⟨by decide, by decide +kernel, compile_print (by decide) (by decide +kernel) _⟩

theorem compile_print_long {n : Int} (long : ¬(Literal.int n).isShort = true) (hands : Nat → Hand) :
    compile ((Expr.literal (.int n)).print hands) =
      .error (.tooManyDigits (Nat.toDigits 10 n.natAbs).length) := by
  have count : Token.countDigits (toString n).toList = (Nat.toDigits 10 n.natAbs).length :=
    countDigits_int n
  have stuck : Tokens.ofSource ((Expr.literal (.int n)).print hands) = .stuck 0 (toString n).toList := by
    have unread := read?_long long apart_nil
    obtain ⟨c, cs, text, starts⟩ := startsInt_toString n
    rw [List.append_nil, text] at unread
    rw [Tokens.ofSource, Expr.print, String.toList_ofList]
    change Tokens.ofChars 0 (toString n).toList = _
    rw [text, Tokens.ofChars, if_neg (by rw [starts.unskipped]; decide), unread]
  have tooMany := Nat.lt_of_not_le (isShort_iff.not.mp long)
  rw [compile, stuck]
  simp only [Tokens.count, readExpr, readOperand, Tokens.refuse, Tokens.unexpected, count, if_pos tooMany]
  rfl

/-- The least integer with too many digits. -/
def longLiteral : Expr :=
  .literal (.int (10 ^ Numeral.digitLimit))

theorem longLiteral_not_compiled :
    let hands : Nat → Hand := fun _ => ⟨.sign, .single, ⟨[' '], by simp, by simp⟩⟩
    longLiteral.isWritable = true ∧ compile (longLiteral.print hands) ≠ .ok longLiteral := by
  refine ⟨rfl, ?_⟩
  have long : ¬(Literal.int (10 ^ Numeral.digitLimit)).isShort = true := by decide +kernel
  rw [longLiteral, compile_print_long long]
  exact nofun

end GuardedStore.Expression
