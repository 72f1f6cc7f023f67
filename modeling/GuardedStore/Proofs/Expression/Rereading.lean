import GuardedStore.Expression.Parser
import GuardedStore.Proofs.Expression.Lexing

/-! # Reading written rules

A written rule is read as the expression that it was written for. An operand ends where its tokens end and
waits for postfixes; an expression of a level ends where its tokens end and waits for the operators of that
level. Parentheses turn any expression into an operand.

Each token costs six rounds of the reader at most.
-/

namespace GuardedStore.Expression

namespace Begins

variable {token : Token} {tokens others : List Token} {stream rest : Tokens}

theorem of_cons (h : Begins (token :: tokens) stream rest) :
    ∃ spelling offset next, stream = .more (token.respelled spelling) offset next ∧
      Begins tokens next rest := by
  cases h with
  | cons spelling offset others => exact ⟨spelling, offset, _, rfl, others⟩

theorem of_append (h : Begins (tokens ++ others) stream rest) :
    ∃ next, Begins tokens stream next ∧ Begins others next rest := by
  induction tokens generalizing stream with
  | nil => exact ⟨stream, .nil, h⟩
  | cons token tokens ih =>
      cases h with
      | cons spelling offset behind =>
          obtain ⟨next, first, second⟩ := ih behind
          exact ⟨next, .cons spelling offset first, second⟩

theorem of_nil (h : Begins [] stream rest) : stream = rest := by
  cases h
  rfl

theorem count (h : Begins tokens stream rest) : stream.count = tokens.length + rest.count := by
  induction h with
  | nil => simp
  | cons _ _ _ ih =>
      rw [Tokens.count, ih, List.length_cons]
      omega

end Begins

/-- Whether what follows an operand has no operators of a level in front. -/
def Tokens.stops (level : Level) : Tokens → Bool
  | .more (.comparison _) _ _ => decide (Level.operand.rank ≤ level.rank)
  | .more (.connective op _) _ _ => decide (op.level.rank < level.rank)
  | .more .assign _ _ => decide (0 < level.rank)
  | _ => true

theorem Tokens.stops_mono {level tighter : Level} {rest : Tokens} (h : rest.stops level = true)
    (le : level.rank ≤ tighter.rank) : rest.stops tighter = true := by
  unfold stops at h ⊢
  split <;> simp_all <;> omega

theorem readOperators_stops {level : Level} {rest : Tokens} (h : rest.stops level = true) (fuel : Nat)
    (e : Expr) : readOperators (fuel + 1) level e rest = .ok (e, rest) := by
  rw [readOperators.eq_def]
  unfold Tokens.stops at h
  split at h <;> simp_all

theorem readPostfixes_ends {rest : Tokens} (h : rest.followOperand = true) (fuel : Nat) (e : Expr) :
    readPostfixes (fuel + 1) e rest = .ok (e, rest) := by
  cases rest with
  | done => rfl
  | stuck => cases h
  | more token => cases token <;> first | rfl | cases h

theorem followPostfix_of_followOperand {rest : Tokens} (h : rest.followOperand = true) :
    rest.followPostfix = true := by
  unfold Tokens.followPostfix
  split <;> simp_all

/-- The level at which expressions are read that are made with an operator. -/
def Tier.level : Tier → Level
  | .assignment => .assignment
  | .disjunction => .disjunction
  | .conjunction => .conjunction
  | .negation | .comparison => .negation
  | .operand => .operand

/-- The level at which the last operand of an operator is read. -/
def Tier.last : Tier → Level
  | .assignment => .assignment
  | .disjunction => .conjunction
  | .conjunction | .negation | .comparison => .negation
  | .operand => .operand

theorem Tier.level_le_last (tier : Tier) : tier.level.rank ≤ tier.last.rank := by
  cases tier <;> decide

/-- The tokens are read as an operand, to which the postfixes behind them go. -/
def ReadsOperand (e : Expr) (tokens : List Token) : Prop :=
  ∀ (fuel : Nat) (stream rest : Tokens), Begins tokens stream rest → rest.followPostfix = true →
    6 * tokens.length < fuel →
    ∃ left, fuel ≤ left + 6 * tokens.length ∧
      readOperand fuel stream = readPostfixes left e rest

/-- The tokens are read as the left operand of what operators of a level stand behind them, except those
of the level `last`. -/
def ReadsLeft (e : Expr) (tokens : List Token) (level last : Level) : Prop :=
  ∀ (fuel : Nat) (stream rest : Tokens), Begins tokens stream rest → rest.followOperand = true →
    rest.stops last = true → 6 * tokens.length + 1 < fuel →
    ∃ left, fuel ≤ left + 6 * tokens.length + 1 ∧
      readExpr fuel level stream = readOperators left level e rest

/-- The tokens are read as an expression of a level. -/
def ReadsWhole (e : Expr) (tokens : List Token) (level : Level) : Prop :=
  ∀ (fuel : Nat) (stream rest : Tokens), Begins tokens stream rest → rest.followOperand = true →
    rest.stops level = true → 6 * tokens.length + 1 < fuel →
    readExpr fuel level stream = .ok (e, rest)

variable {e : Expr} {tokens : List Token} {level last : Level}

theorem ReadsOperand.ends (h : ReadsOperand e tokens) {fuel : Nat} {stream rest : Tokens}
    (begins : Begins tokens stream rest) (follow : rest.followOperand = true)
    (enough : 6 * tokens.length < fuel) : readOperand fuel stream = .ok (e, rest) := by
  obtain ⟨left, cost, read⟩ := h _ _ _ begins (followPostfix_of_followOperand follow) enough
  obtain ⟨left, rfl⟩ : ∃ n, left = n + 1 := Nat.exists_eq_add_one.mpr (by omega)
  rw [read, readPostfixes_ends follow]

theorem ReadsOperand.left (h : ReadsOperand e tokens) : ReadsLeft e tokens level last := by
  intro fuel stream rest begins follow _ enough
  obtain ⟨fuel, rfl⟩ : ∃ n, fuel = n + 1 := Nat.exists_eq_add_one.mpr (by omega)
  refine ⟨fuel, by omega, ?_⟩
  rw [readExpr, h.ends begins follow (by omega)]
  rfl

theorem ReadsLeft.mono (h : ReadsLeft e tokens level last) {looser : Level}
    (le : looser.rank ≤ last.rank) : ReadsLeft e tokens level looser :=
  fun fuel stream rest begins follow stops => h fuel stream rest begins follow (Tokens.stops_mono stops le)

theorem ReadsLeft.whole (h : ReadsLeft e tokens level last) (le : level.rank ≤ last.rank) :
    ReadsWhole e tokens level := by
  intro fuel stream rest begins follow stops enough
  obtain ⟨left, cost, read⟩ := h _ _ _ begins follow (Tokens.stops_mono stops le) enough
  obtain ⟨left, rfl⟩ : ∃ n, left = n + 1 := Nat.exists_eq_add_one.mpr (by omega)
  rw [read, readOperators_stops stops]

theorem ReadsOperand.whole (h : ReadsOperand e tokens) : ReadsWhole e tokens level := by
  have read : ReadsLeft e tokens level .operand := h.left
  exact read.whole (by cases level <;> decide)

theorem ReadsWhole.grouped (h : ReadsWhole e tokens .assignment) :
    ReadsOperand e (.openGroup :: (tokens ++ [.closeGroup])) := by
  intro fuel stream rest begins follow enough
  obtain ⟨_, _, inside, rfl, body⟩ := begins.of_cons
  obtain ⟨behind, body, closes⟩ := body.of_append
  obtain ⟨_, _, _, rfl, ends⟩ := closes.of_cons
  cases ends.of_nil
  simp only [List.length_cons, List.length_append, List.length_nil] at enough ⊢
  obtain ⟨fuel, rfl⟩ : ∃ n, fuel = n + 1 := Nat.exists_eq_add_one.mpr (by omega)
  refine ⟨fuel, by omega, ?_⟩
  simp only [Token.respelled, readOperand]
  rw [h fuel _ _ body rfl rfl (by omega)]
  rfl

theorem readsOperand_literal (value : Literal) : ReadsOperand (.literal value) [value.token] := by
  intro fuel stream rest begins follow enough
  obtain ⟨_, _, _, rfl, ends⟩ := begins.of_cons
  cases ends.of_nil
  obtain ⟨fuel, rfl⟩ : ∃ n, fuel = n + 1 := Nat.exists_eq_add_one.mpr (by omega)
  refine ⟨fuel, by simp, ?_⟩
  cases value with
  | bool b => cases b <;> rfl
  | null | int | float | str => rfl

theorem readsOperand_name (var : String) : ReadsOperand (.name var) [.name var] := by
  intro fuel stream rest begins follow enough
  obtain ⟨_, _, _, rfl, ends⟩ := begins.of_cons
  cases ends.of_nil
  obtain ⟨fuel, rfl⟩ : ∃ n, fuel = n + 1 := Nat.exists_eq_add_one.mpr (by omega)
  exact ⟨fuel, by simp, rfl⟩

theorem ReadsOperand.member (h : ReadsOperand e tokens) (field : String) :
    ReadsOperand (.member e field) (tokens ++ [.dot, .name field]) := by
  intro fuel stream rest begins follow enough
  obtain ⟨behind, target, dot⟩ := begins.of_append
  obtain ⟨_, _, _, rfl, name⟩ := dot.of_cons
  obtain ⟨_, _, _, rfl, ends⟩ := name.of_cons
  cases ends.of_nil
  simp only [List.length_cons, List.length_append, List.length_nil] at enough ⊢
  obtain ⟨left, cost, read⟩ := h fuel _ _ target rfl (by omega)
  obtain ⟨left, rfl⟩ : ∃ n, left = n + 1 := Nat.exists_eq_add_one.mpr (by omega)
  exact ⟨left, by omega, read⟩

variable {key : Expr} {keyTokens : List Token}

theorem ReadsOperand.index (h : ReadsOperand e tokens) (hk : ReadsWhole key keyTokens .assignment) :
    ReadsOperand (.index e key) (tokens ++ .openIndex :: (keyTokens ++ [.closeIndex])) := by
  intro fuel stream rest begins follow enough
  obtain ⟨behind, target, opens⟩ := begins.of_append
  obtain ⟨_, _, _, rfl, index⟩ := opens.of_cons
  obtain ⟨behind, inside, closes⟩ := index.of_append
  obtain ⟨_, _, _, rfl, ends⟩ := closes.of_cons
  cases ends.of_nil
  simp only [List.length_cons, List.length_append, List.length_nil] at enough ⊢
  obtain ⟨left, cost, read⟩ := h fuel _ _ target rfl (by omega)
  obtain ⟨left, rfl⟩ : ∃ n, left = n + 1 := Nat.exists_eq_add_one.mpr (by omega)
  refine ⟨left, by omega, ?_⟩
  simp only [read, Token.respelled, readPostfixes]
  rw [hk left _ _ inside rfl rfl (by omega)]
  rfl

/-- The tokens are read as arguments, one at least, up to a closing parenthesis. -/
def ReadsArguments (args : List Expr) (tokens : List Token) : Prop :=
  ∀ (fuel : Nat) (stream rest : Tokens), Begins (tokens ++ [.closeGroup]) stream rest →
    6 * tokens.length + 2 < fuel → readArgumentList fuel stream = .ok (args, rest)

theorem ReadsWhole.onlyArgument (h : ReadsWhole e tokens .assignment) : ReadsArguments [e] tokens := by
  intro fuel stream rest begins enough
  obtain ⟨behind, first, closes⟩ := begins.of_append
  obtain ⟨_, _, _, rfl, ends⟩ := closes.of_cons
  cases ends.of_nil
  obtain ⟨fuel, rfl⟩ : ∃ n, fuel = n + 1 := Nat.exists_eq_add_one.mpr (by omega)
  rw [readArgumentList, h fuel _ _ first rfl rfl (by omega)]
  rfl

theorem ReadsWhole.argument (h : ReadsWhole e tokens .assignment) {args : List Expr}
    {others : List Token} (hs : ReadsArguments args others) :
    ReadsArguments (e :: args) (tokens ++ .comma :: others) := by
  intro fuel stream rest begins enough
  rw [List.append_assoc] at begins
  obtain ⟨behind, first, comma⟩ := begins.of_append
  obtain ⟨_, _, _, rfl, later⟩ := comma.of_cons
  simp only [List.length_cons, List.length_append] at enough
  obtain ⟨fuel, rfl⟩ : ∃ n, fuel = n + 1 := Nat.exists_eq_add_one.mpr (by omega)
  rw [readArgumentList, h fuel _ _ first rfl rfl (by omega)]
  simp only [Token.respelled, bind, Except.bind]
  rw [hs fuel _ _ later (by omega)]
  rfl

theorem readArguments_of_list {fuel : Nat} {stream rest : Tokens} {args : List Expr}
    (h : readArgumentList fuel stream = .ok (args, rest)) :
    readArguments (fuel + 1) stream = .ok (args, rest) := by
  rw [readArguments.eq_def]
  split
  · rename_i zero
    cases zero
  · rename_i later
    cases later
    split
    · -- No argument starts with a closing parenthesis.
      rcases fuel with _ | _ | _ | fuel <;> cases h
    · exact h

theorem readsOperand_call {args : List Expr} (inside : List Token)
    (h : ∀ (fuel : Nat) (stream rest : Tokens), Begins (inside ++ [.closeGroup]) stream rest →
      6 * inside.length + 3 < fuel → readArguments fuel stream = .ok (args, rest)) (function : String) :
    ReadsOperand (.call function args)
      (.name function :: .openGroup :: (inside ++ [.closeGroup])) := by
  intro fuel stream rest begins follow enough
  obtain ⟨_, _, _, rfl, group⟩ := begins.of_cons
  obtain ⟨_, _, list, rfl, closed⟩ := group.of_cons
  simp only [List.length_cons, List.length_append, List.length_nil] at enough ⊢
  obtain ⟨fuel, rfl⟩ : ∃ n, fuel = n + 2 := ⟨fuel - 2, by omega⟩
  refine ⟨fuel, by omega, ?_⟩
  simp only [Token.respelled, readOperand, readPostfixes]
  rw [h fuel _ _ closed (by omega)]
  simp [bind, Except.bind, follow]

theorem ReadsArguments.call {args : List Expr} (h : ReadsArguments args tokens) (function : String) :
    ReadsOperand (.call function args)
      (.name function :: .openGroup :: (tokens ++ [.closeGroup])) := by
  refine readsOperand_call tokens (fun fuel stream rest begins enough => ?_) function
  obtain ⟨fuel, rfl⟩ : ∃ n, fuel = n + 1 := Nat.exists_eq_add_one.mpr (by omega)
  exact readArguments_of_list (h fuel _ _ begins (by omega))

theorem readsOperand_call_nothing (function : String) :
    ReadsOperand (.call function []) [.name function, .openGroup, .closeGroup] := by
  refine readsOperand_call [] (fun fuel stream rest begins enough => ?_) function
  obtain ⟨_, _, _, rfl, ends⟩ := begins.of_cons
  cases ends.of_nil
  obtain ⟨fuel, rfl⟩ : ∃ n, fuel = n + 1 := Nat.exists_eq_add_one.mpr (by omega)
  rfl

end GuardedStore.Expression
