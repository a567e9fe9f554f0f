import SqlScript.Parsing.Parser

/-!
Chains of infix operators. Operands that are joined by one operator after another become the
children of a single production, as long as the operators make the same production and bind equally;
a weaker operator takes the whole chain as its first operand.
-/

namespace SqlScript

structure InfixOperator (ρ : Type) where
  rule : ρ
  strength : Nat
  deriving DecidableEq

namespace Parser

variable {ρ : Type} [DecidableEq ρ]

omit [DecidableEq ρ] in
def closeChain (chain? : Option (InfixOperator ρ)) : Parser ρ Unit := do
  if chain?.isSome then
    finish

/--
Take operators that bind at least as strongly as `least`, with their right operands. What was built
since the checkpoint is the first operand. All operators group to the left, so a right operand takes
only operators that bind more strongly than the one in front of it.
-/
def infixChain (checkpoint least : Nat) (operator? : Lookahead → Option (InfixOperator ρ))
    (sign : Parser ρ Unit) (operand : Nat → Parser ρ Unit) : Parser ρ Unit := do
  closeChain (← iterate link none)
where
  link (chain? : Option (InfixOperator ρ)) : Parser ρ (Option (Option (InfixOperator ρ))) := do
    match ← sees operator? with
    | none => return none
    | some operator =>
      if operator.strength < least then
        return none
      else
        if chain? ≠ some operator then
          closeChain chain?
          startAt checkpoint operator.rule
        sign
        operand (operator.strength + 1)
        return some (some operator)

end Parser

end SqlScript
