import BoundQuery.Condition.Rendering
import BoundQuery.Proofs.Text.Token

/-!
# Grammar of filters

The usual grammar of a filter, where `not` binds tighter than `and` and `and` tighter than `or`,
over the tokens of a text. No text has two readings: a reading is determined
together with the place where it ends. The grammar knows nothing of conditions or their rendering.
-/

set_option autoImplicit false

namespace BoundQuery

def keywords : List String := [Connective.all.word, Connective.any.word, Condition.negationWord]

/-- A filter as it is read. Parentheses are kept, and a row under one connective is nested to the
right. -/
inductive Formula where
  | compare (comparator : Comparator) (column operand : String)
  | parenthesized (inner : Formula)
  | negation (negated : Formula)
  | join (connective : Connective) (left right : Formula)
  /-- The value of a row without members. The grammar has no text for it. -/
  | constant (value : Bool)

inductive Category where
  | expression
  | conjunction
  | factor

/-- The tokens have a reading in a category:
`expression := conjunction ('or' conjunction)*`, `conjunction := factor ('and' factor)*`, and
`factor := 'not' factor | '(' expression ')' | word comparator operand`. -/
inductive Reads : Category → List Token → Formula → Prop where
  | conjunction {tokens : List Token} {formula : Formula} :
      Reads .conjunction tokens formula → Reads .expression tokens formula
  | any {left right : List Token} {first others : Formula} :
      Reads .conjunction left first → Reads .expression right others →
      Reads .expression (left ++ .word Connective.any.word :: right) (.join .any first others)
  | factor {tokens : List Token} {formula : Formula} :
      Reads .factor tokens formula → Reads .conjunction tokens formula
  | all {left right : List Token} {first others : Formula} :
      Reads .factor left first → Reads .conjunction right others →
      Reads .conjunction (left ++ .word Connective.all.word :: right) (.join .all first others)
  | negation {tokens : List Token} {negated : Formula} :
      Reads .factor tokens negated →
      Reads .factor (.word Condition.negationWord :: tokens) (.negation negated)
  | parenthesized {tokens : List Token} {inner : Formula} :
      Reads .expression tokens inner →
      Reads .factor (.opening :: (tokens ++ [.closing])) (.parenthesized inner)
  | compare {comparator : Comparator} {column operand : String} :
      IsWord keywords column → IsWord keywords operand ∨ operand = Term.placeholder →
      Reads .factor [.word column, .word comparator.symbol, .word operand]
        (.compare comparator column operand)

def Category.continuations : Category → List String
  | .expression => [Connective.all.word, Connective.any.word]
  | .conjunction => [Connective.all.word]
  | .factor => []

/-- A reading in a category that came this far has come to its end. -/
def Category.EndsBefore (category : Category) (rest : List Token) : Prop :=
  ∀ word ∈ category.continuations, rest.head? ≠ some (.word word)

private theorem ne_negationWord {text : String} (isWord : IsWord keywords text) :
    text ≠ Condition.negationWord := by
  intro same
  exact isWord.not_reserved (by simp [keywords, same])

namespace Category

private theorem endsBefore_conjunction {rest : List Token} (ends : expression.EndsBefore rest) :
    conjunction.EndsBefore rest := by
  intro word member
  exact ends word (List.mem_cons.mpr (.inl (by simpa [continuations] using member)))

private theorem endsBefore_factor (rest : List Token) : factor.EndsBefore rest := by
  intro word member
  simp [continuations] at member

private theorem endsBefore_any (rest : List Token) :
    conjunction.EndsBefore (.word Connective.any.word :: rest) := by
  simp [EndsBefore, continuations, Connective.word]

private theorem endsBefore_closing (rest : List Token) :
    expression.EndsBefore (.closing :: rest) := by
  simp [EndsBefore]

end Category

namespace Reads

open Category (endsBefore_conjunction endsBefore_factor endsBefore_any endsBefore_closing)

/-- A reading and the rest after it are determined by the tokens, if the rest does not go on with
the reading. Without that a row of members could be left early. -/
theorem unique {category : Category} {left right rest rest' : List Token}
    {formula formula' : Formula} (reading : Reads category left formula)
    (reading' : Reads category right formula') (ends : category.EndsBefore rest)
    (ends' : category.EndsBefore rest') (same : left ++ rest = right ++ rest') :
    formula = formula' ∧ rest = rest' := by
  induction reading generalizing right rest rest' formula' with
  | conjunction _ ih =>
    cases reading' with
    | conjunction reading' =>
      exact ih reading' (endsBefore_conjunction ends) (endsBefore_conjunction ends') same
    -- One reading stops in front of a word with which the other goes on.
    | @any _ right _ _ reading' _ =>
      rw [List.append_assoc] at same
      obtain ⟨-, goesOn⟩ := ih reading' (endsBefore_conjunction ends) (endsBefore_any _) same
      exact absurd (congrArg List.head? goesOn) (ends _ (by simp [Category.continuations]))
  | any _ _ firstIH othersIH =>
    rw [List.append_assoc] at same
    cases reading' with
    | conjunction reading' =>
      obtain ⟨-, goesOn⟩ := firstIH reading' (endsBefore_any _) (endsBefore_conjunction ends') same
      exact absurd (congrArg List.head? goesOn.symm) (ends' _ (by simp [Category.continuations]))
    | any reading' others' =>
      rw [List.append_assoc] at same
      obtain ⟨rfl, tails⟩ := firstIH reading' (endsBefore_any _) (endsBefore_any _) same
      obtain ⟨rfl, rfl⟩ := othersIH others' ends ends' (List.cons.inj tails).2
      exact ⟨rfl, rfl⟩
  | factor _ ih =>
    cases reading' with
    | factor reading' => exact ih reading' (endsBefore_factor _) (endsBefore_factor _) same
    | all reading' _ =>
      rw [List.append_assoc] at same
      obtain ⟨-, goesOn⟩ := ih reading' (endsBefore_factor _) (endsBefore_factor _) same
      exact absurd (congrArg List.head? goesOn) (ends _ (by simp [Category.continuations]))
  | all _ _ firstIH othersIH =>
    rw [List.append_assoc] at same
    cases reading' with
    | factor reading' =>
      obtain ⟨-, goesOn⟩ := firstIH reading' (endsBefore_factor _) (endsBefore_factor _) same
      exact absurd (congrArg List.head? goesOn.symm) (ends' _ (by simp [Category.continuations]))
    | all reading' others' =>
      rw [List.append_assoc] at same
      obtain ⟨rfl, tails⟩ := firstIH reading' (endsBefore_factor _) (endsBefore_factor _) same
      obtain ⟨rfl, rfl⟩ := othersIH others' ends ends' (List.cons.inj tails).2
      exact ⟨rfl, rfl⟩
  | negation _ ih =>
    cases reading' with
    | negation reading' =>
      obtain ⟨rfl, rfl⟩ := ih reading' ends ends' (List.cons.inj same).2
      exact ⟨rfl, rfl⟩
    | parenthesized _ => simp at same
    | compare isWord _ =>
      simp only [List.cons_append, List.cons.injEq, Token.word.injEq] at same
      exact absurd same.1.symm (ne_negationWord isWord)
  | parenthesized _ ih =>
    cases reading' with
    | parenthesized reading' =>
      rw [List.cons_append, List.cons_append, List.append_assoc, List.append_assoc] at same
      have inner := (List.cons.inj same).2
      obtain ⟨rfl, tails⟩ := ih reading' (endsBefore_closing _) (endsBefore_closing _) inner
      exact ⟨rfl, (List.cons.inj tails).2⟩
    | negation _ => simp at same
    | compare _ _ => simp at same
  | compare isWord _ =>
    cases reading' with
    | compare isWord' _ =>
      simp only [List.cons_append, List.nil_append, List.cons.injEq, Token.word.injEq] at same
      obtain ⟨rfl, symbols, rfl, rfl⟩ := same
      obtain rfl := Comparator.symbol_injective symbols
      exact ⟨rfl, rfl⟩
    | negation _ =>
      simp only [List.cons_append, List.cons.injEq, Token.word.injEq] at same
      exact absurd same.1 (ne_negationWord isWord)
    | parenthesized _ => simp at same

/-- A whole text has at most one reading. -/
theorem unique_of_whole {category : Category} {tokens : List Token} {formula formula' : Formula}
    (reading : Reads category tokens formula) (reading' : Reads category tokens formula') :
    formula = formula' := by
  have ends : category.EndsBefore [] := by simp [Category.EndsBefore]
  exact (reading.unique reading' ends ends rfl).1

end Reads

end BoundQuery
