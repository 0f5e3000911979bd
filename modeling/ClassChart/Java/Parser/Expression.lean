import ClassChart.Java.Parser.TypeUse

/-!
Expressions, as far as it takes to see where one ends: operands and operators
alternate, and what stands in brackets is passed over.
-/
namespace ClassChart.Java.Parser

/-- A symbol that follows the previous token directly. -/
def adjacent (text : String) : Parser Unit := do
  let _ ← satisfying fun t => t.kind = .symbol && t.text = text && t.gap.isEmpty

/-- The symbols of a binary operator, or of one half of a conditional. -/
def binaryOperator : Parser Unit := do
  let t ← satisfying fun t => t.kind = .symbol
  let assign := attempt (adjacent "=")
  let again := attempt (adjacent t.text)
  if ["+", "-", "*", "/", "%", "^", "="].contains t.text then
    let _ ← assign
  else if t.text = "!" then adjacent "="
  else if ["&", "|", "<"].contains t.text then
    let _ ← again
    let _ ← assign
  else if t.text = ">" then
    let _ ← again
    let _ ← again
    let _ ← assign
  else if ["?", ":"].contains t.text then return ()
  else failure

def optionalBody : Parser Unit := do
  let _ ← attempt braces

/-- What follows `new`: a class with arguments, or an array with its sizes. -/
def creation : Parser Unit := do
  annotations
  let type := plainType
  if !(← accepts (wordThat primitives.contains)) then classType type
  if ← accepts parentheses then optionalBody
  else
    let sizes ← many do
      annotations
      group "["
    if sizes.isEmpty then failure
    optionalBody

/-- Whether pieces in parentheses can be the type of a cast. -/
def isCast (inner : List Piece) : Bool :=
  let types : Parser Unit := do
    annotatedType
    let _ ← many do
      symbol "&"
      annotatedType
  (complete types inner).isSome

/-- Whether an operand begins here, so that a type in parentheses before it is a
cast. -/
def operandAhead : Parser Bool := do
  ahead do
    match ← next with
    | .group t _ _ => if t.text = "(" then return () else failure
    | .token t =>
        if t.kind = .symbol then
          if t.text = "!" || t.text = "~" then return () else failure
        else if t.kind = .word && t.text = "instanceof" then failure
        else return ()

mutual

/-- An operand with the operators and operands after it. -/
def operand : Nat → Parser Unit
  | 0 => failure
  | fuel + 1 => do
      match ← next with
      | .group t inner _ =>
          if t.text = "(" then
            if ← accepts (symbol "->") then lambdaBody fuel
            else if isCast inner && (← operandAhead) then operand fuel
            else continuation fuel
          else failure
      | .token t =>
          match t.kind with
          | .symbol =>
              if ["+", "-", "!", "~"].contains t.text then operand fuel else failure
          | .word =>
              if t.text = "new" then
                creation
                continuation fuel
              else if t.text = "switch" then
                let _ ← parentheses
                let _ ← braces
                continuation fuel
              else if ← accepts (symbol "->") then lambdaBody fuel
              else continuation fuel
          | _ => continuation fuel

def lambdaBody : Nat → Parser Unit
  | 0 => failure
  | fuel + 1 => do
      if ← accepts braces then return ()
      else operand fuel

/-- What may follow an operand: selections, calls, tests of type, operators. -/
def continuation : Nat → Parser Unit
  | 0 => failure
  | fuel + 1 => do
      if ← accepts (symbol ".") then
        let _ ← attempt (typeArguments plainType)
        if ← accepts (keyword "new") then creation
        else
          let _ ← word
        continuation fuel
      else if ← accepts (symbol "::") then
        let _ ← attempt (typeArguments plainType)
        let _ ← word
        continuation fuel
      else if ← accepts parentheses then continuation fuel
      else if ← accepts (group "[") then continuation fuel
      else if ← accepts (symbol "+" *> adjacent "+") then continuation fuel
      else if ← accepts (symbol "-" *> adjacent "-") then continuation fuel
      else if ← accepts (typeArguments plainType) then continuation fuel
      else if ← accepts (keyword "instanceof") then
        let _ ← attempt (keyword "final")
        annotatedType
        let _ ← attempt parentheses
        let _ ← attempt (wordThat (· != "instanceof"))
        continuation fuel
      else if ← accepts binaryOperator then operand fuel
      else return ()

end

def expression : Parser Unit := do
  operand (2 * (← get).length + 2)

/-- The value of a variable: the elements of an array, or an expression. -/
def initialiser : Parser Unit := do
  if ← accepts braces then return ()
  else expression

/-- A variable with its dimensions and its value. -/
def declarator : Parser Declarator := do
  let name ← word
  let dims ← source dimensions
  if ← accepts (symbol "=") then initialiser
  return ⟨name, dims⟩

end ClassChart.Java.Parser
