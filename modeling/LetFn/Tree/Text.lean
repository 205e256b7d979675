import LetFn.Tree

namespace LetFn

/-- `parts` in order, with `separator` between neighbours. -/
def separatedBy (separator : String) : List String → String
  | [] => ""
  | [part] => part
  | part :: next :: more => part ++ separator ++ separatedBy separator (next :: more)

mutual

/-- The text of an expression, in which parentheses show every grouping by an operator. -/
def Expr.text : Expr → String
  | .identifier id => id.name
  | .boolean token _ => token.literal
  | .integer token _ => token.literal
  | .unary _ operator right => "(" ++ operator ++ right.text ++ ")"
  | .binary _ operator left right => "(" ++ left.text ++ " " ++ operator ++ " " ++ right.text ++ ")"
  | .conditional _ condition consequence alternative =>
    "if " ++ condition.text ++ " " ++ consequence.text ++ elseText alternative
  | .function token parameters body =>
    token.literal ++ "(" ++ separatedBy ", " (parameters.map Identifier.name) ++ ") " ++ body.text
  | .call _ callee arguments => callee.text ++ "(" ++ separatedBy ", " (exprTexts arguments) ++ ")"

/-- The text of a statement. One that is an expression has no semicolon. -/
def Stmt.text : Stmt → String
  | .binding token name value => token.literal ++ " " ++ name.name ++ " = " ++ value.text ++ ";"
  | .result token value => token.literal ++ " " ++ value.text ++ ";"
  | .expression _ value => value.text
  | .block body => body.text

/-- The text of a block, on one line. -/
def Block.text : Block → String
  | .mk _ statements => "\x7b " ++ spacedTexts statements ++ "\x7d"

/-- The texts of arguments. -/
def exprTexts : List Expr → List String
  | [] => []
  | first :: others => first.text :: exprTexts others

/-- The texts of statements, a space after each. -/
def spacedTexts : List Stmt → String
  | [] => ""
  | first :: others => first.text ++ " " ++ spacedTexts others

/-- The text of an alternative, if there is one. -/
def elseText : Option Block → String
  | none => ""
  | some alternative => " else " ++ alternative.text

end

/-- The text of a program, a statement a line. -/
def Program.text (program : Program) : String :=
  separatedBy "\n" (program.statements.map Stmt.text)

end LetFn
