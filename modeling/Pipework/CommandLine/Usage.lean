import Pipework.CommandLine.Command

/-!
How the program explains itself.
-/

namespace Pipework.CommandLine

/-- How an option is shown. -/
def OptionRule.usage (rule : OptionRule) : String :=
  let value :=
    match rule.role with
    | .value _ => " <" ++ rule.name ++ ">"
    | _ => ""
  let text := "--" ++ rule.name ++ value
  if rule.required then text else "[" ++ text ++ "]"

/-- How an operand is shown. -/
def OperandRule.usage (rule : OperandRule) : String :=
  if rule.required then "<" ++ rule.name ++ ">" else "[" ++ rule.name ++ "]"

mutual

/-- One line for every command, behind the words that lead to it. -/
def Grammar.usage {α : Type} (words : List String) : Grammar α → List String
  | .command options operands _ =>
      [String.intercalate " "
        (words ++ operands.map OperandRule.usage ++ options.map OptionRule.usage)]
  | .group options commands =>
      usageOfCommands (words ++ options.map OptionRule.usage) commands

/-- The lines of several commands. -/
def usageOfCommands {α : Type} (words : List String) : List (String × Grammar α) → List String
  | [] => []
  | (name, grammar) :: rest => grammar.usage (words ++ [name]) ++ usageOfCommands words rest

end

/-- What the program says when it is asked for help. -/
def usageText : String :=
  "Usage:\n" ++ String.join ((grammar.usage ["chanweave"]).map fun line => "  " ++ line ++ "\n")

/-- What the program says when a command line cannot be understood. -/
def misuseText : String := "error: the command line cannot be understood\n\n" ++ usageText

end Pipework.CommandLine
