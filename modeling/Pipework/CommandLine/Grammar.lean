import Pipework.CommandLine.Value

/-!
Grammars of command lines: which commands there are, and which options and operands each takes.

Words are read from left to right. An option may stand anywhere among the operands of its
command; two hyphens alone end the options. The value of an option stands in the next word, or
in the same one, perhaps behind an equals sign. Every option may be given once.
-/

namespace Pipework.CommandLine

/-! ## Rules -/

/-- What an option does. -/
inductive OptionRole where
  | value (kind : ValueKind)
  | switch
  | help
  | version
  deriving DecidableEq, Repr, Inhabited

/-- An option with its long name and perhaps a letter. -/
structure OptionRule where
  name : String
  letter? : Option Char
  role : OptionRole
  required : Bool
  deriving DecidableEq, Repr, Inhabited

/-- An operand. Operands that are required stand in front of all others. -/
structure OperandRule where
  name : String
  kind : ValueKind
  required : Bool
  deriving DecidableEq, Repr, Inhabited

/-- What has been given to a command: options with their values, and operands. -/
structure Arguments where
  options : List (String × String)
  operands : List String
  deriving DecidableEq, Repr, Inhabited

namespace Arguments

/-- The value of an option. -/
def option? (arguments : Arguments) (name : String) : Option String :=
  arguments.options.lookup name

/-- Whether an option was given. -/
def has (arguments : Arguments) (name : String) : Bool := (arguments.option? name).isSome

/-- The operand with a number. -/
def operand? (arguments : Arguments) (index : Nat) : Option String := arguments.operands[index]?

end Arguments

/-- The grammar of a command, or of a group of commands. -/
inductive Grammar (α : Type) where
  /-- A command, and what its arguments say. -/
  | command (options : List OptionRule) (operands : List OperandRule)
      (meaning : Arguments → Option α)
  | group (options : List OptionRule) (commands : List (String × Grammar α))

/-- What comes of reading a command line. -/
inductive Outcome (α : Type) where
  /-- The options of the groups on the way, and what the command line says. -/
  | understood (options : List (String × String)) (meaning : α)
  | help
  | version
  | misuse
  deriving Repr, Inhabited

namespace Grammar

variable {α : Type}

/-- The option by which every command and every group explains itself. -/
def helpRule : OptionRule := ⟨"help", some 'h', .help, false⟩

/-- The options of a command or a group. -/
def options : Grammar α → List OptionRule
  | command options _ _ => options ++ [helpRule]
  | group options _ => options ++ [helpRule]

/-- The operands of a command. -/
def operands : Grammar α → List OperandRule
  | command _ operands _ => operands
  | group .. => []

/-- The commands of a group. -/
def commands : Grammar α → List (String × Grammar α)
  | command .. => []
  | group _ commands => commands

/-- Whether there are commands to choose from. -/
def isGroup : Grammar α → Bool
  | command .. => false
  | group .. => true

/-- The word that asks for an explanation, in the place of a command. -/
def helpWord : String := "help"

/-- Whether words name something that can be explained. -/
def explains : Grammar α → List String → Bool
  | _, [] => true
  | grammar, word :: rest =>
      if grammar.isGroup && word = helpWord then rest.isEmpty
      else
        match grammar.commands.lookup word with
        | some inner => inner.explains rest
        | none => false

end Grammar

/-! ## Progress -/

/-- What has been read of the arguments of a command. -/
structure Progress where
  given : Arguments
  /-- The option whose value was read last. It is looked at only when something of the same
  command follows, or its end; a command of a group comes before that. -/
  unsettled? : Option (OptionRule × String)
  deriving DecidableEq, Repr, Inhabited

namespace Progress

/-- Nothing has been read. -/
def start : Progress := ⟨⟨[], []⟩, none⟩

/-- Takes the value of an option, which must not have one, if it is of the right kind. -/
def take? (given : Arguments) (rule : OptionRule) (value : String) : Option Arguments :=
  let fits :=
    match rule.role with
    | .value kind => kind.accepts value
    | _ => true
  if fits && !given.has rule.name then
    some { given with options := given.options ++ [(rule.name, value)] }
  else none

/-- What has been given, when the last option has been looked at. -/
def settle? (progress : Progress) : Option Arguments :=
  match progress.unsettled? with
  | none => some progress.given
  | some (rule, value) => take? progress.given rule value

/-- The progress when an option with its value is looked at once. -/
def withOption? (progress : Progress) (rule : OptionRule) (value : String) : Option Progress := do
  let given ← take? (← progress.settle?) rule value
  return ⟨given, none⟩

/-- The progress with an operand. -/
def withOperand? (progress : Progress) (rules : List OperandRule) (word : String) :
    Option Progress := do
  let given ← progress.settle?
  let rule ← rules[given.operands.length]?
  if rule.kind.accepts word then
    return ⟨{ given with operands := given.operands ++ [word] }, none⟩
  else none

end Progress

/-- What the next word is. -/
inductive Stage where
  | free
  /-- The value of an option. -/
  | value (rule : OptionRule) (kind : ValueKind)
  /-- An operand, because the options have ended. -/
  | operand
  deriving DecidableEq, Repr, Inhabited

/-- What comes of reading a word. -/
inductive Step where
  | next (stage : Stage) (progress : Progress)
  | help
  | version
  | misuse
  deriving DecidableEq, Repr, Inhabited

namespace Step

/-- Goes on freely, unless something was wrong. -/
def ofProgress? : Option Progress → Step
  | some progress => next .free progress
  | none => misuse

/-- Stops for a message, unless the last option was wrong. -/
def message (progress : Progress) (step : Step) : Step :=
  match progress.settle? with
  | some _ => step
  | none => misuse

/-- Waits for the value of an option, unless the last option was wrong. -/
def await (progress : Progress) (rule : OptionRule) (kind : ValueKind) : Step :=
  match progress.settle? with
  | some given => next (.value rule kind) ⟨given, none⟩
  | none => misuse

/-- Reads an option that has been named, with the value in the same word if there is one. -/
def named (progress : Progress) (rule : OptionRule) (attached? : Option String) : Step :=
  match rule.role, attached? with
  | .value _, some value => ofProgress? (progress.withOption? rule value)
  | .value kind, none => await progress rule kind
  | _, some _ => misuse
  | .switch, none => ofProgress? (progress.withOption? rule "")
  | .help, none => message progress help
  | .version, none => message progress version

end Step

/-! ## Words -/

/-- What a word looks like while options may stand. -/
inductive WordShape where
  /-- The two hyphens that end the options. -/
  | separator
  | long (name : String) (attached? : Option String)
  | letters (letters : List Char)
  | plain
  deriving DecidableEq, Repr, Inhabited

namespace WordShape

/-- The name of a long option and its value. -/
def ofLong (text : List Char) : WordShape :=
  match text.dropWhile (· ≠ '=') with
  | [] => long (String.ofList text) none
  | _ :: value => long (String.ofList (text.takeWhile (· ≠ '='))) (some (String.ofList value))

/-- What a word looks like. A hyphen alone is nothing special. -/
def ofWord (word : String) : WordShape :=
  match word.toList with
  | ['-', '-'] => separator
  | '-' :: '-' :: text => ofLong text
  | '-' :: letter :: more => letters (letter :: more)
  | _ => plain

end WordShape

/-- The value that follows a letter in its word. -/
def attachedValue? : List Char → Option String
  | [] => none
  | '=' :: value => some (String.ofList value)
  | value => some (String.ofList value)

/-- Reads the letters of a word. Only the last option in it can have a value. -/
def readLetters (rules : List OptionRule) : Progress → List Char → Step
  | progress, [] => .next .free progress
  | progress, letter :: rest =>
      match rules.find? fun rule => rule.letter? = some letter with
      | none => .misuse
      | some rule =>
          match rule.role with
          | .value _ => Step.named progress rule (attachedValue? rest)
          | .switch =>
              match progress.withOption? rule "" with
              | some next => readLetters rules next rest
              | none => .misuse
          | _ => Step.named progress rule none

/-- Reads a word of a command while options may stand. Where the next operand may start with a
hyphen, letters are such an operand. -/
def readFree (options : List OptionRule) (operands : List OperandRule) (progress : Progress)
    (word : String) : Step :=
  let nextOperand? := operands[progress.given.operands.length]?
  match WordShape.ofWord word with
  | .separator => .next .operand progress
  | .long name attached? =>
      match options.find? fun rule => rule.name = name with
      | some rule => Step.named progress rule attached?
      | none => .misuse
  | .letters letters =>
      if nextOperand?.any fun rule => rule.kind.allowsHyphen then
        Step.ofProgress? (progress.withOperand? operands word)
      else readLetters options progress letters
  | .plain => Step.ofProgress? (progress.withOperand? operands word)

/-- Reads the value of an option. -/
def readValue (progress : Progress) (rule : OptionRule) (kind : ValueKind) (word : String) : Step :=
  if kind.allowsHyphen || WordShape.ofWord word = .plain then
    .next .free { progress with unsettled? := some (rule, word) }
  else .misuse

/-- Reads an operand behind the end of the options. -/
def readOperand (operands : List OperandRule) (progress : Progress) (word : String) : Step :=
  match progress.withOperand? operands word with
  | some next => .next .operand next
  | none => .misuse

namespace Grammar

variable {α : Type}

/-- Reads a word that names no command. -/
def readWord (grammar : Grammar α) (stage : Stage) (progress : Progress) (word : String) : Step :=
  match stage with
  | .free => readFree grammar.options grammar.operands progress word
  | .value rule kind => readValue progress rule kind word
  | .operand => readOperand grammar.operands progress word

/-- Whether all that a command requires is given. -/
def isComplete (grammar : Grammar α) (given : Arguments) : Bool :=
  grammar.options.all (fun rule => !rule.required || given.has rule.name) &&
    (grammar.operands.drop given.operands.length).all fun rule => !rule.required

/-- What the arguments of a command say. -/
def finish (grammar : Grammar α) (stage : Stage) (progress : Progress) : Outcome α :=
  match stage, progress.settle?, grammar with
  | .value .., _, _ => .misuse
  | _, some given, command options operands meaning =>
      if (command options operands meaning).isComplete given then
        match meaning given with
        | some found => .understood [] found
        | none => .misuse
      else .misuse
  | _, _, _ => .misuse

/-- What a group makes of what one of its commands says. -/
def enclose (progress : Progress) : Outcome α → Outcome α
  | .understood inner meaning =>
      match progress.settle? with
      | some given => .understood (given.options ++ inner) meaning
      | none => .misuse
  | outcome => outcome

/-- The command that a word names while options may stand. -/
def named? (grammar : Grammar α) (stage : Stage) (word : String) : Option (Grammar α) :=
  if stage = .free then grammar.commands.lookup word else none

/-- Whether a word asks for an explanation of the words behind it. -/
def asksHelp (grammar : Grammar α) (stage : Stage) (word : String) : Bool :=
  grammar.isGroup && stage = .free && word = helpWord

/-- Reads words. -/
def readFrom (grammar : Grammar α) (stage : Stage) (progress : Progress) :
    List String → Outcome α
  | [] => grammar.finish stage progress
  | word :: rest =>
      match grammar.named? stage word with
      | some inner => enclose progress (inner.readFrom .free .start rest)
      | none =>
          if grammar.asksHelp stage word then
            if grammar.explains rest then .help else .misuse
          else
            match grammar.readWord stage progress word with
            | .next stage progress => grammar.readFrom stage progress rest
            | .help => .help
            | .version => .version
            | .misuse => .misuse

/-- Reads a command line. -/
def read (grammar : Grammar α) (words : List String) : Outcome α :=
  grammar.readFrom .free .start words

end Grammar

end Pipework.CommandLine
