import CodeSmells.Path

/-!
# Command lines

A command line names a command and gives it options and operands.  It is first
split into tokens by the conventions for options, then the tokens are checked
one by one.  The first token that is wrong, or that asks for help or for the
version, decides.
-/

namespace CodeSmells

/-- The formats of a report. -/
inductive OutputFormat where
  | text
  | json
deriving DecidableEq, Repr

def OutputFormat.name : OutputFormat → String
  | text => "text"
  | json => "json"

def OutputFormat.ofName? (name : String) : Option OutputFormat :=
  [text, json].find? fun format => format.name == name

/-- What an analysis is asked to do. -/
structure AnalyzeRequest where
  path : Path
  format : Option OutputFormat
  /-- The smell types to look for; none means all. -/
  smellTypes : List String
  config : Option Path
  quiet : Bool
  noColor : Bool
deriving DecidableEq, Repr

inductive CommandName where
  | analyze
  | list
  | init
deriving DecidableEq, Repr

def CommandName.word : CommandName → String
  | analyze => "analyze"
  | list => "list"
  | init => "init"

def CommandName.ofWord? (word : String) : Option CommandName :=
  [analyze, list, init].find? fun name => name.word == word

/-- What help is about. -/
inductive HelpTopic where
  | program
  | command (name : CommandName)
  /-- The word that asks for help. -/
  | helpWord
deriving DecidableEq, Repr

/-- What a command line asks for. -/
inductive Request where
  | analyze (request : AnalyzeRequest)
  | list
  | init (path : Path) (force : Bool)
  | help (topic : HelpTopic)
  | version
deriving DecidableEq, Repr

inductive OptionName where
  | format
  | smellTypes
  | config
  | quiet
  | noColor
  | force
  | help
deriving DecidableEq, Repr

namespace OptionName

/-- The long form. -/
def long : OptionName → String
  | format => "format"
  | smellTypes => "smell-types"
  | config => "config"
  | quiet => "quiet"
  | noColor => "no-color"
  | force => "force"
  | help => "help"

/-- The letter of the short form. -/
def letter? : OptionName → Option Char
  | format => some 'f'
  | smellTypes => some 's'
  | config => some 'c'
  | quiet => some 'q'
  | help => some 'h'
  | _ => none

def takesValue : OptionName → Bool
  | format => true
  | smellTypes => true
  | config => true
  | _ => false

end OptionName

def CommandName.options : CommandName → List OptionName
  | analyze => [.format, .smellTypes, .config, .quiet, .noColor, .help]
  | list => [.help]
  | init => [.force, .help]

/-- A piece of a command line. -/
inductive ArgumentToken where
  | flag (name : OptionName)
  | value (name : OptionName) (value : String)
  | operand (value : String)
  | wrong
deriving DecidableEq, Repr

namespace ArgumentToken

/-- Whether an argument is an option or ends the options, so that it is no value. -/
def isOptionLike (argument : String) : Bool :=
  match argument.toList with
  | '-' :: _ :: _ => true
  | _ => false

/-- Letters after one dash: flags, and at most one option with a value, which is the last. -/
def ofLetters (options : List OptionName) (next : Option String) :
    List Char → List ArgumentToken × Bool
  | [] => ([], false)
  | letter :: rest =>
      match options.find? fun name => name.letter? == some letter with
      | none => ([wrong], false)
      | some name =>
          if !name.takesValue then
            let others := ofLetters options next rest
            (flag name :: others.1, others.2)
          else
            match rest with
            | '=' :: attached => ([value name (String.ofList attached)], false)
            | _ :: _ => ([value name (String.ofList rest)], false)
            | [] =>
                match next with
                | some argument => ([value name argument], true)
                | none => ([wrong], false)

/-- A word after two dashes, with its value after `=` if it has one. -/
def ofWord (options : List OptionName) (next : Option String) (word : List Char) :
    List ArgumentToken × Bool :=
  let attached : Option String :=
    match word.dropWhile (· != '=') with
    | '=' :: text => some (String.ofList text)
    | _ => none
  let long := String.ofList (word.takeWhile (· != '='))
  match options.find? fun name => name.long == long with
  | none => ([wrong], false)
  | some name =>
      match name.takesValue, attached, next with
      | false, none, _ => ([flag name], false)
      | false, some _, _ => ([wrong], false)
      | true, some text, _ => ([value name text], false)
      | true, none, some argument => ([value name argument], true)
      | true, none, none => ([wrong], false)

/--
The tokens of arguments.  An option takes the next argument as its value unless
that is option-like; after `--` all arguments are operands.  `skip` says that
the first argument has been taken as a value.
-/
def ofArguments (options : List OptionName) (skip : Bool) : List String → List ArgumentToken
  | [] => []
  | argument :: rest =>
      if skip then ofArguments options false rest
      else
        let next := rest.head?.filter fun argument => !isOptionLike argument
        match argument.toList with
        | ['-', '-'] => rest.map operand
        | '-' :: '-' :: word =>
            let found := ofWord options next word
            found.1 ++ ofArguments options found.2 rest
        | '-' :: letter :: letters =>
            let found := ofLetters options next (letter :: letters)
            found.1 ++ ofArguments options found.2 rest
        | _ => operand argument :: ofArguments options false rest

end ArgumentToken

/-- A command line that has been read in part. -/
structure ArgumentDraft where
  operand : Option String
  format : Option OutputFormat
  smellTypes : Option (List String)
  config : Option String
  quiet : Bool
  noColor : Bool
  force : Bool

namespace ArgumentDraft

def empty : ArgumentDraft :=
  ⟨none, none, none, none, false, false, false⟩

/-- Why reading stops early. -/
inductive Stop where
  | wrong
  | help
deriving DecidableEq, Repr

/-- Take a token in.  Only the smell types may be given twice; a path is not empty. -/
def step (operands : Nat) (draft : ArgumentDraft) : ArgumentToken → Except Stop ArgumentDraft
  | .wrong => .error .wrong
  | .flag .help => .error .help
  | .flag .quiet => if draft.quiet then .error .wrong else .ok { draft with quiet := true }
  | .flag .noColor => if draft.noColor then .error .wrong else .ok { draft with noColor := true }
  | .flag .force => if draft.force then .error .wrong else .ok { draft with force := true }
  | .flag _ => .error .wrong
  | .value .format text =>
      match draft.format, OutputFormat.ofName? text with
      | none, some format => .ok { draft with format := some format }
      | _, _ => .error .wrong
  | .value .smellTypes text =>
      .ok { draft with smellTypes := some (draft.smellTypes.getD [] ++ text.splitOn ",") }
  | .value .config text =>
      if draft.config.isSome || text.isEmpty then .error .wrong
      else .ok { draft with config := some text }
  | .value _ _ => .error .wrong
  | .operand text =>
      if operands = 0 || draft.operand.isSome || text.isEmpty then .error .wrong
      else .ok { draft with operand := some text }

end ArgumentDraft

namespace CommandName

/-- How many operands a command may have. -/
def operands : CommandName → Nat
  | analyze => 1
  | list => 0
  | init => 1

/-- Where the configuration is, unless told otherwise. -/
def defaultConfigPath : String :=
  ".smellguard.toml"

/-- What a command asks for with the arguments after it. -/
def request? (name : CommandName) (arguments : List String) : Option Request :=
  let tokens := ArgumentToken.ofArguments name.options false arguments
  match tokens.foldlM (ArgumentDraft.step name.operands) ArgumentDraft.empty with
  | .error .wrong => none
  | .error .help => some (.help (.command name))
  | .ok draft =>
      match name with
      | list => some .list
      | init => some (.init ⟨draft.operand.getD defaultConfigPath⟩ draft.force)
      | analyze =>
          draft.operand.map fun path =>
            .analyze
              { path := ⟨path⟩
                format := draft.format
                smellTypes := draft.smellTypes.getD []
                config := draft.config.map Path.mk
                quiet := draft.quiet
                noColor := draft.noColor }

end CommandName

namespace Request

/-- What `help` asks for: the help of the word that is named, if any. -/
def ofHelp? : List String → Option Request
  | [] => some (.help .program)
  | ["help"] => some (.help .helpWord)
  | [word] => (CommandName.ofWord? word).map fun name => .help (.command name)
  | _ => none

/-- What a command line asks for, if it is right. -/
def ofArguments? : List String → Option Request
  | [] => none
  | word :: rest =>
      match CommandName.ofWord? word with
      | some name => name.request? rest
      | none =>
          if word = "help" then ofHelp? rest
          else if word = "--help" then some (.help .program)
          else if word = "--version" then some .version
          else
            match word.toList with
            | '-' :: 'h' :: _ => some (.help .program)
            | '-' :: 'V' :: _ => some .version
            | _ => none

end Request

end CodeSmells
