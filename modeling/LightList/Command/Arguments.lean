/-
This file reads the arguments of the program.

Arguments are read from left to right. The value of an option is only checked when the next option
comes or the arguments end, so an argument that has no place at all is told first.
-/

import LightList.Command.Help

namespace LightList.Command

inductive NumberFault where
  | empty
  | invalidDigit
  | tooLarge
deriving DecidableEq

def NumberFault.message : NumberFault → String
  | empty => "cannot parse integer from empty string"
  | invalidDigit => "invalid digit found in string"
  | tooLarge => "number too large to fit in target type"

inductive UsageError where
  | unknownCommand (name : String)
  | unexpectedArgument (argument : String)
  | unexpectedValue (value flag : String)
  | missingValue (spec : OptionSpec)
  | repeatedOption (spec : OptionSpec)
  | invalidNumber (value : String) (spec : OptionSpec) (fault : NumberFault)
deriving DecidableEq

def UsageError.message : UsageError → String
  | unknownCommand name => s!"unrecognized subcommand '{name}'"
  | unexpectedArgument argument => s!"unexpected argument '{argument}' found"
  | unexpectedValue value flag =>
      s!"unexpected value '{value}' for '{flag}' found; no more were expected"
  | missingValue spec =>
      s!"a value is required for '{spec.display}' but none was supplied"
  | repeatedOption spec => s!"the argument '{spec.display}' cannot be used multiple times"
  | invalidNumber value spec fault =>
      s!"invalid value '{value}' for '{spec.display}': {fault.message}"

/-- Instead of running a command the program prints a text or refuses its arguments. -/
inductive Halt where
  | shown (text : String)
  | incomplete
  | refused (error : UsageError)
deriving DecidableEq

/-- What a run of the program is asked to do. -/
inductive Invocation where
  | reduce (source : Option String) (output address : String) (timeout : Nat)
  | characters (input output : String)
deriving DecidableEq

def secondsLimit : Nat := Nat.pow 2 64

/-- The first character that makes the number wrong decides. -/
def digitsFrom (value : Nat) : List Char → Except NumberFault Nat
  | [] => .ok value
  | character :: rest =>
      if character.isDigit then
        let next := value * 10 + (character.toNat - '0'.toNat)
        if next < secondsLimit then digitsFrom next rest else .error .tooLarge
      else .error .invalidDigit

/-- A plus may stand before the digits. -/
def seconds (text : String) : Except NumberFault Nat :=
  match text.toList with
  | [] => .error .empty
  | ['+'] => .error .invalidDigit
  | '+' :: rest => digitsFrom 0 rest
  | digits => digitsFrom 0 digits

def OptionSpec.check (spec : OptionSpec) (value : String) : Except UsageError Unit :=
  match spec.rule with
  | .text => .ok ()
  | .path => if value.isEmpty then .error (.missingValue spec) else .ok ()
  | .seconds =>
      match seconds value with
      | .ok _ => .ok ()
      | .error fault => .error (.invalidNumber value spec fault)

/-- These are the values of the options by name. -/
abbrev Given := List (String × String)

/-- An option that has been named still waits for its value, or for that value to be checked. -/
structure Pending where
  spec : OptionSpec
  value : Option String

/-- An option may be given once, and its value must be one that it accepts. -/
def Given.add (given : Given) (spec : OptionSpec) (value : String) : Except UsageError Given :=
  if (given.lookup spec.name).isSome then .error (.repeatedOption spec)
  else
    match spec.check value with
    | .error error => .error error
    | .ok _ => .ok (given ++ [(spec.name, value)])

def Given.resolve (given : Given) : Option Pending → Except UsageError Given
  | none => .ok given
  | some ⟨spec, none⟩ => .error (.missingValue spec)
  | some ⟨spec, some value⟩ => given.add spec value

/-- This is how an argument reads before its meaning is known. -/
inductive Shape where
  | escape
  | long (name : String) (value : Option String)
  | short (letter : Char)
  | plain

/-- A long name ends at the first equals sign; a lone dash is a plain argument. -/
def shape (argument : String) : Shape :=
  match argument.toList with
  | ['-', '-'] => .escape
  | '-' :: '-' :: rest =>
      let name := rest.takeWhile fun character => character != '='
      match rest.drop name.length with
      | [] => .long (String.ofList name) none
      | _ :: value => .long (String.ofList name) (some (String.ofList value))
  | '-' :: letter :: _ => .short letter
  | _ => .plain

/-- What is pending is checked before the help is shown. -/
def helpFor (command : CommandSpec) (environment : Environment) (given : Given)
    (pending : Option Pending) : Halt :=
  match given.resolve pending with
  | .error error => .refused error
  | .ok _ => .shown (command.helpText environment)

/-- This reads the arguments after the name of a command. -/
def options (command : CommandSpec) (environment : Environment) (given : Given)
    (pending : Option Pending) : List String → Except Halt Given
  | [] => (given.resolve pending).mapError .refused
  | argument :: rest =>
      match shape argument with
      | .escape =>
          match rest with
          | [] => (given.resolve pending).mapError .refused
          | extra :: _ => .error (.refused (.unexpectedArgument extra))
      | .long "help" none => .error (helpFor command environment given pending)
      | .long "help" (some value) => .error (.refused (.unexpectedValue value "--help"))
      | .long name value =>
          match command.option? name with
          | none => .error (.refused (.unexpectedArgument ("--" ++ name)))
          | some spec =>
              match given.resolve pending with
              | .error error => .error (.refused error)
              | .ok resolved =>
                  match value with
                  | none => options command environment resolved (some ⟨spec, none⟩) rest
                  | some value =>
                      match resolved.add spec value with
                      | .error error => .error (.refused error)
                      | .ok added => options command environment added none rest
      | .short letter =>
          if letter = 'h' then .error (helpFor command environment given pending)
          else .error (.refused (.unexpectedArgument (String.ofList ['-', letter])))
      | .plain =>
          match pending with
          | some ⟨spec, none⟩ =>
              options command environment given (some ⟨spec, some argument⟩) rest
          | _ => .error (.refused (.unexpectedArgument argument))

/-- Options that were not given take their value from the environment, if it has one. -/
def fromEnvironment (environment : Environment) :
    List OptionSpec → Given → Except UsageError Given
  | [], given => .ok given
  | spec :: rest, given =>
      match given.lookup spec.name, environment.lookup spec.setting with
      | none, some value =>
          match given.add spec value with
          | .error error => .error error
          | .ok added => fromEnvironment environment rest added
      | _, _ => fromEnvironment environment rest given

def Given.value? (given : Given) (spec : OptionSpec) : Option String :=
  given.lookup spec.name <|> spec.fallback

def Given.text (given : Given) (spec : OptionSpec) : String := (given.value? spec).getD ""

/-- A value that was accepted as a number is one. -/
def Given.number (given : Given) (spec : OptionSpec) : Nat :=
  match seconds (given.text spec) with
  | .ok value => value
  | .error _ => 0

def invocationOf (command : CommandSpec) (given : Given) : Invocation :=
  if command = reduceCommand then
    .reduce (given.value? localOption) (given.text reducedOption) (given.text addressOption)
      (given.number timeoutOption)
  else .characters (given.text inputOption) (given.text featuresOption)

def parseCommand (command : CommandSpec) (environment : Environment) (arguments : List String) :
    Except Halt Invocation :=
  match options command environment [] none arguments with
  | .error halt => .error halt
  | .ok given =>
      match fromEnvironment environment command.options given with
      | .error error => .error (.refused error)
      | .ok complete => .ok (invocationOf command complete)

/-- The names after the help command lead to the command that it explains. -/
def helpOn (environment : Environment) : List String → Halt
  | [] => .shown programHelpText
  | name :: rest =>
      match rest with
      | extra :: _ =>
          if isCommandName name then .refused (.unknownCommand extra)
          else .refused (.unknownCommand name)
      | [] =>
          if name = helpCommandName then .shown helpCommandHelpText
          else
            match commands.find? fun command => command.name == name with
            | some command => .shown (command.helpText environment)
            | none => .refused (.unknownCommand name)

/-- After a double dash the name of a command is an argument like any other. -/
def afterEscape : List String → Halt
  | [] => .incomplete
  | argument :: _ =>
      if isCommandName argument then .refused (.unexpectedArgument argument)
      else .refused (.unknownCommand argument)

/-- This reads the arguments of the program; without a command there is nothing to do. -/
def parse (environment : Environment) (arguments : List String) : Except Halt Invocation :=
  match arguments with
  | [] => .error .incomplete
  | argument :: rest =>
      if argument = helpCommandName then .error (helpOn environment rest)
      else
        match commands.find? fun command => command.name == argument with
        | some command => parseCommand command environment rest
        | none =>
            match shape argument with
            | .escape => .error (afterEscape rest)
            | .long "help" none => .error (.shown programHelpText)
            | .long "help" (some value) => .error (.refused (.unexpectedValue value "--help"))
            | .long "version" none => .error (.shown versionText)
            | .long "version" (some value) =>
                .error (.refused (.unexpectedValue value "--version"))
            | .long name _ => .error (.refused (.unexpectedArgument ("--" ++ name)))
            | .short letter =>
                if letter = 'h' then .error (.shown programHelpText)
                else if letter = 'V' then .error (.shown versionText)
                else .error (.refused (.unexpectedArgument (String.ofList ['-', letter])))
            | .plain => .error (.refused (.unknownCommand argument))

end LightList.Command
