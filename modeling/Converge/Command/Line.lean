import Converge.Object.Kind

/-
  Command lines: a command with its options, among options
  that all commands share.

  Every option takes a value, which follows its name as a
  word of its own or after an equals sign. Shared options may
  also stand before the command, and some are taken from
  variables of the environment where they are not given.

  Key definitions:
    * `Command`, `CommandLine`: what is asked for
    * `UsageError`: what is wrong with a command line
    * `CommandLine.parse`: reading a command line
-/

namespace Converge

/- How values are printed. -/
inductive OutputFormat where
  | yaml
  | json
deriving DecidableEq

/- A command. -/
inductive Command where
  | apply (kind : Kind) (file : String) (state : String)
  | get (state : String)
  | delete (state : String)
  | probe (state : String)
  | adopt (kind : Kind) (id : String) (state : String)
deriving DecidableEq

/- A command with the options that all commands share. -/
structure CommandLine where
  command : Command
  config : Option String
  endpoint : Option String
  token : Option String
  namespaceName : Option String
  format : OutputFormat
deriving DecidableEq

/- What is wrong with a command line. -/
inductive UsageError where
  | noCommand
  | unknownCommand (word : String)
  | unknownOption (word : String)
  | noValue (option : String)
  | repeated (option : String)
  | required (option : String)
  | invalidValue (option : String) (value : String)
  | unexpected (word : String)
deriving DecidableEq

namespace UsageError

def message : UsageError → String
  | .noCommand => "a command is required"
  | .unknownCommand word =>
      "unrecognized command '" ++ word ++ "'"
  | .unknownOption word =>
      "unexpected argument '" ++ word ++ "' found"
  | .noValue option =>
      "a value is required for '--" ++ option ++
        "' but none was supplied"
  | .repeated option =>
      "the argument '--" ++ option ++
        "' cannot be used multiple times"
  | .required option =>
      "the argument '" ++ option ++ "' was not provided"
  | .invalidValue option value =>
      "invalid value '" ++ value ++ "' for '--" ++ option ++ "'"
  | .unexpected word =>
      "unexpected argument '" ++ word ++ "' found"

end UsageError

------------------------------------------------------------
-- Options
------------------------------------------------------------

/- An option: its name, its letter, and the variable that
   gives it a value where the command line does not. -/
structure CommandOption where
  name : String
  letter : Option Char
  fallback : Option String

namespace CommandOption

/- The options that all commands share. -/
def shared : List CommandOption :=
  [ ⟨"config", some 'c', some "TEKTON_CONFIG"⟩,
    ⟨"endpoint", some 'e', some "TEKTON_ENDPOINT"⟩,
    ⟨"token", none, some "TEKTON_TOKEN"⟩,
    ⟨"namespace", some 'n', some "TEKTON_NAMESPACE"⟩,
    ⟨"log-level", none, some "TEKTON_LOG"⟩,
    ⟨"format", some 'f', none⟩ ]

def kind : CommandOption :=
  ⟨"kind", some 'k', none⟩

def file : CommandOption :=
  ⟨"file", none, none⟩

def state : CommandOption :=
  ⟨"state", none, none⟩

end CommandOption

/- A part of a command line. -/
inductive ArgumentItem where
  | given (option : String) (value : String)
  | word (text : String)

namespace CommandLine

/- A word that names an option cannot be the value of
   one. -/
def namesOption (word : String) : Bool :=
  word.startsWith "-" && word ≠ "-"

/- An option as a word names it, with the value that follows
   in the same word. -/
def named?
    (options : List CommandOption)
    (word : String) :
    Option (String × Option String) :=
  match word.toList with
  | '-' :: '-' :: rest =>
      let name := rest.takeWhile (· ≠ '=')
      let value :=
        match rest.drop name.length with
        | _ :: value => some (String.ofList value)
        | [] => none
      (options.find? fun option =>
        option.name = String.ofList name).map fun option =>
          (option.name, value)
  | '-' :: letter :: rest =>
      let value :=
        match rest with
        | [] => none
        | '=' :: value => some (String.ofList value)
        | value => some (String.ofList value)
      (options.find? fun option =>
        option.letter = some letter).map fun option =>
          (option.name, value)
  | _ => none

/-
  Splits the words of a command line, or the first of them
  up to one that is not an option. The words that are left
  are given as well.
-/
def split
    (options : List CommandOption)
    (whole : Bool) :
    List String →
      Except UsageError (List ArgumentItem × List String)
  | [] => .ok ([], [])
  | word :: rest =>
      if word = "--" then .ok (rest.map .word, [])
      else if !namesOption word then
        if whole then do
          let (items, left) ← split options whole rest
          return (.word word :: items, left)
        else .ok ([], word :: rest)
      else
        match named? options word, rest with
        | none, _ => .error (.unknownOption word)
        | some (name, some value), rest => do
            let (items, left) ← split options whole rest
            return (.given name value :: items, left)
        | some (name, none), [] => .error (.noValue name)
        | some (name, none), value :: rest =>
            if namesOption value then .error (.noValue name)
            else do
              let (items, left) ← split options whole rest
              return (.given name value :: items, left)

------------------------------------------------------------
-- Values
------------------------------------------------------------

/- The values that a command line gives to an option. -/
def valuesOf
    (name : String)
    (items : List ArgumentItem) :
    List String :=
  items.filterMap fun item =>
    match item with
    | .given option value =>
        if option = name then some value else none
    | .word _ => none

/- The words that belong to no option. -/
def wordsOf (items : List ArgumentItem) : List String :=
  items.filterMap fun item =>
    match item with
    | .given _ _ => none
    | .word text => some text

/- The value of an option that is given at most once. -/
def value?
    (name : String)
    (items : List ArgumentItem) :
    Except UsageError (Option String) :=
  match valuesOf name items with
  | [] => .ok none
  | [value] => .ok (some value)
  | _ => .error (.repeated name)

/- The value of an option that has to be given. -/
def required
    (name : String)
    (items : List ArgumentItem) :
    Except UsageError String := do
  match ← value? name items with
  | some value => return value
  | none => throw (.required ("--" ++ name))

/- A path that has to be given, and is not empty. -/
def path
    (name : String)
    (items : List ArgumentItem) :
    Except UsageError String := do
  let value ← required name items
  if value = "" then throw (.noValue name) else return value

/- The kind that has to be given. -/
def kindOf
    (items : List ArgumentItem) :
    Except UsageError Kind := do
  let word ← required "kind" items
  match Kind.ofWord? word with
  | some kind => return kind
  | none => throw (.invalidValue "kind" word)

/- There are no words but the options. -/
def noWords (items : List ArgumentItem) :
    Except UsageError Unit :=
  match wordsOf items with
  | [] => .ok ()
  | word :: _ => .error (.unexpected word)

------------------------------------------------------------
-- Commands
------------------------------------------------------------

/- The options of each command, and how it is read off the
   items after its name. -/
def commands :
    List
      (String × List CommandOption ×
        (List ArgumentItem → Except UsageError Command)) :=
  let stateOnly (make : String → Command) :
      List ArgumentItem → Except UsageError Command :=
    fun items => do
      noWords items
      return make (← path "state" items)
  [ ("apply",
      [.kind, .file, .state],
      fun items => do
        noWords items
        return .apply (← kindOf items) (← path "file" items)
          (← path "state" items)),
    ("get", [.state], stateOnly .get),
    ("delete", [.state], stateOnly .delete),
    ("exists", [.state], stateOnly .probe),
    ("import",
      [.kind, .state],
      fun items => do
        match wordsOf items with
        | [id] =>
            return .adopt (← kindOf items) id
              (← path "state" items)
        | [] => throw (.required "<ID>")
        | _ :: word :: _ => throw (.unexpected word)) ]

/- The value of a shared option: given with the command, or
   before it, or by a variable. -/
def sharedValue?
    (environment : List (String × String))
    (before : List ArgumentItem)
    (items : List ArgumentItem)
    (name : String) :
    Except UsageError (Option String) := do
  let early ← value? name before
  let late ← value? name items
  let option :=
    CommandOption.shared.find? fun option =>
      option.name = name
  let fallback :=
    (option.bind CommandOption.fallback).bind fun name =>
      environment.lookup name
  return (late.or early).or fallback

/- The format of values; YAML unless another one is given. -/
def formatOf : Option String → Except UsageError OutputFormat
  | none => .ok .yaml
  | some "yaml" => .ok .yaml
  | some "json" => .ok .json
  | some value => .error (.invalidValue "format" value)

/- Reads a command line. -/
def parse
    (arguments : List String)
    (environment : List (String × String)) :
    Except UsageError CommandLine := do
  let (before, rest) ←
    split CommandOption.shared false arguments
  match rest with
  | [] =>
      match wordsOf before with
      | [] => throw .noCommand
      | word :: _ => throw (.unknownCommand word)
  | name :: rest =>
      match commands.lookup name with
      | none => throw (.unknownCommand name)
      | some (options, read) =>
          let (items, _) ←
            split (options ++ CommandOption.shared) true rest
          let command ← read items
          let shared := sharedValue? environment before items
          return ⟨command, ← shared "config",
            ← shared "endpoint", ← shared "token",
            ← shared "namespace",
            ← formatOf (← shared "format")⟩

end CommandLine

end Converge
