/-!
# Options — arguments of a command

A command knows a list of `OptionSpec`s.  `Options.parse` reads its arguments from left to right:
`--name value`, `--name=value`, `-n value`, `-nvalue` or `-n=value`.  What is wrong with them is a
`UsageError`, and **a word that fits nowhere is reported before the value in front of it is looked
at.**
-/

namespace RadioRing

/-- An option that takes a value. -/
structure OptionSpec where
  /-- The name behind two dashes. -/
  name : String
  /-- The letter behind one dash. -/
  letter : Option Char := none
  /-- Whether it may be repeated and its value is a list with commas. -/
  isList : Bool := false
  /-- Whether a value is accepted. -/
  accepts : String → Bool
  /-- The environment variable that stands in for it. -/
  envName : Option String := none

/-- Why arguments are refused. -/
inductive UsageError
  /-- A value is not accepted. -/
  | valueRefused
  /-- A value is missing. -/
  | valueMissing
  /-- A value stands where none is taken. -/
  | valueUnneeded
  /-- An argument fits nowhere. -/
  | unknownArgument
  /-- An option is given twice. -/
  | givenTwice
  /-- Help is asked for. -/
  | helpWanted
deriving DecidableEq, Inhabited, Repr

/-- The text of a refusal. -/
def UsageError.message : UsageError → String
  | valueRefused => "a value is not accepted"
  | valueMissing => "an option has no value"
  | valueUnneeded => "an option takes no value"
  | unknownArgument => "an argument fits nowhere"
  | givenTwice => "an option is given twice"
  | helpWanted => "see the list of commands"

/-- The options that were given, with their values. -/
abbrev Options := List (String × List String)

namespace Options

/-- Whether an option was given. -/
def has (o : Options) (name : String) : Bool := o.any fun e => e.1 = name

/-- All the values of an option. -/
def all (o : Options) (name : String) : List String :=
  (o.filter fun e => e.1 = name).flatMap Prod.snd

/-- The value of an option. -/
def value? (o : Options) (name : String) : Option String := (o.all name).head?

/-- An option that may still wait for its value. -/
structure Pending where
  spec : OptionSpec
  value : Option String

/-- The options with one more, if it has a value, is not given twice and accepts its value. -/
def settle (o : Options) : Option Pending → Except UsageError Options
  | none => .ok o
  | some ⟨_, none⟩ => .error .valueMissing
  | some ⟨spec, some value⟩ =>
    let values := if spec.isList then value.splitOn "," else [value]
    if o.has spec.name ∧ ¬spec.isList then .error .givenTwice
    else if values.all spec.accepts then .ok (o ++ [(spec.name, values)])
    else .error .valueRefused

/-- A long option, from the characters behind its dashes. -/
def long (specs : List OptionSpec) (o : Options) (pending : Option Pending) (cs : List Char) :
    Except UsageError (Options × Option Pending) :=
  let name := String.ofList (cs.takeWhile (· ≠ '='))
  let value := match cs.dropWhile (· ≠ '=') with
    | _ :: v => some (String.ofList v)
    | [] => none
  if name = "help" then
    match value with
    | some _ => .error .valueUnneeded
    | none => do
      let _ ← o.settle pending
      .error .helpWanted
  else
    match specs.find? fun s => s.name = name with
    | none => .error .unknownArgument
    | some spec => do
      let o ← o.settle pending
      match value with
      | none => return (o, some ⟨spec, none⟩)
      | some v => return (← o.settle (some ⟨spec, some v⟩), none)

/-- A short option, from its letter and the characters behind it. -/
def short (specs : List OptionSpec) (o : Options) (pending : Option Pending) (letter : Char)
    (cs : List Char) : Except UsageError (Options × Option Pending) :=
  if letter = 'h' then do
    let _ ← o.settle pending
    .error .helpWanted
  else
    match specs.find? fun s => s.letter = some letter with
    | none => .error .unknownArgument
    | some spec => do
      let o ← o.settle pending
      match cs with
      | [] => return (o, some ⟨spec, none⟩)
      | '=' :: v => return (← o.settle (some ⟨spec, some (String.ofList v)⟩), none)
      | v => return (← o.settle (some ⟨spec, some (String.ofList v)⟩), none)

/-- Reads the arguments that are left. -/
def parseFrom (specs : List OptionSpec) (o : Options) (pending : Option Pending) :
    List String → Except UsageError Options
  | [] => o.settle pending
  | arg :: rest =>
    match arg.toList with
    | ['-', '-'] => if rest.isEmpty then o.settle pending else .error .unknownArgument
    | '-' :: '-' :: cs => do
      let (o, pending) ← long specs o pending cs
      parseFrom specs o pending rest
    | '-' :: letter :: cs => do
      let (o, pending) ← short specs o pending letter cs
      parseFrom specs o pending rest
    | _ =>
      match pending with
      | some ⟨spec, none⟩ => parseFrom specs o (some ⟨spec, some arg⟩) rest
      | _ => .error .unknownArgument

/-- Reads arguments. -/
def parse (specs : List OptionSpec) (args : List String) : Except UsageError Options :=
  parseFrom specs [] none args

/-- The options with what the environment says about those that were not given. -/
def withVariables (environment : List (String × String)) (o : Options) :
    List OptionSpec → Except UsageError Options
  | [] => .ok o
  | spec :: rest => do
    let value := spec.envName.bind fun name =>
      (environment.find? fun e => e.1 = name).map Prod.snd
    let o ← match value with
      | some v => if o.has spec.name then .ok o else o.settle (some ⟨spec, some v⟩)
      | none => .ok o
    withVariables environment o rest

end Options

end RadioRing
