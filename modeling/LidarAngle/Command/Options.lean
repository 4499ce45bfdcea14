/-!
# Options

The command line is a list of options, each with a value and each at most once. A long option
takes its value after an equals sign or as the next argument, a short one also right behind its
letter. The next argument is no value if it begins with a hyphen, unless that is all of it. Two
hyphens may end the list. A path may not be empty, and a reply is given either as text or as a
payload.

## Main definitions

* `Command.Options` - the values that were given
* `Command.Options.parse?` - the options in a list of arguments
-/

namespace LidarAngle.Command

/-- The values given on the command line. -/
structure Options where
  config : Option String := none
  ascii : Option (List Char) := none
  payload : Option (List Char) := none
  output : Option String := none
  deriving DecidableEq

inductive Switch where
  | config
  | ascii
  | payload
  | output
  deriving DecidableEq

def Switch.ofName? (name : List Char) : Option Switch :=
  if name = "config".toList then some config
  else if name = "ascii".toList then some ascii
  else if name = "payload".toList then some payload
  else if name = "output".toList then some output
  else none

def Switch.ofLetter? (letter : Char) : Option Switch :=
  if letter = 'c' then some config
  else if letter = 'a' then some ascii
  else if letter = 'p' then some payload
  else if letter = 'o' then some output
  else none

/-- What a single argument says. -/
inductive Argument where
  | complete (switch : Switch) (value : List Char)
  | awaiting (switch : Switch)
  | ending
  deriving DecidableEq

/-- What a single argument says, if it is an option at all. -/
def Argument.ofWord? : List Char → Option Argument
  | ['-', '-'] => some ending
  | '-' :: '-' :: rest => do
    let switch ← Switch.ofName? (rest.takeWhile (· ≠ '='))
    match rest.dropWhile (· ≠ '=') with
    | '=' :: value => some (complete switch value)
    | _ => some (awaiting switch)
  | '-' :: letter :: rest => do
    let switch ← Switch.ofLetter? letter
    match rest with
    | [] => some (awaiting switch)
    | '=' :: value => some (complete switch value)
    | value => some (complete switch value)
  | _ => none

/-- An argument can be the value of the option before it. -/
def isValue : List Char → Bool
  | ['-'] => true
  | '-' :: _ => false
  | _ => true

namespace Options

/-- The options with one more, unless it was given before or its value cannot be one. -/
def add? (options : Options) (switch : Switch) (value : List Char) : Option Options :=
  match switch with
  | .config =>
    if options.config.isSome ∨ value = [] then none
    else some { options with config := some (String.ofList value) }
  | .ascii => if options.ascii.isSome then none else some { options with ascii := some value }
  | .payload =>
    if options.payload.isSome then none else some { options with payload := some value }
  | .output =>
    if options.output.isSome ∨ value = [] then none
    else some { options with output := some (String.ofList value) }

/-- The options with those of further arguments. -/
def extend? (options : Options) : List (List Char) → Option Options
  | [] => some options
  | word :: rest =>
    match Argument.ofWord? word with
    | none => none
    | some .ending => if rest = [] then some options else none
    | some (.complete switch value) =>
      match options.add? switch value with
      | none => none
      | some options => options.extend? rest
    | some (.awaiting switch) =>
      match rest with
      | [] => none
      | value :: rest =>
        if isValue value then
          match options.add? switch value with
          | none => none
          | some options => options.extend? rest
        else none

def parse? (arguments : List (List Char)) : Option Options := do
  let options ← extend? {} arguments
  if options.ascii.isSome ∧ options.payload.isSome then none else some options

end Options

end LidarAngle.Command
