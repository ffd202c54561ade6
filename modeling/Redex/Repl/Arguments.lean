import Redex.Repl.Run

/-!
# Arguments of the command line

An option has a value, which follows it as an argument of its own or after an equals sign.
-/

namespace Redex

namespace Options

def number? (value : String) : Option Nat :=
  if value.toList.all Char.isDigit then value.toNat? else none

/-- Options with one more choice made, or a complaint. -/
def choose (options : Options) (name value : String) : Except String Options :=
  match name with
  | "--eval" | "-e" => .ok { options with source? := some value.toList }
  | "--placeholder" => .ok { options with placeholder := value }
  | "--ticks" | "-t" =>
    match number? value with
    | some ticks => .ok { options with ticks }
    | none => .error ("not a number: " ++ value)
  | _ => .error ("not an option: " ++ name)

def joined? (argument : String) : Option (String × String) :=
  let name := argument.toList.takeWhile (· != '=')
  let value := argument.toList.drop (name.length + 1)
  if "--".toList.isPrefixOf name && name.length < argument.length
    then some (.ofList name, .ofList value) else none

/-- Options with the choices made that some arguments ask for, or the first complaint. -/
def ofArguments (options : Options) : List String → Except String Options
  | [] => .ok options
  | [argument] =>
    match joined? argument with
    | some (name, value) => options.choose name value
    | none => .error ("no value for " ++ argument)
  | argument :: next :: rest =>
    match joined? argument with
    | some (name, value) => do (← options.choose name value).ofArguments (next :: rest)
    | none => do (← options.choose argument next).ofArguments rest

end Options

end Redex
