import ServiceExposure.CommandLine.Options
/-!
# The command line

Options are written `--name value` or `--name=value`, each at most once and in any order.  The words are taken one after
the other.  An option without `=` waits for its value, and is only looked at closely when the next option or the end of
the line comes, so a word that is nothing known wins over what is wrong with an option before it.
-/
namespace ServiceExposure

/-- What has been read of a command line. -/
structure CommandLine where
  options : Options := {}
  given : List OptionName := []
  /-- The option that was read last, while it waits to be set. -/
  pending : Option (OptionName × Option String) := none
  /-- Whether `--` has been read, after which there are no options. -/
  closed : Bool := false
deriving DecidableEq

namespace CommandLine

def give (l : CommandLine) (name : OptionName) (value : String) : Except UsageError CommandLine :=
  if name ∈ l.given then .error .repeated
  else do
    return { l with options := ← l.options.set name value, given := name :: l.given }

/-- Sets the option that waits, if there is one. -/
def resolve (l : CommandLine) : Except UsageError CommandLine :=
  match l.pending with
  | none => .ok l
  | some (_, none) => .error .missingValue
  | some (name, some value) => { l with pending := none }.give name value

/-- What a word is: an option, perhaps with its value, a mark, or anything else. -/
inductive Word where
  | option (name : String) (value : Option String)
  /-- Begins with a hyphen, but is no option. -/
  | hyphened
  | endOfOptions
  | plain (text : String)

def classify (word : String) : Word :=
  if word = "--" then .endOfOptions
  else match Text.dropStem "--" word with
    | some body =>
      match Text.cutAt '=' body with
      | some (name, value) => .option name (some value)
      | none => .option body none
    | none => if word ≠ "-" ∧ (Text.dropStem "-" word).isSome then .hyphened else .plain word

def readWord (l : CommandLine) (word : String) : Except UsageError CommandLine :=
  if l.closed then .error .unknownArgument
  else match classify word with
    | .endOfOptions => .ok { l with closed := true }
    | .hyphened => .error .unknownArgument
    | .option name value =>
      match OptionName.ofWritten? name with
      | none => .error .unknownArgument
      | some o => do
        let l ← l.resolve
        match value with
        | some value => l.give o value
        | none => return { l with pending := some (o, none) }
    | .plain text =>
      match l.pending with
      | some (o, none) => .ok { l with pending := some (o, some text) }
      | _ => .error .unknownArgument

def parse (words : List String) : Except UsageError Options := do
  let l ← words.foldlM readWord {}
  let l ← l.resolve
  return l.options

end CommandLine
end ServiceExposure
