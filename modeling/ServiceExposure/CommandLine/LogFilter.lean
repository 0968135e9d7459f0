import ServiceExposure.Text.Alphanumeric
import ServiceExposure.Text.Decimal
/-!
# Log filters

A log filter is a list of directives with commas between them.  A directive says which records it is about and up to
which level they are logged: `level`, `target`, `target=level`, or `target[span{field}]=level` where everything but
the brackets can be left out.  A directive without a level lets everything pass.
-/
namespace ServiceExposure

/-- How much is logged; each level includes those before it. -/
inductive LogLevel where
  | off
  | error
  | warn
  | info
  | debug
  | trace
deriving DecidableEq

namespace LogLevel

def all : List LogLevel := [.off, .error, .warn, .info, .debug, .trace]

def name : LogLevel → String
  | .off => "off"
  | .error => "error"
  | .warn => "warn"
  | .info => "info"
  | .debug => "debug"
  | .trace => "trace"

/-- The level of a name, in small letters or capitals, or of its number. -/
def ofText? (s : String) : Option LogLevel :=
  match Decimal.readUnsigned? 5 s with
  | some n => all[n]?
  | none => all.find? (fun l => Text.sameIgnoringCase l.name s)

end LogLevel

/-- What is logged of some records. -/
structure LogDirective where
  /-- What the records are written by; anything if none is said. -/
  target : Option String := none
  /-- The span within which the records are written; any if none is said. -/
  span : Option String := none
  /-- What a field of the span has to be. -/
  field : Option String := none
  level : LogLevel := .trace
deriving DecidableEq

namespace LogDirective

def nonEmpty? (cs : List Char) : Option String := if cs = [] then none else some (String.ofList cs)

/-- Tests for a character with which a directive can begin. -/
def isFirst (c : Char) : Bool := Text.isAlphanumeric c || c ∈ ['[', '-', ':', '_']

/-- A word alone is a level or, if it is none, a target. -/
def ofWord (word : String) : LogDirective :=
  match LogLevel.ofText? word with
  | some level => { level }
  | none => { target := some word }

/-- Reads what follows an opening bracket, up to the closing one: a span, perhaps with a field in braces. -/
def ofSpan? (d : LogDirective) (cs : List Char) : Option (LogDirective × List Char) :=
  let isPlain : Char → Bool := fun c => c ≠ ']' ∧ c ≠ '\x7b'
  let span := cs.takeWhile isPlain
  match cs.dropWhile isPlain with
  | ']' :: rest => some ({ d with span := some (String.ofList span) }, rest)
  | '\x7b' :: rest => do
    let (field, rest) ← Text.cutChars '\x7d' rest
    match nonEmpty? field, rest with
    | some field, ']' :: rest => some ({ d with span := nonEmpty? span, field := some field }, rest)
    | _, _ => none
  | _ => none

/-- Reads what follows the target and the span: nothing, or `=` and a level that may be left out. -/
def ofLevel? (d : LogDirective) : List Char → Option LogDirective
  | [] => some d
  | ['='] => some d
  | '=' :: cs => (LogLevel.ofText? (String.ofList cs)).map (fun level => { d with level })
  | _ => none

/-- Reads a directive.  Blanks around it are allowed unless it has an `=` before its level. -/
def ofText? (s : String) : Option LogDirective := do
  let cs := Text.trimChars s.toList
  if !cs.head?.any isFirst then none
  else
    let isTarget : Char → Bool := fun c => c ≠ '=' ∧ c ≠ '['
    let (d, rest) ← match cs.dropWhile isTarget with
      | [] => some (ofWord s, [])
      | '[' :: rest => ofSpan? { target := nonEmpty? (cs.takeWhile isTarget) } rest
      | rest => some ({ target := nonEmpty? (cs.takeWhile isTarget) }, rest)
    if rest ≠ [] ∧ cs ≠ s.toList then none else d.ofLevel? rest

def text (d : LogDirective) : String :=
  let field := match d.field with
    | some field => "\x7b" ++ field ++ "\x7d"
    | none => ""
  let span := if d.span = none ∧ d.field = none then "" else "[" ++ d.span.getD "" ++ field ++ "]"
  match d.target.getD "" ++ span with
  | "" => d.level.name
  | about => about ++ "=" ++ d.level.name

end LogDirective

abbrev LogFilter := List LogDirective

namespace LogFilter

/-- Reads a filter; nothing may stand between two commas. -/
def ofText? (s : String) : Option LogFilter := ((Text.fields ',' s).filter (· ≠ "")).mapM LogDirective.ofText?

def text (f : LogFilter) : String := Text.join "," (f.map LogDirective.text)

end LogFilter
end ServiceExposure
