import ServiceExposure.Text.Basic
/-!
# Patterns of addresses

A small language of regular expressions, as far as a redirect needs it: a pattern is a sequence of parts and starts at
the beginning of a text.  `Pattern.render` writes it as a regular expression.  `Pattern.captures` says what it matches:
it lists for every match what the groups hold, in the order of preference of a backtracking matcher, which takes an
optional character rather than not, an earlier alternative before a later one, and as much as it can.
-/
namespace ServiceExposure

/-- A part of a pattern. -/
inductive Part where
  | char (c : Char)
  /-- A character that may be left out. -/
  | optional (c : Char)
  /-- One of some texts; a group. -/
  | oneOf (texts : List String)
  /-- Anything up to the end of a line; a group. -/
  | rest
deriving DecidableEq

/-- The parts of a pattern, one after the other. -/
abbrev Pattern := List Part

namespace Pattern

/-- The characters that mean something in a regular expression. -/
def specialChars : List Char :=
  ['\\', '.', '+', '*', '?', '(', ')', '|', '[', ']', '\x7b', '\x7d', '^', '$', '#', '&', '-', '~']

/-- A character that stands for itself. -/
def escapeChar (c : Char) : List Char := if c ∈ specialChars then ['\\', c] else [c]

/-- A regular expression that matches exactly this text. -/
def escape (s : String) : String := String.ofList (s.toList.flatMap escapeChar)

/-- The regular expression of a part. -/
def renderPart : Part → String
  | .char c => String.ofList (escapeChar c)
  | .optional c => String.ofList (escapeChar c) ++ "?"
  | .oneOf texts => "(" ++ Text.join "|" (texts.map escape) ++ ")"
  | .rest => "(.*)"

def render (p : Pattern) : String := "^" ++ Text.join "" (p.map renderPart)

/-- The pattern that matches exactly this text. -/
def literal (s : String) : Pattern := s.toList.map .char

/-- The beginnings of a list with what follows each, the longest first. -/
def splits : List Char → List (List Char × List Char)
  | [] => [([], [])]
  | c :: cs => (splits cs).map (fun p => (c :: p.1, p.2)) ++ [([], c :: cs)]

/-- What a part can take off the front of a text: what it captures, if it is a group, and what is left. -/
def takes : Part → List Char → List (List String × List Char)
  | .char c, cs => (([c].isPrefixOf? cs).map (fun rest => ([], rest))).toList
  | .optional c, cs => (([c].isPrefixOf? cs).map (fun rest => ([], rest))).toList ++ [([], cs)]
  | .oneOf texts, cs => texts.filterMap (fun t => (t.toList.isPrefixOf? cs).map (fun rest => ([t], rest)))
  | .rest, cs =>
    (splits (cs.takeWhile (· ≠ '\n'))).map (fun p => ([String.ofList p.1], p.2 ++ cs.dropWhile (· ≠ '\n')))

/-- What the groups of a pattern capture at the beginning of a text, for every match, the preferred one first. -/
def captures : Pattern → List Char → List (List String)
  | [], _ => [[]]
  | part :: p, cs => (takes part cs).flatMap (fun t => (captures p t.2).map (t.1 ++ ·))

/-- What the groups capture in the match that is preferred. -/
def captures? (p : Pattern) (s : String) : Option (List String) := (captures p s.toList).head?

end Pattern
end ServiceExposure
