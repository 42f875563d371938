import NetReactor.Duration
import NetReactor.Text

/-!
# Settings read from the environment

A setting is the text of a variable, or nothing when it is unset or not text at all. **A text that
does not read as the wanted type counts as unset.** Blanks around the text are dropped first.
-/

namespace NetReactor

/-- The text of a variable, if it has one. -/
abbrev Setting := Option String

/-- The variables that are set to text. -/
abbrev Environment := String → Setting

namespace Setting

def chars (s : Setting) : Option (List Char) := s.map fun t => Text.trim t.toList

def text? (s : Setting) : Option String := s.chars.map String.ofList

def integer? (range : Text.IntRange) (s : Setting) : Option Int := s.chars.bind (Text.integer? range)

def natural? (s : Setting) : Option Nat := s.chars.bind Text.unsigned64?

/-- The two literals only, in lower case. -/
def boolean? (s : Setting) : Option Bool :=
  s.chars.bind fun cs =>
    if cs = "true".toList then some true else if cs = "false".toList then some false else none

/-- A single character. -/
def character? (s : Setting) : Option Char :=
  s.chars.bind fun
    | [c] => some c
    | _ => none

def onWords : List String := ["1", "true", "yes", "on"]

def offWords : List String := ["0", "false", "no", "off"]

/-- A switch by any of its usual words, in any case. -/
def switch (s : Setting) (default : Bool) : Bool :=
  match s.chars with
  | none => default
  | some cs =>
    let word := String.ofList (cs.map Char.toLower)
    if word ∈ onWords then true else if word ∈ offWords then false else default

def millis? (s : Setting) : Option Duration := s.natural?.map Duration.ofMillis

def secs? (s : Setting) : Option Duration := s.natural?.map Duration.ofSecs

end Setting

end NetReactor
