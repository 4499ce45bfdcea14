import LidarAngle.Settings

/-!
# Writing settings

Settings are written as one section after another with an empty line between them, each with its
header and a line for every item.

A string is written in the plainest form that needs no escapes: double quotes, then single
quotes, then the same in threes, which may span lines. What no such form can hold is written in
double quotes with escapes. In the forms that span lines a line end is put after the opening
quotes, so that a line end at the start of the string is kept.

## Main definitions

* `Settings.Style` - the forms of a string
* `Settings.quote` - a string in its form
* `Settings.line` - the line of an item
* `Settings.render` - a whole file
-/

namespace LidarAngle.Settings

inductive Style where
  | basic
  | literal
  -- In three double quotes.
  | basicLines
  | literalLines
  deriving DecidableEq

/-- A control that only an escape can write. -/
def isControl (c : Char) : Bool :=
  (c < ' ' ∧ c ≠ '\t' ∧ c ≠ '\n') ∨ c = '\x7f'

/-- The longest run of a character, given the length of the run just before. -/
def longestRun (quote : Char) (run : Nat) : List Char → Nat
  | [] => run
  | c :: rest =>
    if c = quote then longestRun quote (run + 1) rest else max run (longestRun quote 0 rest)

/-- The form in which a string is written. -/
def style (text : List Char) : Style :=
  let lines := '\n' ∈ text
  if text.any isControl then if lines then .basicLines else .basic
  else if '\\' ∉ text ∧ '"' ∉ text ∧ ¬lines then .basic
  else if '\x27' ∉ text ∧ ¬lines then .literal
  else if '\\' ∉ text ∧ longestRun '"' 0 text ≤ 2 then .basicLines
  else if longestRun '\x27' 0 text ≤ 2 then .literalLines
  else if lines then .basicLines
  else .basic

/-- A control as its code point. -/
def codePoint (c : Char) : List Char :=
  '\\' :: 'u' :: [c.toNat / 4096 % 16, c.toNat / 256 % 16, c.toNat / 16 % 16, c.toNat % 16].map
    Hex.upper

/-- A character between double quotes that is neither a quote nor a line feed. -/
def escape (c : Char) : List Char :=
  if c = '\x08' then ['\\', 'b']
  else if c = '\t' then ['\\', 't']
  else if c = '\x0c' then ['\\', 'f']
  else if c = '\r' then ['\\', 'r']
  else if c = '\\' then ['\\', '\\']
  else if isControl c then codePoint c
  else [c]

/-- A string between double quotes in one line. -/
def escapeLine (text : List Char) : List Char :=
  text.flatMap fun c =>
    if c = '"' then ['\\', '"'] else if c = '\n' then ['\\', 'n'] else escape c

/-- A string between three double quotes, given the number of quotes written just before: a
third one is escaped. -/
def escapeLines (run : Nat) : List Char → List Char
  | [] => []
  | c :: rest =>
    if c = '"' then
      if run < 2 then '"' :: escapeLines (run + 1) rest else '\\' :: '"' :: escapeLines 0 rest
    else if c = '\n' then '\n' :: escapeLines 0 rest
    else escape c ++ escapeLines 0 rest

/-- The line end after opening quotes, for a string that has one itself. -/
def opening (text : List Char) : List Char :=
  if '\n' ∈ text then ['\n'] else []

/-- A string in a form. -/
def quoteIn (text : List Char) : Style → List Char
  | .basic => '"' :: escapeLine text ++ ['"']
  | .literal => '\x27' :: text ++ ['\x27']
  | .basicLines =>
    List.replicate 3 '"' ++ opening text ++ escapeLines 0 text ++ List.replicate 3 '"'
  | .literalLines =>
    List.replicate 3 '\x27' ++ opening text ++ text ++ List.replicate 3 '\x27'

/-- A string in the plainest form that holds it. -/
def quote (text : List Char) : List Char :=
  quoteIn text (style text)

def value (settings : Settings) : Item → List Char
  | .format => quote (framingName settings.framing)
  | .header => quote settings.header
  | .amplitude => Decimal.integer settings.calibration.amplitude.toInt
  | .phase => Decimal.integer settings.calibration.phase.toInt
  | .offset => Decimal.integer settings.calibration.offset.toInt
  | .start => Decimal.Layout.setting.write settings.sweep.start
  | .stop => Decimal.Layout.setting.write settings.sweep.stop
  | .step => Decimal.Layout.setting.write settings.sweep.step
  | .level => quote settings.level

def line (settings : Settings) (item : Item) : List Char :=
  item.name ++ " = ".toList ++ settings.value item ++ ['\n']

def Section.line (s : Section) : List Char :=
  '[' :: s.name ++ [']', '\n']

/-- A section with its header. -/
def block (settings : Settings) (s : Section) : List Char :=
  s.line ++ s.items.flatMap settings.line

def render (settings : Settings) : List Char :=
  ['\n'].intercalate (Section.all.map settings.block)

end LidarAngle.Settings
