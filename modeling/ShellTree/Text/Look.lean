/-!
# Looks

The look of a text on a terminal: a colour, or heavy or underlined letters. A control sequence in
front of the text turns its look on, and one behind it turns all looks off.
-/

namespace ShellTree.Text

inductive Look where
  | red
  | green
  | yellow
  | blue
  | cyan
  | grey
  | bold
  | heading
deriving DecidableEq

def Look.parameters : Look → String
  | .red => "31"
  | .green => "32"
  | .yellow => "33"
  | .blue => "34"
  | .cyan => "36"
  | .grey => "90"
  | .bold => "1"
  | .heading => "1;4"

def Look.on (look : Look) : String := "\x1b[" ++ look.parameters ++ "m"

/-- The control sequence that turns all looks off. -/
def lookOff : String := "\x1b[0m"

def Look.apply (look : Look) (text : String) : String := look.on ++ text ++ lookOff

/-- A text with a look, which comes back after whatever ends a look inside the text. -/
def Look.applyThroughout (look : Look) (text : String) : String :=
  look.apply ((lookOff ++ look.on).intercalate (text.splitOn lookOff))

end ShellTree.Text
