/-
Columns and colours of the text reports.

Columns count characters and never cut. A painted text stands between a style sequence and a reset, the padding of its
column inside; a reset within the text is followed by the style again.
-/
import ClassAtlas.Decimal.Binary

namespace ClassAtlas.Report

open ClassAtlas.Decimal

/-- left-aligned column -/
def padRight (width : Nat) (s : String) : String := s ++ fill (width - s.length) ' '

/-- right-aligned column -/
def padLeft (width : Nat) (s : String) : String := fill (width - s.length) ' ' ++ s

/-- styles of painted text -/
inductive Tint where
  | green
  | yellow
  | red
  | cyan
  | bold
  | dimmed
deriving DecidableEq, Repr

namespace Tint

def code : Tint → String
  | .green => "32"
  | .yellow => "33"
  | .red => "31"
  | .cyan => "36"
  | .bold => "1"
  | .dimmed => "2"

def reset : String := "\x1b[0m"

def opening (t : Tint) : String := "\x1b[" ++ t.code ++ "m"

/-- the text in this style, or as it is where colours are off -/
def paint (t : Tint) (colours : Bool) (s : String) : String :=
  if colours then t.opening ++ s.replace reset (reset ++ t.opening) ++ reset else s

end Tint

end ClassAtlas.Report
