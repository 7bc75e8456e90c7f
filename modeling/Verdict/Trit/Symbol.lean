/-
  Verdict.Trit.Symbol — the symbols and names that a balanced digit may be written with.

  Blanks around a symbol are dropped and case does not matter. An empty symbol and an
  unknown one are different errors; both keep the symbol as it was written.
-/

import Verdict.Error
import Verdict.Text.Case

namespace Verdict.Trit

def positiveSymbols : List String := ["+", "1", "T", "TRUE", "P", "POS", "POSITIVE"]

def zeroSymbols : List String := ["0", ".", "Z", "U", "UNK", "UNKNOWN"]

/-- Among them the minus sign U+2212. -/
def negativeSymbols : List String := ["-", "\u2212", "F", "FALSE", "N", "NEG", "NEGATIVE"]

/-- The digit with a symbol in capitals. -/
def ofCapitals? (s : String) : Option Trit :=
  if positiveSymbols.contains s then some positive
  else if zeroSymbols.contains s then some zero
  else if negativeSymbols.contains s then some negative
  else none

def ofSymbol (symbol : String) : Except Error Trit :=
  let trimmed := Text.strip symbol
  if trimmed = "" then .error (.emptySymbol symbol)
  else
    match ofCapitals? (Text.upper trimmed) with
    | some t => .ok t
    | none => .error (.unknownSymbol symbol)

end Verdict.Trit
