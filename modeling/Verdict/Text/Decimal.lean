/-
  Verdict.Text.Decimal — whole numbers in decimal notation, most significant digit first.
-/

namespace Verdict.Text

def digitChar (d : Nat) : Char := Char.ofNat (0x30 + d)

/-- The decimal digits of a number; zero has one digit. -/
def natChars (n : Nat) : List Char :=
  if n < 10 then [digitChar n] else natChars (n / 10) ++ [digitChar (n % 10)]

def intChars : Int → List Char
  | .ofNat n => natChars n
  | .negSucc n => '-' :: natChars (n + 1)

def decimal (n : Int) : String := String.ofList (intChars n)

end Verdict.Text
