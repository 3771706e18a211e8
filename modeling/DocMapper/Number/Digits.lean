/-!
# Digits

Runs of decimal digits at the front of a text, and the numbers they write.
-/

namespace DocMapper.Digits

def value (ds : List Char) : Nat :=
  ds.foldl (fun n d => 10 * n + (d.toNat - '0'.toNat)) 0

def span (cs : List Char) : List Char × List Char := cs.span Char.isDigit

def sign : List Char → Bool × List Char
  | '-' :: rest => (true, rest)
  | '+' :: rest => (false, rest)
  | cs => (false, cs)

def signed (negative : Bool) (n : Nat) : Int := if negative then -n else n

end DocMapper.Digits
