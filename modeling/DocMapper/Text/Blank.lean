/-!
# Blanks

The characters of the white-space property, and texts without them at their
ends.
-/

namespace DocMapper.Text

def isBlank (c : Char) : Bool :=
  let n := c.toNat
  (9 ≤ n && n ≤ 13) || n == 0x20 || n == 0x85 || n == 0xa0 || n == 0x1680 ||
    (0x2000 ≤ n && n ≤ 0x200a) || n == 0x2028 || n == 0x2029 || n == 0x202f ||
    n == 0x205f || n == 0x3000

/-- The four control characters that separate files, groups, records and units
of text. -/
def isInformationSeparator (c : Char) : Bool := 0x1c ≤ c.toNat && c.toNat ≤ 0x1f

theorem isBlank_of_isWhitespace {c : Char} (h : c.isWhitespace) : isBlank c := by
  simp only [Char.isWhitespace, Bool.or_eq_true, decide_eq_true_eq] at h
  rcases h with ((rfl | rfl) | rfl) | rfl <;> decide

def trimBy (test : Char → Bool) (cs : List Char) : List Char :=
  ((cs.dropWhile test).reverse.dropWhile test).reverse

def strip (s : String) : String :=
  String.ofList (trimBy (fun c => isBlank c || isInformationSeparator c) s.toList)

end DocMapper.Text
