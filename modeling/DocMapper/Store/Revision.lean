import DocMapper.Text.Quoted

/-!
# Revisions

A revision names one state of a document: how many writes led to it, and a token
drawn for the last of them.  Tokens come from a supply; what it holds is left
open, and the same token may come twice.
-/

namespace DocMapper

/-- The `n`-th token of the numbered supply: 32 hexadecimal digits. -/
def tokenText (n : Nat) : String := String.ofList (Text.hexDigits 32 n)

/-- A supply of tokens, and how many were drawn from it so far. -/
structure Tokens where
  token : Nat → String
  drawn : Nat

namespace Tokens

def numbered : Tokens := ⟨tokenText, 0⟩

def next (tokens : Tokens) : String := tokens.token (tokens.drawn + 1)

def rest (tokens : Tokens) : Tokens := { tokens with drawn := tokens.drawn + 1 }

end Tokens

structure Revision where
  generation : Nat
  token : String
  deriving DecidableEq, Repr

namespace Revision

def text (revision : Revision) : String :=
  toString revision.generation ++ "-" ++ revision.token

/-- The revision of a write that follows another one, or of a first write. -/
def after (previous : Option Revision) (token : String) : Revision :=
  ⟨((previous.map generation).getD 0) + 1, token⟩

theorem after_generation (previous : Option Revision) (token : String) :
    (after previous token).generation = ((previous.map generation).getD 0) + 1 := rfl

end Revision

end DocMapper
