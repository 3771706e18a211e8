import DocMapper.Proofs.Outcome
import DocMapper.Proofs.Value.Collation
import DocMapper.Proofs.Value.Order
import DocMapper.Store.View
import Mathlib.Data.Prod.Lex
import Mathlib.Data.String.Basic

/-!
# Rows of a view

The rows of a view over JSON documents are those of the live documents, each once,
in the order of their keys and then of their identifiers.
-/

namespace DocMapper

namespace Row

def Plain (row : Row) : Prop := row.id.isText = true ∧ row.key.isJson = true

def place (row : Row) : List Token ×ₗ String := toLex (row.key.collation.tokens, row.id.text)

end Row

namespace Database

/-- The documents are JSON objects under texts. -/
def HoldsJson (db : Database) : Prop :=
  ∀ d ∈ db.documents, d.1.isText = true ∧ (Value.map d.2.fields).isJson = true

def isDesign : Value → Bool
  | .str s => designPrefix.toList.isPrefixOf s.toList
  | _ => false

end Database

def Row.shown (docs : Bool) (row : Row) : Value :=
  .ofFields ([("id", row.id), ("key", row.key), ("value", row.value)] ++
    (if docs then [("doc", .map row.document)] else []))

def Row.answer (row : Row) : Value :=
  .ofFields [("id", row.id), ("key", row.key), ("value", row.value), ("doc", .map row.document)]

end DocMapper
