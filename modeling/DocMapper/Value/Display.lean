import DocMapper.Value.Basic
import DocMapper.Number.Shortest
import DocMapper.Text.Quoted

/-!
# The text of a value

Messages name values by their display text.  A string that is shown on its own
stands without quotes (`Value.text`); inside any other value it is quoted.
-/

namespace DocMapper

def joinTexts (separator : String) (texts : List String) : String :=
  separator.intercalate texts

namespace Value

mutual

def display : Value → String
  | .null => "None"
  | .bool b => if b then "True" else "False"
  | .int i => toString i
  | .float x => x.text
  | .str s => Text.quoted s
  | .bytes data => Text.quotedBytes data
  | .list items => "[" ++ joinTexts ", " (displayItems items) ++ "]"
  | .tuple items =>
      "(" ++ joinTexts ", " (displayItems items) ++ (if items.length = 1 then ",)" else ")")
  | .map entries => "\x7b" ++ joinTexts ", " (displayEntries entries) ++ "\x7d"
  | .readOnly entries =>
      "mappingproxy(\x7b" ++ joinTexts ", " (displayEntries entries) ++ "\x7d)"
  | .record type fields => type ++ "(" ++ joinTexts ", " (displayFields fields) ++ ")"
  | .recordType name => "<class '" ++ name ++ "'>"
  | .viewRef name => "view_key(" ++ display name ++ ")"
  | .eq view value => "Eq(view=" ++ display view ++ ", value=" ++ display value ++ ")"
  | .isIn view values =>
      "In(view=" ++ display view ++ ", values=(" ++ joinTexts ", " (displayItems values) ++
        (if values.length = 1 then ",))" else "))")
  | .atLeast view value => "Gte(view=" ++ display view ++ ", value=" ++ display value ++ ")"
  | .atMost view value => "Lte(view=" ++ display view ++ ", value=" ++ display value ++ ")"
  | .compare view op value =>
      "Compare(view=" ++ display view ++ ", op=" ++ display op ++ ", value=" ++
        display value ++ ")"
  | .all parts =>
      "And(predicates=(" ++ joinTexts ", " (displayItems parts) ++
        (if parts.length = 1 then ",))" else "))")
termination_by structural x => x

def displayItems : List Value → List String
  | [] => []
  | v :: vs => display v :: displayItems vs
termination_by structural x => x

def displayEntries : List (Value × Value) → List String
  | [] => []
  | (k, v) :: rest => (display k ++ ": " ++ display v) :: displayEntries rest
termination_by structural x => x

def displayFields : List (String × Value) → List String
  | [] => []
  | (f, v) :: rest => (f ++ "=" ++ display v) :: displayFields rest
termination_by structural x => x

end

/-- A string as it is, any other value by its display text. -/
def text : Value → String
  | .str s => s
  | v => v.display

end Value

end DocMapper
