import DocMapper.Schema.Entity
import DocMapper.Value.Access

/-!
# Design documents

The document that installs the views of one design in a database: it holds the
map source of every declared view.  Only the view of all documents in the
default design has a source of its own.
-/

namespace DocMapper

def defaultAllMap : String := "function(doc) { emit(doc._id, doc) }"

def designPrefix : String := "_design/"

def mapSources (entity : Entity) (maps design : Value) : Outcome Entries := do
  let given ← if maps.truthy then maps.asEntries else pure []
  if design.same entity.defaultDesign && !given.has (.str allView) then
    return given.set (.str allView) (.str defaultAllMap)
  else return given

def viewSource (entity : Entity) (design : Value) (sources : Entries) (view : View) :
    Outcome (Value × Value) := do
  view.name.requireHashable
  match Value.ofOption (sources.find? view.name) with
  | .null =>
      .error (.badValue ("No map source for view '" ++ design.text ++ "/" ++ view.name.text ++
        "' of " ++ entity.name.text))
  | source => return (view.name, .ofFields [("map", source)])

def designDocument (entity : Entity) (maps design : Value) : Outcome Entries := do
  let design := design.orElse entity.defaultDesign
  match entity.designs.find? fun d => d.name.same design with
  | none =>
      .error (.unknownName ("Design '" ++ design.text ++ "' is not declared for " ++
        entity.name.text))
  | some declared =>
      let sources ← mapSources entity maps design
      let views ← declared.views.mapM (viewSource entity design sources)
      return [(.str "_id", .str (designPrefix ++ design.text)),
        (.str "language", .str "javascript"), (.str "views", .map (Keyed.ofPairs views))]

end DocMapper
