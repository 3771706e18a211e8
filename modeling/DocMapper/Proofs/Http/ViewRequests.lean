import DocMapper.Http.Operations
import DocMapper.Proofs.Query.Options
import DocMapper.Proofs.Query.References
import DocMapper.Proofs.Value.ReadBack
import Mathlib.Data.List.Nodup

/-!
# Requests for views

The options of a compiled query travel as parameters of a request and, a set of keys, in its
body.  A server reads back what was asked for, so lookups with different options send
different requests.
-/

namespace DocMapper

open Value

namespace Request

def option? (request : Request) (name : String) : Option Value :=
  if name = "keys" then
    match request.body with
    | some (.object members) => (members.lookup name).map Json.toValue
    | _ => none
  else
    (request.query.lookup name).bind fun text => (Json.read? text).map Json.toValue

/-- Every option is given once, the keys in the body and all others as parameters, and is
read there. -/
structure Carries (request : Request) (options : Entries) : Prop where
  once : (request.query.map Prod.fst).Nodup
  parameters : ∀ name, name ∈ request.query.map Prod.fst ↔
    name ≠ "keys" ∧ options.has (.str name) = true
  documents : ("include_docs", "true") ∈ request.query
  keys : options.has (.str "keys") = true →
    request.method = .post ∧ ∃ items, request.body = some (.object [("keys", .array items)])
  others : options.has (.str "keys") = false → request.method = .get ∧ request.body = none
  read : ∀ name, request.option? name = (options.find? (.str name)).map asLists

end Request

theorem Json.Style.standard_oneLine : Json.Style.oneLine.Standard where
  items := ⟨[' '], rfl, List.forall_mem_singleton.2 rfl⟩
  members := ⟨[' '], rfl, List.forall_mem_singleton.2 rfl⟩

theorem Value.Shows.jsonText {j : Json} {v : Value} (shown : Shows j v) (style : Json.Style) :
    v.jsonText style false = .ok (j.write style) := by
  rw [Value.jsonText, shown.tree]

theorem Value.Shows.requestBody {j : Json} {v : Value} (shown : Shows j v) :
    requestBody v = .ok j := by
  rw [DocMapper.requestBody, shown.tree]
  exact if_pos shown.finite

def ReadsAs (v : Value) (text : String) : Prop :=
  (Json.read? text).map Json.toValue = some v.asLists

theorem Value.Shows.readsAs {j : Json} {v : Value} (shown : Shows j v) :
    ReadsAs v (j.write .oneLine) := by
  rw [ReadsAs, Json.read?_write Json.Style.standard_oneLine shown.formed, Option.map_some,
    shown.read]

theorem read_text {found : Option Value} {text : Option String}
    (h : Option.Rel ReadsAs found text) :
    text.isSome = found.isSome ∧
      (text.bind fun text => (Json.read? text).map Json.toValue) = found.map asLists := by
  cases h with
  | none => exact ⟨rfl, rfl⟩
  | some reads => exact ⟨rfl, reads⟩

structure IsParameter (e : Value × Value) (p : String × String) : Prop where
  name : e.1 = .str p.1
  value : Remote.parameterValue e.1 e.2 = .ok p.2
  reads : ReadsAs e.2 p.2

structure AreJsonOptions (options : Entries) : Prop extends AreLookupOptions options where
  json : ∀ e ∈ options, e.2.Everywhere IsJsonPart

theorem Keyed.find?_erase_text {α : Type} (table : Keyed α) (key name : String) :
    (table.erase (.str key)).find? (.str name) =
      if name = key then none else table.find? (.str name) := by
  rw [find?_erase, sameKey_str]
  by_cases same : name = key
  · simp [same]
  · simp [same, Ne.symm same]

namespace AreJsonOptions

variable {options : Entries} (valid : AreJsonOptions options)

include valid

theorem filter_isKeys :
    options.filter (fun e => !Remote.isKeys e.1) = Keyed.erase options (.str "keys") := by
  refine List.filter_congr fun e mem => ?_
  obtain ⟨name, -, key⟩ := valid.exists_name mem
  rw [key, Remote.isKeys, same_str, sameKey_str]

theorem exists_parameter {e : Value × Value} (mem : e ∈ Keyed.erase options (.str "keys")) :
    ∃ p, IsParameter e p := by
  obtain ⟨held, other⟩ := List.mem_filter.1 mem
  obtain ⟨name, option, key⟩ := valid.exists_name held
  obtain ⟨j, shown⟩ := exists_shows (valid.json e held)
  obtain ⟨k, v⟩ := e
  obtain rfl : k = .str name := key
  have json (among : (Value.str name).isAmong Remote.jsonOptions = true) :
      ∃ p, IsParameter (.str name, v) p :=
    ⟨(name, j.write .oneLine), rfl, (if_pos among).trans (shown.jsonText .oneLine), shown.readsAs⟩
  simp only [optionNames, anchorNames, exactOptions, rangeOptions, List.cons_append,
    List.nil_append, List.mem_cons, List.not_mem_nil, or_false] at option
  obtain rfl | rfl | rfl | rfl | rfl := option
  · exact json rfl
  · cases other
  · exact json rfl
  · exact json rfl
  · have found := valid.distinct.find?_of_mem held
    obtain rfl : .bool true = v := Option.some.inj (valid.documents.symm.trans found)
    exact ⟨("include_docs", "true"), rfl, rfl, rfl⟩

theorem exists_parameters {given : Value} (entries : given.entries? = some options) :
    ∃ params, Remote.viewParameters given = .ok params ∧
      List.Forall₂ IsParameter (Keyed.erase options (.str "keys")) params := by
  obtain ⟨params, each⟩ := exists_forall₂ fun _ => valid.exists_parameter
  have made : (Keyed.erase options (.str "keys")).mapM
      (fun e => do return (e.1.text, ← Remote.parameterValue e.1 e.2)) = Except.ok params := by
    refine Outcome.mapM_ok (each.imp fun e p h => ?_)
    rw [h.value, h.name]
    rfl
  refine ⟨params, ?_, each⟩
  rw [Remote.viewParameters, Value.mapping, entries, ← made, ← valid.filter_isKeys]
  rfl

end AreJsonOptions

theorem exists_body {items : List Value} (json : ∀ v ∈ items, v.Everywhere IsJsonPart) :
    ∃ js, requestBody (.ofFields [("keys", .list items)]) = .ok (.object [("keys", .array js)]) ∧
      (Json.array js).toValue = (Value.tuple items).asLists := by
  obtain ⟨js, shown⟩ := exists_forall₂ fun v mem => exists_shows (json v mem)
  have array : Shows (.array js) (.list items) := shows_array rfl shown
  have object : Shows (.object [("keys", .array js)]) (.ofFields [("keys", .list items)]) :=
    shows_object (List.pairwise_singleton ..) (.cons ⟨rfl, array⟩ .nil)
  exact ⟨js, object.requestBody, array.read⟩

/-! ## Requests -/

namespace AreJsonOptions

variable {options : Entries} (valid : AreJsonOptions options) {params : List (String × String)}
  (each : List.Forall₂ IsParameter (Keyed.erase options (.str "keys")) params)

include each

theorem lookup_reads (name : String) :
    Option.Rel ReadsAs (if name = "keys" then none else options.find? (.str name))
      (params.lookup name) := by
  rw [← Keyed.find?_erase_text, ← find?_named]
  refine find?_rel (List.forall₂_map_right_iff.2 ?_) _
  exact each.imp fun _ _ h => ⟨h.name.symm, h.reads⟩

include valid

theorem nodup_names : (params.map Prod.fst).Nodup := by
  have byText := valid.byText.erase (.str "keys")
  have nodup := (distinct_iff_nodup byText.texts).1 byText.distinct
  have names : (Keyed.erase options (.str "keys")).map Prod.fst =
      (params.map Prod.fst).map .str := by
    rw [← List.forall₂_eq_eq_eq, List.map_map, List.forall₂_map_left_iff,
      List.forall₂_map_right_iff]
    exact each.imp fun _ _ h => h.name
  exact List.Nodup.of_map _ (names ▸ nodup)

theorem documents_mem : ("include_docs", "true") ∈ params := by
  have held : (.str "include_docs", .bool true) ∈ options := by
    obtain ⟨k, held, named⟩ := Keyed.mem_of_find? valid.documents
    obtain ⟨name, -, rfl⟩ := valid.exists_name held
    rw [sameKey_str, beq_iff_eq] at named
    exact named ▸ held
  have kept : (.str "include_docs", .bool true) ∈ Keyed.erase options (.str "keys") :=
    List.mem_filter.2 ⟨held, rfl⟩
  obtain ⟨⟨name, text⟩, mem, parameter⟩ := exists_of_mem_right each.flip kept
  cases parameter.name
  cases parameter.value
  exact mem

omit valid in
theorem mem_names (name : String) :
    name ∈ params.map Prod.fst ↔ name ≠ "keys" ∧ options.has (.str name) = true := by
  have found : (params.lookup name).isSome = true ↔ name ∈ params.map Prod.fst := by
    simp [List.lookup_isSome_iff, List.mem_map]
  rw [← found, (read_text (lookup_reads each name)).1, Keyed.has]
  split_ifs with keys
  · simp [keys]
  · simp [keys]

theorem carries {request : Request} (query : request.query = params)
    (keys : options.has (.str "keys") = true →
      request.method = .post ∧ ∃ items, request.body = some (.object [("keys", .array items)]))
    (others : options.has (.str "keys") = false → request.method = .get ∧ request.body = none)
    (read : request.option? "keys" = (options.find? (.str "keys")).map asLists) :
    request.Carries options where
  once := query ▸ valid.nodup_names each
  parameters := query ▸ mem_names each
  documents := query ▸ valid.documents_mem each
  keys := keys
  others := others
  read name := by
    by_cases isKeys : name = "keys"
    · exact isKeys ▸ read
    · have reads := (read_text (lookup_reads each name)).2
      rw [if_neg isKeys] at reads
      rw [Request.option?, if_neg isKeys, query, reads]

omit each

theorem exists_viewRequest {given : Value} (entries : given.entries? = some options)
    (path : String) :
    ∃ request, Remote.viewRequest path given = .ok request ∧ request.Carries options := by
  obtain ⟨params, made, each⟩ := valid.exists_parameters entries
  cases found : options.find? (.str "keys") with
  | none =>
      refine ⟨⟨.get, path, params, none⟩, ?_, ?_⟩
      · rw [Remote.viewRequest, made, Value.mapping, entries]
        simp only [bind, Except.bind, Outcome.ofOption, found]
        rfl
      · exact valid.carries each rfl (by simp [Keyed.has, found]) (fun _ => ⟨rfl, rfl⟩)
          (by rw [found]; rfl)
  | some keys =>
      obtain ⟨items, rfl⟩ := valid.areOptions.keys found
      obtain ⟨key, held, -⟩ := Keyed.mem_of_find? found
      obtain ⟨js, body, read⟩ := exists_body ((valid.json _ held).item rfl)
      refine ⟨⟨.post, path, params, some (.object [("keys", .array js)])⟩, ?_, ?_⟩
      · rw [Remote.viewRequest, made, Value.mapping, entries]
        simp only [bind, Except.bind, Outcome.ofOption, found, Value.items, Value.items?, body]
        rfl
      · exact valid.carries each rfl (fun _ => ⟨rfl, js, rfl⟩) (by simp [Keyed.has, found])
          (by rw [found, Option.map_some, ← read]; rfl)

end AreJsonOptions

/-- A lookup that a query compiles to, all of whose options are JSON values. -/
structure Lookup.Asked (lookup : Lookup) : Prop where
  compiled : ∃ query entity, compileQuery query entity = .ok lookup
  json : ∀ e ∈ lookup.options, e.2.Everywhere IsJsonPart

theorem Lookup.Asked.areJsonOptions {lookup : Lookup} (asked : lookup.Asked) :
    AreJsonOptions lookup.options := by
  obtain ⟨query, entity, compiled⟩ := asked.compiled
  exact ⟨compileQuery_options compiled, asked.json⟩

namespace Remote

theorem exists_fetchView {db design view : String} {options : Value} {request : Request}
    (made : viewRequest (viewPath db design view) options = .ok request) :
    ∃ exchange, fetchView db (.str design) (.str view) options = .ok exchange := by
  simp only [fetchView, nameOf, bind, Except.bind, made]
  exact ⟨_, rfl⟩

theorem viewRequest_of_fetchView {db : String} {design view options : Value}
    {exchange : Exchange Value} (fetched : fetchView db design view options = .ok exchange) :
    ∃ path, viewRequest path options = .ok exchange.request := by
  rw [fetchView] at fetched
  obtain ⟨design, -, fetched⟩ := Outcome.bind_eq_ok.1 fetched
  obtain ⟨view, -, fetched⟩ := Outcome.bind_eq_ok.1 fetched
  obtain ⟨request, made, fetched⟩ := Outcome.bind_eq_ok.1 fetched
  cases fetched
  exact ⟨_, made⟩

theorem carries_of_fetchView {lookup : Lookup} (asked : lookup.Asked) {options : Value}
    (given : options.entries? = some lookup.options) {db : String} {exchange : Exchange Value}
    (fetched : fetchView db lookup.design lookup.view options = .ok exchange) :
    exchange.request.Carries lookup.options := by
  obtain ⟨path, made⟩ := viewRequest_of_fetchView fetched
  obtain ⟨request, made', carries⟩ := asked.areJsonOptions.exists_viewRequest given path
  cases made.symm.trans made'
  exact carries

/-- The request for a compiled query carries its options, and lookups whose options are not
the same JSON values send different requests. -/
theorem options_survive_request {lookup : Lookup} (asked : lookup.Asked) {options : Value}
    (given : options.entries? = some lookup.options) (db : String) :
    (lookup.design.isText = true → lookup.view.isText = true →
      ∃ exchange, fetchView db lookup.design lookup.view options = .ok exchange) ∧
    ∀ exchange, fetchView db lookup.design lookup.view options = .ok exchange →
      exchange.request.Carries lookup.options ∧
      ∀ (db' : String) (lookup' : Lookup) (options' : Value) (exchange' : Exchange Value),
        lookup'.Asked → options'.entries? = some lookup'.options →
        fetchView db' lookup'.design lookup'.view options' = .ok exchange' →
        (∃ name, (lookup'.options.find? (.str name)).map asLists ≠
          (lookup.options.find? (.str name)).map asLists) →
        exchange'.request ≠ exchange.request := by
  refine ⟨fun design view => ?_, fun exchange fetched => ?_⟩
  · obtain ⟨d, design⟩ := isText_iff.1 design
    obtain ⟨v, view⟩ := isText_iff.1 view
    obtain ⟨request, made, -⟩ := asked.areJsonOptions.exists_viewRequest given (viewPath db d v)
    rw [design, view]
    exact exists_fetchView made
  · have carries := carries_of_fetchView asked given fetched
    refine ⟨carries, fun db' lookup' options' exchange' asked' given' fetched' differ same => ?_⟩
    obtain ⟨name, differ⟩ := differ
    have carries' := carries_of_fetchView asked' given' fetched'
    rw [← carries.read, ← carries'.read, same] at differ
    exact differ rfl

end Remote

namespace Articles

def byNull : Entries := [(.str "key", .null), (.str "include_docs", .bool true)]

def byNoKeys : Entries := [(.str "keys", .tuple []), (.str "include_docs", .bool true)]

def titled (options : Entries) : Lookup := ⟨.str "Article", .str "by_title", options⟩

theorem everywhere_true : (Value.bool true).Everywhere IsJsonPart :=
  (everywhere_leaf rfl rfl).2 trivial

theorem asked_byNull : (titled byNull).Asked where
  compiled := ⟨{ Query.everything with clauses := [.eq (.str "by_title") .null] }, entity, rfl⟩
  json := List.forall_mem_cons.2
    ⟨everywhere_null.2 trivial, List.forall_mem_singleton.2 everywhere_true⟩

theorem asked_byNoKeys : (titled byNoKeys).Asked where
  compiled := ⟨{ Query.everything with clauses := [.isIn (.str "by_title") []] }, entity, rfl⟩
  json := List.forall_mem_cons.2
    ⟨everywhere_tuple.2 ⟨trivial, nofun⟩, List.forall_mem_singleton.2 everywhere_true⟩

end Articles

open Articles in
/-- A lookup of null and a lookup of no keys at all. -/
theorem Remote.options_survive_request_of_titles :
    ∃ sought empty : Exchange Value,
      fetchView "library" (.str "Article") (.str "by_title") (.readOnly byNull) = .ok sought ∧
      fetchView "library" (.str "Article") (.str "by_title") (.readOnly byNoKeys) = .ok empty ∧
      sought.request.option? "key" = some .null ∧ empty.request.option? "key" = none ∧
      empty.request.option? "keys" = some (.list []) ∧ empty.request ≠ sought.request := by
  have given : (Value.readOnly byNull).entries? = some (titled byNull).options := rfl
  have given' : (Value.readOnly byNoKeys).entries? = some (titled byNoKeys).options := rfl
  obtain ⟨made, each⟩ := options_survive_request asked_byNull given "library"
  obtain ⟨made', each'⟩ := options_survive_request asked_byNoKeys given' "library"
  obtain ⟨sought, fetched⟩ := made rfl rfl
  obtain ⟨empty, fetched'⟩ := made' rfl rfl
  obtain ⟨carries, apart⟩ := each sought fetched
  obtain ⟨carries', -⟩ := each' empty fetched'
  refine ⟨sought, empty, fetched, fetched', carries.read "key", carries'.read "key",
    carries'.read "keys", ?_⟩
  exact apart "library" _ _ empty asked_byNoKeys given' fetched' ⟨"key", nofun⟩

end DocMapper
