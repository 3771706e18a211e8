import DocMapper.Http.Operations
import DocMapper.Proofs.Text.Percent

/-!
# Paths of resources

A server reads a path by cutting it at its slashes and decoding what stands
between them.  It finds the resource for which the path was built, so different
resources have different paths.
-/

namespace DocMapper.Remote

inductive Resource where
  | database (db : String)
  | document (db id : String)
  | view (db design name : String)
  deriving DecidableEq, Repr

namespace Resource

def path : Resource → String
  | .database db => databasePath db
  | .document db id => documentPath db id
  | .view db design name => viewPath db design name

def isDesign (id : String) : Bool := designPrefix.toList.isPrefixOf id.toList

/-- How many slashes the path has.  The one in the identifier of a design document
is kept; no other slash of a name is. -/
def slashes : Resource → Nat
  | .database _ => 1
  | .document _ id => if isDesign id then 3 else 2
  | .view _ _ _ => 5

end Resource

def segments (path : String) : List String :=
  (path.toList.splitOn '/').map fun segment => Percent.decode (String.ofList segment)

def joined (names : List String) : String := "/".intercalate (names.map Percent.encode)

theorem segments_joined {names : List String} (some_name : names ≠ []) :
    segments (joined names) = names := by
  have closed : ∀ segment ∈ (names.map Percent.encode).map String.toList, '/' ∉ segment := by
    simp [Percent.slash_not_mem_encode]
  have cut := List.splitOn_intercalate _ closed (by simpa using some_name)
  rw [segments, joined, String.toList_intercalate, show "/".toList = ['/'] from rfl, cut]
  simp [Function.comp_def]

theorem count_slash_joined (names : List String) :
    (joined names).toList.count '/' = names.length - 1 := by
  have outside (name : String) := List.count_eq_zero_of_not_mem (Percent.slash_not_mem_encode name)
  induction names with
  | nil => rfl
  | cons name names ih =>
    cases names with
    | nil => simp [joined, outside]
    | cons next names =>
      simp only [joined, List.map_cons] at ih ⊢
      rw [String.intercalate_cons_cons, String.toList_append, String.toList_append,
        List.count_append, List.count_append, ih, outside]
      simp [Nat.add_comm]

theorem isSegmentChar_of_mem_joined {names : List String} {c : Char}
    (inside : c ∈ (joined names).toList) : c = '/' ∨ Percent.isSegmentChar c := by
  induction names with
  | nil => simp [joined] at inside
  | cons name names ih =>
    cases names with
    | nil => exact .inr (Percent.isSegmentChar_of_mem_encode (by simpa [joined] using inside))
    | cons next names =>
      simp only [joined, List.map_cons, String.intercalate_cons_cons, String.toList_append,
        List.mem_append] at inside
      obtain (here | slash) | later := inside
      · exact .inr (Percent.isSegmentChar_of_mem_encode here)
      · exact .inl (by simpa using slash)
      · exact ih (by simpa [joined] using later)

theorem afterStart?_eq_some {start s rest : String} (found : afterStart? start s = some rest) :
    start ++ rest = s := by
  rw [afterStart?] at found
  split at found
  next isStart =>
    obtain ⟨after, whole⟩ := List.isPrefixOf_iff_prefix.mp isStart
    obtain rfl := Option.some.inj found
    rw [← String.toList_inj, String.toList_append, String.toList_ofList, ← whole]
    simp
  next => cases found

theorem isSome_afterStart? (start s : String) :
    (afterStart? start s).isSome = start.toList.isPrefixOf s.toList := by
  rw [afterStart?]
  split
  next isStart => rw [isStart]; rfl
  next other => rw [Bool.not_eq_true _ |>.mp other]; rfl

def documentNames (id : String) : List String :=
  match afterStart? designPrefix id with
  | some name => ["_design", name]
  | none => [id]

theorem length_documentNames (id : String) :
    (documentNames id).length = if Resource.isDesign id then 2 else 1 := by
  rw [documentNames, Resource.isDesign, ← isSome_afterStart?]
  cases afterStart? designPrefix id <;> rfl

@[simp] theorem encode_empty : Percent.encode "" = "" := rfl

@[simp] theorem encode_design : Percent.encode "_design" = "_design" := by decide +kernel

@[simp] theorem encode_view : Percent.encode "_view" = "_view" := by decide +kernel

theorem joined_documentNames (id : String) : joined (documentNames id) = documentSegments id := by
  rw [documentSegments, documentNames]
  cases afterStart? designPrefix id with
  | none => simp [joined]
  | some name => simp [joined, designPrefix]

namespace Resource

def names : Resource → List String
  | .database db => ["", db]
  | .document db id => "" :: db :: documentNames id
  | .view db design name => ["", db, "_design", design, "_view", name]

theorem path_eq_joined (r : Resource) : r.path = joined r.names := by
  cases r with
  | database db => simp [path, names, joined, databasePath]
  | document db id =>
    simp only [path, documentPath, databasePath, names, ← joined_documentNames]
    cases found : documentNames id with
    | nil => grind [documentNames]
    | cons name rest => simp [joined, String.append_assoc]
  | view db design name =>
    rw [← String.toList_inj]
    simp [path, names, joined, databasePath, viewPath, designPrefix]

def ofPath? (path : String) : Option Resource :=
  match segments path with
  | ["", db] => some (.database db)
  | ["", db, id] => some (.document db id)
  | ["", db, "_design", name] => some (.document db (designPrefix ++ name))
  | ["", db, "_design", design, "_view", name] => some (.view db design name)
  | _ => none

theorem ofPath?_path (r : Resource) : ofPath? r.path = some r := by
  have names_ne : r.names ≠ [] := by cases r <;> simp [names]
  rw [ofPath?, path_eq_joined, segments_joined names_ne]
  cases r with
  | database db => rfl
  | document db id =>
    simp only [names, documentNames]
    cases found : afterStart? designPrefix id with
    | none => rfl
    | some name => simp [afterStart?_eq_some found]
  | view db design name => rfl

theorem length_names (r : Resource) : r.names.length = r.slashes + 1 := by
  cases r with
  | database db => rfl
  | document db id =>
    simp only [names, slashes, List.length_cons, length_documentNames]
    split <;> rfl
  | view db design name => rfl

end Resource

theorem resource_read_from_path (r r' : Resource) :
    Resource.ofPath? r.path = some r ∧ (r.path = r'.path ↔ r = r') ∧
      r.path.toList.count '/' = r.slashes ∧
      ∀ c ∈ r.path.toList, c = '/' ∨ Percent.isSegmentChar c := by
  refine ⟨r.ofPath?_path, ⟨fun same => ?_, congrArg _⟩, ?_, ?_⟩
  · have read := r.ofPath?_path
    rw [same, r'.ofPath?_path] at read
    exact (Option.some.inj read).symm
  · rw [Resource.path_eq_joined, count_slash_joined, Resource.length_names, Nat.add_sub_cancel]
  · intro c inside
    rw [Resource.path_eq_joined] at inside
    exact isSegmentChar_of_mem_joined inside

end DocMapper.Remote
