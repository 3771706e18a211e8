import DocMapper.Value.Keyed

/-!
# Tables keyed by texts

The text that a key stands for decides where the key is found: two keys that
count as one stand for the same text, or neither stands for a text.  Writing and
erasing under any key therefore act on the lookups of a text in a way that can
be told from that key alone.
-/

namespace DocMapper

namespace Value

theorem isNull_iff {v : Value} : v.isNull = true ↔ v = .null := by
  cases v <;> simp [isNull]

theorem referent_idem : ∀ v : Value, v.referent.referent = v.referent
  | .viewRef name => by simpa [referent] using referent_idem name
  | .null | .bool _ | .int _ | .float _ | .str _ | .bytes _ | .list _ | .tuple _
  | .map _ | .readOnly _ | .record .. | .recordType _ | .eq .. | .isIn ..
  | .atLeast .. | .atMost .. | .compare .. | .all _ => by simp [referent]

theorem sameKey_referent_right (a b : Value) :
    a.sameKey b.referent = a.sameKey b := by
  match a with
  | .viewRef name => simpa [sameKey, agree] using sameKey_referent_right name b
  | .null | .bool _ | .int _ | .float _ | .str _ | .bytes _ | .list _ | .tuple _
  | .map _ | .readOnly _ | .record .. | .recordType _ | .eq .. | .isIn ..
  | .atLeast .. | .atMost .. | .compare .. | .all _ =>
      simp [sameKey, agree, against, referent_idem]

theorem sameKey_referent_left (a b : Value) :
    a.referent.sameKey b = a.sameKey b := by
  match a with
  | .viewRef name =>
      simpa [sameKey, agree, referent] using sameKey_referent_left name b
  | .null | .bool _ | .int _ | .float _ | .str _ | .bytes _ | .list _ | .tuple _
  | .map _ | .readOnly _ | .record .. | .recordType _ | .eq .. | .isIn ..
  | .atLeast .. | .atMost .. | .compare .. | .all _ => simp [referent]

theorem sameKey_text_left (s : String) (b : Value) :
    (Value.str s).sameKey b = true ↔ b.referent = .str s := by
  simp only [sameKey, agree, against, if_true]
  cases b.referent <;> simp [eq_comm (a := s)]

theorem sameKey_text (key : Value) (s : String) :
    key.sameKey (.str s) = true ↔ key.referent = .str s := by
  match key with
  | .viewRef name => simpa [sameKey, agree, referent] using sameKey_text name s
  | .null | .bool _ | .int _ | .float _ | .str _ | .bytes _ | .list _ | .tuple _
  | .map _ | .readOnly _ | .record .. | .recordType _ | .eq .. | .isIn ..
  | .atLeast .. | .atMost .. | .compare .. | .all _ =>
      simp [sameKey, agree, against, referent, isNull, quantity?, entries?]

theorem referent_eq_text_iff {a b : Value} (h : a.sameKey b = true) (s : String) :
    a.referent = .str s ↔ b.referent = .str s := by
  constructor
  · intro ha
    rw [← sameKey_referent_left, ha] at h
    exact (sameKey_text_left s b).1 h
  · intro hb
    rw [← sameKey_referent_right, hb] at h
    exact (sameKey_text a s).1 h

theorem sameKey_text_congr {a b : Value} (h : a.sameKey b = true) (s : String) :
    a.sameKey (.str s) = b.sameKey (.str s) := by
  rw [Bool.eq_iff_iff, sameKey_text, sameKey_text, referent_eq_text_iff h]

theorem sameKey_of_text {a b : Value} {s : String}
    (ha : a.sameKey (.str s) = true) (hb : b.sameKey (.str s) = true) :
    a.sameKey b = true := by
  rw [sameKey_text] at ha hb
  rw [← sameKey_referent_left, ← sameKey_referent_right, ha, hb]
  exact (sameKey_text_left s (.str s)).2 rfl

mutual

theorem agree_self : ∀ v : Value, v.hashable = true → agree true v v = true
  | .viewRef name, h => by
      have inner : name.sameKey name = true := agree_self name h
      have step : name.sameKey (.viewRef name) = true := by
        rw [← sameKey_referent_right] at inner ⊢
        exact inner
      simp only [agree, Bool.not_true, Bool.false_or]
      exact step
  | .null, _ | .bool _, _ | .int _, _ | .float _, _ | .str _, _ | .bytes _, _
  | .recordType _, _ => by simp [agree, against, referent, isNull, quantity?]
  | .tuple items, h => by
      simpa [agree, against, referent] using agreeItems_self items h
  | .all parts, h => by
      simpa [agree, against, referent] using agreeItems_self parts h
  | .eq view value, h | .atLeast view value, h | .atMost view value, h => by
      obtain ⟨hview, hvalue⟩ := Bool.and_eq_true_iff.1 h
      simp [agree, against, referent, agree_self view hview, agree_self value hvalue]
  | .isIn view values, h => by
      obtain ⟨hview, hvalues⟩ := Bool.and_eq_true_iff.1 h
      simp [agree, against, referent, agree_self view hview, agreeItems_self values hvalues]
  | .compare view op value, h => by
      obtain ⟨h, hvalue⟩ := Bool.and_eq_true_iff.1 h
      obtain ⟨hview, hop⟩ := Bool.and_eq_true_iff.1 h
      simp [agree, against, referent, agree_self view hview, agree_self op hop,
        agree_self value hvalue]

theorem agreeItems_self : ∀ vs : List Value, hashableAll vs = true →
    agreeItems true vs vs = true
  | [], _ => rfl
  | v :: vs, h => by
      obtain ⟨first, others⟩ := Bool.and_eq_true_iff.1 h
      rw [agreeItems, agree_self v first, agreeItems_self vs others]
      rfl

end

theorem sameKey_self {v : Value} (h : v.hashable = true) : v.sameKey v = true := agree_self v h

end Value

namespace Keyed

variable {α : Type}

open Value

theorem find?_cons (k key : Value) (v : α) (rest : Keyed α) :
    find? ((k, v) :: rest) key = if k.sameKey key then some v else rest.find? key := by
  unfold find?
  rw [List.find?_cons]
  cases k.sameKey key <;> rfl

theorem find?_set (table : Keyed α) (key : Value) (value : α) (s : String) :
    (table.set key value).find? (.str s) =
      if key.sameKey (.str s) then some value else table.find? (.str s) := by
  induction table with
  | nil => rw [set, find?_cons]
  | cons entry rest ih =>
      obtain ⟨k, v⟩ := entry
      unfold set
      by_cases hk : k.sameKey key = true
      · rw [if_pos hk, find?_cons, find?_cons, sameKey_text_congr hk]
        split <;> rfl
      · rw [if_neg hk, find?_cons, find?_cons, ih]
        by_cases hs : k.sameKey (.str s) = true
        · have other : ¬ key.sameKey (.str s) = true :=
            fun h => hk (sameKey_of_text hs h)
          simp [hs, other]
        · simp [hs]

@[simp] theorem find?_set_text (table : Keyed α) (name s : String) (value : α) :
    (table.set (.str name) value).find? (.str s) =
      if name = s then some value else table.find? (.str s) := by
  rw [find?_set, sameKey_str]
  simp

theorem find?_erase (table : Keyed α) (key : Value) (s : String) :
    (table.erase key).find? (.str s) =
      if key.sameKey (.str s) then none else table.find? (.str s) := by
  induction table with
  | nil => simp [erase, find?]
  | cons entry rest ih =>
      obtain ⟨k, v⟩ := entry
      unfold erase at ih ⊢
      rw [List.filter_cons]
      by_cases hk : k.sameKey key = true
      · rw [if_neg (by simp [hk]), ih, find?_cons, sameKey_text_congr hk]
        split <;> rfl
      · rw [if_pos (by simp [hk]), find?_cons, find?_cons, ih]
        by_cases hs : k.sameKey (.str s) = true
        · have other : ¬ key.sameKey (.str s) = true :=
            fun h => hk (sameKey_of_text hs h)
          simp [hs, other]
        · simp [hs]

theorem set_eq_self {table : Keyed α} {key : Value} {value : α}
    (h : table.find? key = some value) : table.set key value = table := by
  induction table with
  | nil => simp [find?] at h
  | cons entry rest ih =>
      obtain ⟨k, v⟩ := entry
      rw [find?_cons] at h
      unfold set
      split at h
      next hk =>
        cases h
        rw [if_pos hk]
      next hk => rw [if_neg hk, ih h]

theorem set_eq_self_iff {table : Keyed α} {s : String} {old new : α}
    (found : table.find? (.str s) = some old) : table.set (.str s) new = table ↔ new = old := by
  constructor
  · intro same
    have stored := congrArg (fun t => Keyed.find? t (.str s)) same
    simpa [found] using stored
  · rintro rfl
    exact set_eq_self found

theorem set_set_text (table : Keyed α) (s : String) (old new : α) :
    (table.set (.str s) old).set (.str s) new = table.set (.str s) new := by
  induction table with
  | nil =>
      have same : (Value.str s).sameKey (.str s) = true := by rw [sameKey_str, beq_self_eq_true]
      simp [set, same]
  | cons entry rest ih =>
      obtain ⟨k, v⟩ := entry
      by_cases hk : k.sameKey (.str s) = true
      · simp [set, hk]
      · simp [set, hk, ih]

theorem find?_named (table : Keyed α) {key : Value} {s : String}
    (named : key.sameKey (.str s) = true) : table.find? key = table.find? (.str s) := by
  have stands : key.referent = .str s := (sameKey_text key s).1 named
  have alike : ∀ k : Value, k.sameKey key = k.sameKey (.str s) := fun k => by
    rw [← sameKey_referent_right, stands]
  unfold find?
  simp only [alike]

/-! ## Tables without repeated keys -/

def Distinct (table : Keyed α) : Prop :=
  table.Pairwise fun a b => a.1.sameKey b.1 = false

theorem mem_of_find? {table : Keyed α} {key : Value} {value : α}
    (h : table.find? key = some value) :
    ∃ k, (k, value) ∈ table ∧ k.sameKey key = true := by
  obtain ⟨⟨k, v⟩, hfind, rfl⟩ := Option.map_eq_some_iff.1 h
  have same := List.find?_some hfind
  exact ⟨k, List.mem_of_find?_eq_some hfind, same⟩

theorem has_iff {table : Keyed α} {key : Value} :
    table.has key = true ↔ ∃ e ∈ table, e.1.sameKey key = true := by
  rw [has, find?, Option.isSome_map, List.find?_isSome]

theorem has_of_text {table : Keyed α} {key : Value} {s : String} {value : α}
    (h : table.find? (.str s) = some value) (named : key.sameKey (.str s) = true) :
    table.has key = true := by
  obtain ⟨k, mem, same⟩ := mem_of_find? h
  exact has_iff.2 ⟨(k, value), mem, sameKey_of_text same named⟩

theorem erase_eq_self {table : Keyed α} {key : Value} (h : ¬ table.has key = true) :
    table.erase key = table := by
  rw [has_iff] at h
  rw [erase, List.filter_eq_self]
  intro e mem
  simpa using fun same => h ⟨e, mem, same⟩

theorem length_erase_lt {table : Keyed α} {key : Value} (h : table.has key = true) :
    (table.erase key).length < table.length := by
  obtain ⟨e, mem, same⟩ := has_iff.1 h
  exact List.length_filter_lt_length_iff_exists.2 ⟨e, mem, by simp [same]⟩

theorem set_absent {table : Keyed α} {key : Value} (value : α) (h : ¬ table.has key = true) :
    table.set key value = table ++ [(key, value)] := by
  rw [has_iff] at h
  induction table with
  | nil => rfl
  | cons entry rest ih =>
      obtain ⟨k, v⟩ := entry
      have other : ¬ k.sameKey key = true := fun same => h ⟨(k, v), List.mem_cons_self, same⟩
      rw [set, if_neg other, ih fun ⟨e, mem, same⟩ => h ⟨e, List.mem_cons_of_mem _ mem, same⟩]
      rfl

theorem mem_set {table : Keyed α} {key k : Value} {value v : α}
    (h : (k, v) ∈ table.set key value) :
    (k, v) ∈ table ∨
      v = value ∧ (k = key ∨ k.sameKey key = true ∧ ∃ old, (k, old) ∈ table) := by
  induction table with
  | nil =>
      rw [set, List.mem_singleton] at h
      cases h
      exact .inr ⟨rfl, .inl rfl⟩
  | cons first rest ih =>
      obtain ⟨k', v'⟩ := first
      rw [set] at h
      by_cases hk : k'.sameKey key = true
      · rw [if_pos hk, List.mem_cons] at h
        obtain h | h := h
        · cases h
          exact .inr ⟨rfl, .inr ⟨hk, v', List.mem_cons_self⟩⟩
        · exact .inl (List.mem_cons_of_mem _ h)
      · rw [if_neg hk, List.mem_cons] at h
        obtain h | h := h
        · cases h
          exact .inl List.mem_cons_self
        · obtain h | ⟨hv, h | ⟨hs, old, hold⟩⟩ := ih h
          · exact .inl (List.mem_cons_of_mem _ h)
          · exact .inr ⟨hv, .inl h⟩
          · exact .inr ⟨hv, .inr ⟨hs, old, List.mem_cons_of_mem _ hold⟩⟩

theorem Distinct.set {table : Keyed α} (h : table.Distinct) (key : Value) (value : α) :
    (table.set key value).Distinct := by
  induction table with
  | nil => exact List.pairwise_singleton ..
  | cons entry rest ih =>
      obtain ⟨k, v⟩ := entry
      obtain ⟨first, others⟩ := List.pairwise_cons.1 h
      unfold Keyed.set
      by_cases hk : k.sameKey key = true
      · rw [if_pos hk]
        exact List.pairwise_cons.2 ⟨first, others⟩
      · rw [if_neg hk]
        refine List.pairwise_cons.2 ⟨?_, ih others⟩
        rintro ⟨k', v'⟩ hmem
        obtain hmem | ⟨-, rfl | ⟨-, old, hmem⟩⟩ := mem_set hmem
        · exact first _ hmem
        · exact Bool.eq_false_iff.2 hk
        · exact first (k', old) hmem

theorem Distinct.erase {table : Keyed α} (h : table.Distinct) (key : Value) :
    (table.erase key).Distinct :=
  List.Pairwise.filter _ h

theorem Distinct.find?_self {table : Keyed α} (h : table.Distinct) {key : Value} {value : α}
    (self : key.sameKey key = true) (hmem : (key, value) ∈ table) :
    table.find? key = some value := by
  induction table with
  | nil => cases hmem
  | cons entry rest ih =>
      obtain ⟨k, v⟩ := entry
      obtain ⟨first, others⟩ := List.pairwise_cons.1 h
      rw [find?_cons]
      obtain heq | hmem := List.mem_cons.1 hmem
      · cases heq
        rw [if_pos self]
      · have apart : k.sameKey key = false := first _ hmem
        rw [apart, ih others hmem]
        rfl

theorem Distinct.find?_of_mem {table : Keyed α} (h : table.Distinct) {s : String}
    {value : α} (hmem : (.str s, value) ∈ table) : table.find? (.str s) = some value :=
  h.find?_self (sameKey_self rfl) hmem

theorem Distinct.not_has {before rest : Keyed α} {key : Value} {value : α}
    (h : (before ++ (key, value) :: rest).Distinct) : ¬ before.has key = true := by
  rw [has_iff]
  rintro ⟨e, mem, same⟩
  have apart : e.1.sameKey key = false :=
    (List.pairwise_append.1 h).2.2 e mem (key, value) List.mem_cons_self
  rw [same] at apart
  cases apart

theorem update_append {table changes : Keyed α} (h : (table ++ changes).Distinct) :
    table.update changes = table ++ changes := by
  induction changes generalizing table with
  | nil => exact (List.append_nil table).symm
  | cons change rest ih =>
      obtain ⟨key, value⟩ := change
      rw [update, List.foldl_cons, set_absent value h.not_has]
      rw [List.append_cons] at h
      exact (ih h).trans (List.append_cons ..).symm

theorem Distinct.ofPairs {pairs : Keyed α} (h : pairs.Distinct) : Keyed.ofPairs pairs = pairs := by
  have alone : ([] ++ pairs : Keyed α).Distinct := h
  exact update_append alone

theorem distinct_ofPairs (pairs : Keyed α) : (Keyed.ofPairs pairs).Distinct :=
  List.foldlRecOn pairs _ .nil fun _ distinct pair _ => distinct.set pair.1 pair.2

end Keyed

end DocMapper
