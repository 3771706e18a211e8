import DocMapper.Proofs.Record.Encoding
import DocMapper.Proofs.Value.KeyTexts

/-!
# Keys of encodings

A map is encoded entry by entry, so that every key is kept, exactly if no two of its keys have
one text.  Keys that are no texts do not share theirs with each other: what can be lost is an
entry whose key is written as a text that is a key beside it.
-/

namespace DocMapper

open Value

theorem distinct_encodedEach_iff {entries : Entries} :
    (encodedEach entries).Distinct ↔ (entries.map fun e => e.1.text).Nodup := by
  have strings : (encodedEach entries).map Prod.fst =
      (entries.map fun e => e.1.text).map Value.str := by
    rw [encodedEach, List.map_map, List.map_map]
    rfl
  rw [distinct_iff_nodup (encodedEach_texts entries), strings,
    List.nodup_map_iff fun _ _ => Value.str.inj]

theorem encodeValue_keeps_iff {v : Value} {entries : Entries} (named : v.named? = some entries)
    (distinct : entries.Distinct) :
    encodeValue v = .map (encodedEach entries) ↔ (entries.map fun e => e.1.text).Nodup := by
  rw [encodeValue_named named distinct, Value.map.injEq, ← distinct_encodedEach_iff]
  exact ⟨fun same => same ▸ Keyed.distinct_ofPairs _, fun apart => apart.ofPairs⟩

theorem text_key {k : Value} (text : k.isText = true) : k = .str k.text := by
  obtain ⟨s, rfl⟩ := isText_iff.1 text
  rfl

theorem nodup_texts_iff {entries : Entries} (distinct : entries.Distinct)
    (scalar : ∀ e ∈ entries, e.1.IsScalar) :
    (entries.map fun e => e.1.text).Nodup ↔
      ∀ a ∈ entries, ∀ b ∈ entries, a.1.isText = false → b.1 ≠ .str a.1.text := by
  constructor
  · intro nodup a ha b hb nameless shown
    have same : a = b := List.inj_on_of_nodup_map nodup ha hb (by rw [shown]; rfl)
    rw [same, shown] at nameless
    cases nameless
  · intro apart
    refine List.pairwise_map.2 (distinct.imp_of_mem fun {a b} ha hb different same => ?_)
    cases na : a.1.isText with
    | true =>
        cases nb : b.1.isText with
        | true =>
            rw [text_key na, same, ← text_key nb, sameKey_self (scalar b hb).hashable] at different
            cases different
        | false => exact apart b hb a ha nb (same ▸ text_key na)
    | false =>
        cases nb : b.1.isText with
        | true => exact apart a ha b hb na (same ▸ text_key nb)
        | false =>
            rw [scalar_eq_of_text (scalar a ha) (scalar b hb) na nb same,
              sameKey_self (scalar b hb).hashable] at different
            cases different

/-- A record is written whole, at any depth, exactly where the texts of the keys are different.
Scalar keys have different texts unless one is a text and another is written as it. -/
theorem encodeRecord_keeps_keys {record : Value} {values : Entries}
    (fields : recordFields record = .ok values) (keyed : record.Everywhere KeysDiffer) :
    ∃ document, encodeRecord record = .ok document ∧ encodeValue record = .map document ∧
      ∀ part, part.Within record → ∀ entries, part.named? = some entries →
        (encodeValue part = .map (encodedEach entries) ↔
          (entries.map fun e => e.1.text).Nodup) ∧
        ((∀ e ∈ entries, e.1.IsScalar) →
          (encodeValue part = .map (encodedEach entries) ↔
            ∀ a ∈ entries, ∀ b ∈ entries, a.1.isText = false → b.1 ≠ .str a.1.text)) := by
  have distinct := keyed.here values (named?_of_recordFields fields)
  obtain ⟨written, encoded⟩ := encodeRecord_fields fields distinct
  refine ⟨_, written, encoded, fun part within entries named => ?_⟩
  have apart : entries.Distinct := keyed part within entries named
  have keeps := encodeValue_keeps_iff named apart
  exact ⟨keeps, fun scalar => keeps.trans (nodup_texts_iff apart scalar)⟩

namespace Shapes

def scores : Entries :=
  [(.int 1, .str "a"), (.bool false, .null), (.bytes [98], .tuple [.str "c"])]

def scored : Value := .map [(.str "scores", .map scores)]

def clash : Entries := [(.int 1, .str "a"), (.str "1", .str "b")]

end Shapes

open Shapes in
theorem encodeRecord_keeps_scores :
    ∃ document, encodeRecord scored = .ok document ∧ encodeValue scored = .map document ∧
      encodeValue (.map scores) = .map (encodedEach scores) := by
  have keyed : scored.Everywhere KeysDiffer := by
    have apart : scores.Distinct := by unfold Keyed.Distinct scores; decide
    refine everywhere_map.2 ⟨?_, List.forall_mem_singleton.2 (everywhere_map.2 ⟨?_, ?_⟩)⟩
    · rintro entries ⟨⟩
      exact List.pairwise_singleton ..
    · rintro entries ⟨⟩
      exact apart
    · simp [scores, everywhere_str, everywhere_null, everywhere_tuple, KeysDiffer, named?, fields?]
  obtain ⟨document, written, encoded, keeps⟩ :=
    encodeRecord_keeps_keys (rfl : recordFields scored = .ok [(.str "scores", .map scores)]) keyed
  refine ⟨document, written, encoded, ?_⟩
  have within : (Value.map scores).Within scored := .entry rfl (.head _) (.self _)
  refine ((keeps _ within scores rfl).2 ?_).2 ?_
  · simp [scores, IsScalar]
  · simp [scores]

open Shapes in
theorem encodeRecord_drops_key :
    clash.Distinct ∧ (∀ e ∈ clash, e.1.IsScalar) ∧ recordFields (.map clash) = .ok clash ∧
      encodeRecord (.map clash) = .ok [(.str "1", .str "b")] ∧
      encodeValue (.map clash) ≠ .map (encodedEach clash) := by
  have apart : clash.Distinct := by unfold Keyed.Distinct clash; decide
  refine ⟨apart, ?_, rfl, rfl, ?_⟩
  · simp [clash, IsScalar]
  · rw [Ne, encodeValue_keeps_iff rfl apart]
    decide

end DocMapper
