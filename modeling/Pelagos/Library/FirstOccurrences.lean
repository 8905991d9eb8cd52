import Mathlib.Data.Finset.Insert

/-!
# The first of each kind

A reader of a stream keeps a set of the keys it has seen and passes on the items whose key is new.
What it passes on are the first items of each key, in the order of the stream.
-/

namespace FirstOccurrences

variable {α κ : Type*} [DecidableEq κ] {key : α → κ}

/-- The keys that were seen, and the items that were passed on. -/
structure Seen (α κ : Type*) where
  known : Finset κ
  passed : List α

namespace Seen

def empty : Seen α κ := { known := ∅, passed := [] }

/-- The next item of the stream. -/
def next (key : α → κ) (seen : Seen α κ) (item : α) : Seen α κ :=
  if key item ∈ seen.known then seen
  else { known := insert (key item) seen.known, passed := seen.passed ++ [item] }

end Seen

/-- These are the first items of each key. -/
structure Firsts (key : α → κ) (stream firsts : List α) : Prop where
  sublist : firsts.Sublist stream
  distinct : (firsts.map key).Nodup
  complete : ∀ item ∈ stream, key item ∈ firsts.map key
  first : ∀ item ∈ firsts, stream.find? (fun other => key other = key item) = some item

theorem firsts_nil : Firsts key [] [] where
  sublist := List.Sublist.slnil
  distinct := List.nodup_nil
  complete _ member := by cases member
  first _ member := by cases member

variable {stream firsts : List α} {item : α}

/-- An item whose key was seen changes nothing. -/
theorem Firsts.skip (kept : Firsts key stream firsts) (seen : key item ∈ firsts.map key) :
    Firsts key (stream ++ [item]) firsts where
  sublist := kept.sublist.trans (List.sublist_append_left _ _)
  distinct := kept.distinct
  complete other member := by
    rcases List.mem_append.mp member with earlier | last
    · exact kept.complete other earlier
    · rwa [List.mem_singleton.mp last]
  first other member := by
    rw [List.find?_append, kept.first other member]
    rfl

/-- An item with a new key is the first one with it. -/
theorem Firsts.pass (kept : Firsts key stream firsts) (fresh : key item ∉ firsts.map key) :
    Firsts key (stream ++ [item]) (firsts ++ [item]) where
  sublist := kept.sublist.append (List.Sublist.refl _)
  distinct := by
    rw [List.map_append, List.map_singleton]
    exact List.nodup_append'.mpr ⟨kept.distinct, List.nodup_singleton _,
      List.disjoint_singleton.mpr fresh⟩
  complete other member := by
    rw [List.map_append, List.mem_append]
    rcases List.mem_append.mp member with earlier | last
    · exact .inl (kept.complete other earlier)
    · exact .inr (List.mem_map_of_mem last)
  first other member := by
    rw [List.find?_append]
    rcases List.mem_append.mp member with earlier | last
    · rw [kept.first other earlier]
      rfl
    · obtain rfl := List.mem_singleton.mp last
      have absent : stream.find? (fun earlier => key earlier = key other) = none := by
        rw [List.find?_eq_none]
        intro earlier member same
        exact fresh (decide_eq_true_eq.mp same ▸ kept.complete earlier member)
      rw [absent]
      simp

/-- The keys that are known are those of the items that were passed on. -/
theorem firsts_foldl_next (stream : List α) :
    Firsts key stream (stream.foldl (Seen.next key) .empty).passed ∧
      ∀ other, other ∈ (stream.foldl (Seen.next key) .empty).known ↔
        other ∈ (stream.foldl (Seen.next key) .empty).passed.map key := by
  induction stream using List.reverseRecOn with
  | nil => exact ⟨firsts_nil, fun other => by simp [Seen.empty]⟩
  | append_singleton stream item ih =>
      obtain ⟨kept, known⟩ := ih
      rw [List.foldl_concat]
      generalize stream.foldl (Seen.next key) .empty = seen at kept known ⊢
      unfold Seen.next
      split
      · rename_i old
        exact ⟨kept.skip ((known _).mp old), known⟩
      · rename_i fresh
        refine ⟨kept.pass (mt (known _).mpr fresh), fun other => ?_⟩
        rw [Finset.mem_insert, known, List.map_append, List.mem_append, List.map_singleton,
          List.mem_singleton, or_comm]

end FirstOccurrences
