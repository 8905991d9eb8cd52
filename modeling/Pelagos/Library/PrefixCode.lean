import Mathlib.Data.List.Basic

/-!
# Prefix-free codes

When no code word stands at the front of another, a stream splits in one way only into code words
and a rest that begins with none.  A reader of such a stream needs no resynchronisation: on a front
of the words that were written it finds a front of them.
-/

namespace PrefixCode

variable {α β : Type*} {encode : α → List β} {valid : α → Prop}

/-- No code word is empty or stands at the front of another one. -/
structure PrefixFree (encode : α → List β) (valid : α → Prop) : Prop where
  nonempty : ∀ {item}, valid item → encode item ≠ []
  unique : ∀ {left right}, valid left → valid right → encode left <+: encode right → left = right

/-- No code word stands at the front of the stream. -/
def Stuck (encode : α → List β) (valid : α → Prop) (stream : List β) : Prop :=
  ∀ item, valid item → ¬ encode item <+: stream

/-- The stream consists of these code words and a rest that begins with none. -/
structure Splits (encode : α → List β) (valid : α → Prop) (stream : List β) (items : List α)
    (rest : List β) : Prop where
  whole : stream = items.flatMap encode ++ rest
  all_valid : ∀ item ∈ items, valid item
  stuck : Stuck encode valid rest

theorem PrefixFree.same_front (free : PrefixFree encode valid) {left right : α}
    (left_valid : valid left) (right_valid : valid right) {stream : List β}
    (left_front : encode left <+: stream) (right_front : encode right <+: stream) :
    left = right := by
  rcases List.prefix_or_prefix_of_prefix left_front right_front with shorter | longer
  · exact free.unique left_valid right_valid shorter
  · exact (free.unique right_valid left_valid longer).symm

theorem splits_cons {item : α} (item_valid : valid item) {stream rest : List β} {items : List α}
    (later : Splits encode valid stream items rest) :
    Splits encode valid (encode item ++ stream) (item :: items) rest where
  whole := by rw [later.whole, List.flatMap_cons, List.append_assoc]
  all_valid := List.forall_mem_cons.mpr ⟨item_valid, later.all_valid⟩
  stuck := later.stuck

/-- Every stream splits. -/
theorem exists_splits (free : PrefixFree encode valid) (stream : List β) :
    ∃ items rest, Splits encode valid stream items rest := by
  induction length : stream.length using Nat.strongRecOn generalizing stream with
  | ind size ih =>
      by_cases stuck : Stuck encode valid stream
      · exact ⟨[], stream, rfl, by simp, stuck⟩
      · simp only [Stuck, not_forall, not_not] at stuck
        obtain ⟨item, item_valid, back, rfl⟩ := stuck
        have shorter : back.length < size := by
          have word_pos := List.length_pos_iff.mpr (free.nonempty item_valid)
          rw [← length, List.length_append]
          omega
        obtain ⟨items, rest, later⟩ := ih back.length shorter back rfl
        exact ⟨item :: items, rest, splits_cons item_valid later⟩

/-- Code words at the front of a stream are the first ones it splits into. -/
theorem Splits.front (free : PrefixFree encode valid) {stream rest : List β} {items front : List α}
    (splits : Splits encode valid stream items rest) (front_valid : ∀ item ∈ front, valid item)
    (isFront : front.flatMap encode <+: stream) : front <+: items := by
  induction front generalizing stream items with
  | nil => exact List.nil_prefix
  | cons first front ih =>
      have first_valid := front_valid first List.mem_cons_self
      rw [List.flatMap_cons] at isFront
      have first_front : encode first <+: stream := (List.prefix_append _ _).trans isFront
      cases items with
      | nil =>
          rw [splits.whole] at first_front
          exact absurd first_front (splits.stuck first first_valid)
      | cons item items =>
          have item_front : encode item <+: stream := by
            rw [splits.whole, List.flatMap_cons, List.append_assoc]
            exact List.prefix_append _ _
          have same := free.same_front first_valid (splits.all_valid item List.mem_cons_self)
            first_front item_front
          subst same
          have later : Splits encode valid (items.flatMap encode ++ rest) items rest :=
            ⟨rfl, fun other member => splits.all_valid other (List.mem_cons_of_mem _ member),
              splits.stuck⟩
          rw [splits.whole, List.flatMap_cons, List.append_assoc] at isFront
          refine List.cons_prefix_cons.mpr ⟨rfl, ih later ?_ ?_⟩
          · exact fun other member => front_valid other (List.mem_cons_of_mem _ member)
          · exact (List.prefix_append_right_inj _).mp isFront

/-- A stream splits in one way only. -/
theorem Splits.unique (free : PrefixFree encode valid) {stream rest other_rest : List β}
    {items others : List α} (splits : Splits encode valid stream items rest)
    (also : Splits encode valid stream others other_rest) : items = others ∧ rest = other_rest := by
  have forwards : items <+: others :=
    also.front free splits.all_valid (splits.whole ▸ List.prefix_append _ _)
  have backwards : others <+: items :=
    splits.front free also.all_valid (also.whole ▸ List.prefix_append _ _)
  have same : items = others := forwards.eq_of_length_le backwards.length_le
  subst same
  exact ⟨rfl, List.append_cancel_left (splits.whole.symm.trans also.whole)⟩

/-- A front of the words that were written splits into a front of them. -/
theorem Splits.of_written (free : PrefixFree encode valid) {stream rest : List β}
    {items written : List α} (splits : Splits encode valid stream items rest)
    (written_valid : ∀ item ∈ written, valid item) (arrived : stream <+: written.flatMap encode) :
    items <+: written := by
  obtain ⟨back, whole⟩ := arrived
  have only : Splits encode valid (written.flatMap encode) written [] := by
    refine ⟨(List.append_nil _).symm, written_valid, fun item item_valid empty => ?_⟩
    exact free.nonempty item_valid (List.prefix_nil.mp empty)
  refine only.front free splits.all_valid ?_
  rw [← whole, splits.whole, List.append_assoc]
  exact List.prefix_append _ _

end PrefixCode
