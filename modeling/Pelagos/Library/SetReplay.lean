import Mathlib.Data.Finset.Basic

/-!
# Replaying additions and removals

A log of additions and removals is folded over a finite set.  The last entry about an element
decides whether the element belongs to the result; an element the log never mentions keeps its
membership.
-/

namespace SetReplay

variable {α β : Type*} [DecidableEq α]

/-- One entry of a membership log. -/
inductive Change (α : Type*) where
  | add (element : α)
  | remove (element : α)
  deriving DecidableEq

namespace Change

/-- The element an entry is about. -/
def subject : Change α → α
  | add element => element
  | remove element => element

/-- Membership of the subject once the entry is applied. -/
def present : Change α → Bool
  | add _ => true
  | remove _ => false

/-- Apply one entry to a finite set. -/
def apply : Finset α → Change α → Finset α
  | set, add element => insert element set
  | set, remove element => set.erase element

theorem mem_apply (set : Finset α) (change : Change α) (element : α) :
    element ∈ change.apply set ↔
      if change.subject = element then change.present = true else element ∈ set := by
  cases change with
  | add added =>
      by_cases same : added = element
      · simp [apply, subject, present, same]
      · simp [apply, subject, same, Ne.symm same]
  | remove removed =>
      by_cases same : removed = element
      · simp [apply, subject, present, same]
      · simp [apply, subject, same, Ne.symm same]

end Change

/-- Apply a whole log, first entry first. -/
def replay (changes : List (Change α)) (set : Finset α) : Finset α :=
  changes.foldl Change.apply set

@[simp]
theorem replay_nil (set : Finset α) : replay [] set = set := rfl

@[simp]
theorem replay_cons (change : Change α) (changes : List (Change α)) (set : Finset α) :
    replay (change :: changes) set = replay changes (change.apply set) := rfl

theorem replay_append (earlier later : List (Change α)) (set : Finset α) :
    replay (earlier ++ later) set = replay later (replay earlier set) :=
  List.foldl_append

/-- The membership decided by the last entry about `element`, if there is one. -/
def verdict (element : α) : List (Change α) → Option Bool
  | [] => none
  | change :: changes =>
      (verdict element changes).or
        (if change.subject = element then some change.present else none)

@[simp]
theorem verdict_nil (element : α) : verdict element [] = none := rfl

theorem verdict_cons (element : α) (change : Change α) (changes : List (Change α)) :
    verdict element (change :: changes) =
      (verdict element changes).or
        (if change.subject = element then some change.present else none) := rfl

theorem verdict_append (element : α) (earlier later : List (Change α)) :
    verdict element (earlier ++ later) = (verdict element later).or (verdict element earlier) := by
  induction earlier with
  | nil => simp
  | cons change earlier ih =>
      simp only [List.cons_append, verdict_cons, ih, Option.or_assoc]

theorem verdict_eq_none_iff {element : α} {changes : List (Change α)} :
    verdict element changes = none ↔ ∀ change ∈ changes, change.subject ≠ element := by
  induction changes with
  | nil => simp
  | cons change changes ih =>
      simp [verdict_cons, Option.or_eq_none_iff, ih, and_comm]

/-- The last entry about an element decides its membership. -/
theorem mem_replay_iff (element : α) (changes : List (Change α)) (set : Finset α) :
    element ∈ replay changes set ↔
      (verdict element changes).getD (decide (element ∈ set)) = true := by
  induction changes generalizing set with
  | nil => simp
  | cons change changes ih =>
      rw [replay_cons, ih, verdict_cons]
      cases verdict element changes with
      | some present => simp
      | none =>
          by_cases same : change.subject = element <;>
            simp [Change.mem_apply, same]

/-- In a log grouped by source, only the group of the one source about `element` matters. -/
theorem verdict_flatMap (element : α) (key : β → α) (log : β → List (Change α))
    (about : ∀ source, ∀ change ∈ log source, change.subject = key source)
    {sources : List β} (distinct : (sources.map key).Nodup) :
    verdict element (sources.flatMap log) =
      (sources.find? fun source => key source = element).bind fun source =>
        verdict element (log source) := by
  induction sources with
  | nil => rfl
  | cons source sources ih =>
      have distinct_tail : (sources.map key).Nodup := (List.nodup_cons.mp distinct).2
      rw [List.flatMap_cons, verdict_append, ih distinct_tail]
      by_cases same : key source = element
      · have others : ∀ other ∈ sources, key other ≠ element := by
          intro other member other_same
          exact (List.nodup_cons.mp distinct).1
            (same.trans other_same.symm ▸ List.mem_map_of_mem member)
        have absent : sources.find? (fun source => key source = element) = none := by
          simpa using others
        simp [absent, same]
      · have silent : verdict element (log source) = none := by
          refine verdict_eq_none_iff.mpr ?_
          intro change member
          rw [about source change member]
          exact same
        simp [silent, same]

end SetReplay
