import Mathlib.Data.Finmap

/-!
# Finite maps

Hash maps whose iteration order is never observed are finite maps.  The lemmas state every
operation through `lookup`, so that a proof about two maps never opens their representation.
-/

variable {κ υ : Type*} [DecidableEq κ]

/-- A finite map from keys to values of one type. -/
abbrev HashMap (κ υ : Type*) := Finmap fun _ : κ => υ

namespace HashMap

theorem lookup_insert_eq (map : HashMap κ υ) (key other : κ) (value : υ) :
    (map.insert key value).lookup other = if other = key then some value else map.lookup other := by
  by_cases same : other = key
  · subst same
    simp [Finmap.lookup_insert]
  · simp [same, Finmap.lookup_insert_of_ne _ same]

theorem lookup_erase_eq (map : HashMap κ υ) (key other : κ) :
    (map.erase key).lookup other = if other = key then none else map.lookup other := by
  by_cases same : other = key
  · subst same
    simp [Finmap.lookup_erase]
  · simp [same, Finmap.lookup_erase_ne same]

theorem erase_of_lookup_eq_none {map : HashMap κ υ} {key : κ} (absent : map.lookup key = none) :
    map.erase key = map := by
  refine Finmap.ext_lookup fun other => ?_
  rw [lookup_erase_eq]
  split
  · rename_i same
    rw [same, absent]
  · rfl

/-- Give a key a value, or take its value away. -/
def set (map : HashMap κ υ) (key : κ) : Option υ → HashMap κ υ
  | some value => map.insert key value
  | none => map.erase key

theorem lookup_set (map : HashMap κ υ) (key other : κ) (value : Option υ) :
    (set map key value).lookup other = if other = key then value else map.lookup other := by
  cases value with
  | none => exact lookup_erase_eq map key other
  | some value => exact lookup_insert_eq map key other value

/-- Updates of distinct keys: each key has the value it was given last, or its old one. -/
theorem lookup_foldl_set {updates : List (κ × Option υ)} (distinct : (updates.map Prod.fst).Nodup)
    (map : HashMap κ υ) :
    let updated := updates.foldl (fun map update => set map update.1 update.2) map
    (∀ update ∈ updates, updated.lookup update.1 = update.2) ∧
      ∀ key ∉ updates.map Prod.fst, updated.lookup key = map.lookup key := by
  induction updates generalizing map with
  | nil => simp
  | cons update updates ih =>
      obtain ⟨fresh, distinct_tail⟩ := List.nodup_cons.mp distinct
      obtain ⟨given, others⟩ := ih distinct_tail (set map update.1 update.2)
      refine ⟨fun other member => ?_, fun key absent => ?_⟩
      · rcases List.mem_cons.mp member with rfl | member
        · rw [List.foldl_cons, others other.1 fresh, lookup_set, if_pos rfl]
        · exact given other member
      · obtain ⟨different, absent_tail⟩ : key ≠ update.1 ∧ key ∉ updates.map Prod.fst := by
          simpa only [List.map_cons, List.mem_cons, not_or] using absent
        rw [List.foldl_cons, others key absent_tail, lookup_set, if_neg different]

/-- Append a value to the list kept under a key. -/
def push (map : HashMap κ (List υ)) (key : κ) (value : υ) : HashMap κ (List υ) :=
  map.insert key ((map.lookup key).getD [] ++ [value])

/-- The values pushed under one key, in order. -/
def pushed (entries : List (κ × υ)) (key : κ) : List υ :=
  (entries.filter fun entry => entry.1 = key).map Prod.snd

/-- Pushing entry by entry keeps every value, under its own key and in order. -/
theorem lookup_foldl_push (entries : List (κ × υ)) (map : HashMap κ (List υ)) (key : κ) :
    ((entries.foldl (fun map entry => push map entry.1 entry.2) map).lookup key).getD [] =
      (map.lookup key).getD [] ++ pushed entries key := by
  induction entries generalizing map with
  | nil => simp [pushed]
  | cons entry entries ih =>
      rw [List.foldl_cons, ih, push, lookup_insert_eq]
      by_cases same : key = entry.1
      · subst same
        simp [pushed]
      · simp [pushed, same, Ne.symm same]

/-- Remove a list of keys, absent ones included. -/
def eraseAll (keys : List κ) (map : HashMap κ υ) : HashMap κ υ :=
  keys.foldl (fun map key => map.erase key) map

theorem lookup_eraseAll (keys : List κ) (map : HashMap κ υ) (other : κ) :
    (eraseAll keys map).lookup other = if other ∈ keys then none else map.lookup other := by
  induction keys generalizing map with
  | nil => simp [eraseAll]
  | cons key keys ih =>
      rw [eraseAll, List.foldl_cons, ← eraseAll, ih, lookup_erase_eq]
      by_cases same : other = key <;> simp [same]

theorem mem_iff_lookup_ne_none {map : HashMap κ υ} {key : κ} :
    key ∈ map ↔ map.lookup key ≠ none := by
  rw [Finmap.mem_iff]
  exact Option.ne_none_iff_exists'.symm

/-- Two maps have the same keys exactly when they are defined at the same places. -/
theorem keys_eq_iff {υ' : Type*} {left : HashMap κ υ} {right : HashMap κ υ'} :
    left.keys = right.keys ↔ ∀ key, left.lookup key = none ↔ right.lookup key = none := by
  rw [Finset.ext_iff]
  refine forall_congr' fun key => ?_
  rw [Finmap.mem_keys, Finmap.mem_keys, mem_iff_lookup_ne_none, mem_iff_lookup_ne_none]
  exact not_iff_not

end HashMap
