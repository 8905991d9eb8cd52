import Mathlib.Data.List.Basic

/-!
# Descriptor tables

A process names its open descriptions by numbers.  Opening one takes the lowest free number and
closing one frees its number.  As long as everybody closes only numbers of their own, each number
denotes a description of exactly the one who holds it.
-/

/-- For each number the one for whom its description was opened; `none` for a free number. -/
abbrev DescriptorTable (ο : Type*) := List (Option ο)

namespace DescriptorTable

variable {ο : Type*}

/-- The one whose description a number denotes. -/
def denotes (table : DescriptorTable ο) (number : Nat) : Option ο := (table[number]?).join

/-- The number that the next description gets. -/
def lowestFree : DescriptorTable ο → Nat
  | [] => 0
  | none :: _ => 0
  | some _ :: table => lowestFree table + 1

/-- Open a description. -/
def opened (owner : ο) : DescriptorTable ο → DescriptorTable ο
  | [] => [some owner]
  | none :: table => some owner :: table
  | some other :: table => some other :: opened owner table

/-- Close whatever a number denotes. -/
def closed (table : DescriptorTable ο) (number : Nat) : DescriptorTable ο := table.set number none

@[simp]
theorem denotes_nil (number : Nat) : denotes ([] : DescriptorTable ο) number = none := rfl

@[simp]
theorem denotes_cons_zero (entry : Option ο) (table : DescriptorTable ο) :
    denotes (entry :: table) 0 = entry := by
  simp [denotes]

@[simp]
theorem denotes_cons_succ (entry : Option ο) (table : DescriptorTable ο) (number : Nat) :
    denotes (entry :: table) (number + 1) = denotes table number := by
  simp [denotes]

theorem denotes_lowestFree (table : DescriptorTable ο) :
    denotes table (lowestFree table) = none := by
  induction table with
  | nil => rfl
  | cons entry table ih =>
      cases entry with
      | none => exact denotes_cons_zero none table
      | some other => rwa [lowestFree, denotes_cons_succ]

theorem denotes_opened (owner : ο) (table : DescriptorTable ο) (number : Nat) :
    denotes (opened owner table) number =
      if number = lowestFree table then some owner else denotes table number := by
  induction table generalizing number with
  | nil => cases number <;> simp [opened, lowestFree]
  | cons entry table ih =>
      cases entry with
      | none => cases number <;> simp [opened, lowestFree]
      | some other =>
          cases number with
          | zero => simp [opened, lowestFree]
          | succ number => simp [opened, lowestFree, ih]

theorem denotes_closed (table : DescriptorTable ο) (closing number : Nat) :
    denotes (closed table closing) number =
      if number = closing then none else denotes table number := by
  rw [denotes, closed, List.getElem?_set]
  by_cases same : closing = number
  · rw [if_pos same, if_pos same.symm]
    split <;> rfl
  · rw [if_neg same, if_neg (Ne.symm same)]
    rfl

/-! ## Who holds what -/

/-- A number denotes a description of exactly the one who holds it. -/
def Holds (table : DescriptorTable ο) (held : ο → List Nat) : Prop :=
  ∀ owner number, table.denotes number = some owner ↔ number ∈ held owner

variable {table : DescriptorTable ο} {held next : ο → List Nat} {owner : ο} {number : Nat}

/-- A free number is held by no one. -/
theorem Holds.lowestFree_notMem (holds : table.Holds held) (owner : ο) :
    table.lowestFree ∉ held owner := by
  intro member
  have taken := (holds owner table.lowestFree).mpr member
  rw [denotes_lowestFree] at taken
  cases taken

theorem Holds.of_same (holds : table.Holds held)
    (same : ∀ owner number, number ∈ next owner ↔ number ∈ held owner) : table.Holds next :=
  fun owner number => (holds owner number).trans (same owner number).symm

theorem Holds.opened (holds : table.Holds held)
    (others : ∀ other, other ≠ owner → ∀ number, number ∈ next other ↔ number ∈ held other)
    (gains : ∀ number, number ∈ next owner ↔ number = table.lowestFree ∨ number ∈ held owner) :
    (opened owner table).Holds next := by
  intro other number
  rw [denotes_opened]
  by_cases mine : other = owner
  · subst mine
    rw [gains, ← holds]
    split
    · rename_i fresh
      simp [fresh]
    · rename_i taken
      simp [taken]
  · rw [others other mine, ← holds]
    split
    · rename_i fresh
      rw [fresh, denotes_lowestFree]
      simp [Ne.symm mine]
    · exact Iff.rfl

theorem Holds.closed (holds : table.Holds held) (mine : number ∈ held owner)
    (others : ∀ other, other ≠ owner → ∀ number, number ∈ next other ↔ number ∈ held other)
    (loses : ∀ other, other ∈ next owner ↔ other ∈ held owner ∧ other ≠ number) :
    (table.closed number).Holds next := by
  intro other candidate
  rw [denotes_closed]
  by_cases same : other = owner
  · subst same
    rw [loses, ← holds]
    split
    · rename_i closing
      simp [closing]
    · rename_i open_number
      simp [open_number]
  · rw [others other same, ← holds]
    split
    · rename_i closing
      rw [closing, (holds owner number).mpr mine]
      simp [Ne.symm same]
    · exact Iff.rfl

end DescriptorTable
