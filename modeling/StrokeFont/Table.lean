namespace StrokeFont

/-- Names are numbers, and each of them stands for something. -/
abbrev Table (α : Type) := Nat → α

namespace Table

variable {α : Type}

def ofList (entries : List α) (default : α) : Table α := fun n => entries.getD n default

def assign (table : Table α) (name : Nat) (value : α) : Table α :=
  fun n => if n = name then value else table n

@[simp] theorem assign_same (table : Table α) (name : Nat) (value : α) :
    table.assign name value name = value :=
  if_pos rfl

theorem assign_of_ne (table : Table α) {name n : Nat} (value : α) (h : n ≠ name) :
    table.assign name value n = table n :=
  if_neg h

@[simp] theorem assign_self (table : Table α) (name : Nat) :
    table.assign name (table name) = table := by
  funext n
  by_cases h : n = name
  · rw [h, assign_same]
  · exact table.assign_of_ne _ h

end Table

namespace Keyed

variable {κ α : Type} [DecidableEq κ]

/-- A new key goes to the end; a present one keeps its place and takes the new value. -/
def insert (key : κ) (value : α) : List (κ × α) → List (κ × α)
  | [] => [(key, value)]
  | entry :: rest =>
      if entry.1 = key then (key, value) :: rest else entry :: insert key value rest

def find? (key : κ) : List (κ × α) → Option α
  | [] => none
  | entry :: rest => if entry.1 = key then some entry.2 else find? key rest

def ofList (entries : List (κ × α)) : List (κ × α) :=
  entries.foldl (fun made entry => insert entry.1 entry.2 made) []

theorem find?_insert (key k : κ) (value : α) (entries : List (κ × α)) :
    find? k (insert key value entries) = if key = k then some value else find? k entries := by
  induction entries with
  | nil => rfl
  | cons entry rest ih =>
      simp only [insert]
      split
      · rename_i h
        simp only [find?, h]
        split <;> rfl
      · rename_i h
        simp only [find?, ih]
        split
        · rename_i hk
          rw [if_neg fun he => h (hk.trans he.symm)]
        · rfl

end Keyed

end StrokeFont
