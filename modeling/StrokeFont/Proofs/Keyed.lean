import Mathlib.Data.List.Induction
import Mathlib.Data.List.Nodup
import StrokeFont.Table

namespace StrokeFont.Keyed

variable {κ α : Type} [DecidableEq κ] {key k : κ} {value v : α} {entries : List (κ × α)}

theorem mem_of_find? (h : find? key entries = some value) : (key, value) ∈ entries := by
  induction entries with
  | nil => cases h
  | cons entry rest ih =>
      unfold find? at h
      split at h
      · rename_i hkey
        obtain rfl := Option.some.inj h
        exact hkey ▸ List.mem_cons_self
      · exact List.mem_cons_of_mem _ (ih h)

theorem find?_eq_none_iff : find? key entries = none ↔ key ∉ entries.map (·.1) := by
  induction entries with
  | nil => simp [find?]
  | cons entry rest ih =>
      rw [find?, List.map_cons, List.mem_cons, not_or, ← ih]
      by_cases hkey : entry.1 = key
      · rw [if_pos hkey]
        exact iff_of_false (Option.some_ne_none _) fun h => h.1 hkey.symm
      · rw [if_neg hkey]
        exact (and_iff_right fun h => hkey h.symm).symm

theorem exists_find? (h : key ∈ entries.map (·.1)) : ∃ value, find? key entries = some value :=
  Option.ne_none_iff_exists'.1 fun hnone => find?_eq_none_iff.1 hnone h

theorem find?_eq_some_iff (hnodup : (entries.map (·.1)).Nodup) :
    find? key entries = some value ↔ (key, value) ∈ entries := by
  refine ⟨mem_of_find?, fun h => ?_⟩
  obtain ⟨found, hfound⟩ := exists_find? (List.mem_map_of_mem h)
  have hsame := List.inj_on_of_nodup_map hnodup (mem_of_find? hfound) h rfl
  rw [hfound, (Prod.mk.inj hsame).2]

theorem find?_perm {other : List (κ × α)} (hnodup : (entries.map (·.1)).Nodup) (h : entries.Perm other)
    (key : κ) : find? key entries = find? key other := by
  have hnodup' : (other.map (·.1)).Nodup := (h.map _).nodup_iff.1 hnodup
  apply Option.ext
  intro value
  rw [find?_eq_some_iff hnodup, find?_eq_some_iff hnodup', h.mem_iff]

theorem keys_insert (key : κ) (value : α) (entries : List (κ × α)) :
    (insert key value entries).map (·.1) =
      if key ∈ entries.map (·.1) then entries.map (·.1) else entries.map (·.1) ++ [key] := by
  induction entries with
  | nil => rfl
  | cons entry rest ih =>
      rw [insert]
      by_cases hkey : entry.1 = key
      · rw [if_pos hkey, if_pos (List.mem_map.2 ⟨entry, List.mem_cons_self, hkey⟩), List.map_cons,
          List.map_cons, hkey]
      · simp only [if_neg hkey, List.map_cons, ih, List.mem_cons, (Ne.symm hkey : key ≠ entry.1), false_or]
        split <;> rfl

/-- The value that a key is given last, in a list that may mention keys again. -/
def GivenLast (entries : List (κ × α)) (key : κ) (value : α) : Prop :=
  ∃ before after, entries = before ++ (key, value) :: after ∧ key ∉ after.map (·.1)

theorem ofList_concat (entries : List (κ × α)) (k : κ) (v : α) :
    ofList (entries ++ [(k, v)]) = insert k v (ofList entries) :=
  List.foldl_concat _ _ _ _

theorem mem_keys_ofList : key ∈ (ofList entries).map (·.1) ↔ key ∈ entries.map (·.1) := by
  induction entries using List.reverseRecOn with
  | nil => rfl
  | append_singleton entries entry ih =>
      obtain ⟨k, v⟩ := entry
      rw [ofList_concat, keys_insert, List.map_append, List.mem_append, ← ih]
      split
      · rename_i hk
        simp only [List.map_cons, List.map_nil, List.mem_singleton]
        exact (or_iff_left_of_imp fun h => h ▸ hk).symm
      · rw [List.mem_append]
        rfl

theorem keys_ofList_pairwise (entries : List (κ × α)) :
    ((ofList entries).map (·.1)).Pairwise fun a b =>
      (entries.map (·.1)).idxOf a < (entries.map (·.1)).idxOf b := by
  induction entries using List.reverseRecOn with
  | nil => exact .nil
  | append_singleton entries entry ih =>
      obtain ⟨k, v⟩ := entry
      -- A further entry does not move the first mention of a key that is there already.
      have hold : ∀ a ∈ entries.map (·.1), (entries.map (·.1) ++ [k]).idxOf a = (entries.map (·.1)).idxOf a :=
        fun a ha => List.idxOf_append_of_mem ha
      have hkept : ((ofList entries).map (·.1)).Pairwise fun a b =>
          (entries.map (·.1) ++ [k]).idxOf a < (entries.map (·.1) ++ [k]).idxOf b := by
        refine ih.imp_of_mem fun {a b} ha hb hlt => ?_
        rwa [hold a (mem_keys_ofList.1 ha), hold b (mem_keys_ofList.1 hb)]
      rw [ofList_concat, keys_insert, List.map_append, List.map_singleton]
      split
      · exact hkept
      · rename_i hk
        have hnew : k ∉ entries.map (·.1) := fun h => hk (mem_keys_ofList.2 h)
        refine List.pairwise_append.2 ⟨hkept, List.pairwise_singleton _ _, ?_⟩
        intro a ha b hb
        have ha := mem_keys_ofList.1 ha
        obtain rfl := List.mem_singleton.1 hb
        rw [hold a ha, List.idxOf_append_of_notMem hnew]
        exact Nat.lt_add_right _ (List.idxOf_lt_length_of_mem ha)

theorem givenLast_concat :
    GivenLast (entries ++ [(k, v)]) key value ↔ if k = key then v = value else GivenLast entries key value := by
  constructor
  · rintro ⟨before, after, hsplit, hafter⟩
    cases after using List.reverseRecOn with
    | nil =>
        obtain ⟨-, hlast⟩ := List.append_inj' hsplit rfl
        obtain ⟨rfl, rfl⟩ := Prod.mk.inj (List.singleton_inj.1 hlast)
        rw [if_pos rfl]
    | append_singleton after entry =>
        rw [← List.cons_append, ← List.append_assoc] at hsplit
        obtain ⟨hrest, hlast⟩ := List.append_inj' hsplit rfl
        obtain rfl := List.singleton_inj.1 hlast
        simp only [List.map_append, List.map_singleton, List.mem_append, List.mem_singleton, not_or] at hafter
        rw [if_neg (Ne.symm hafter.2)]
        exact ⟨before, after, hrest, hafter.1⟩
  · split
    · rename_i hk
      rintro rfl
      exact ⟨entries, [], by rw [hk], List.not_mem_nil⟩
    · rename_i hk
      rintro ⟨before, after, rfl, hafter⟩
      refine ⟨before, after ++ [(k, v)], by rw [List.append_assoc, List.cons_append], ?_⟩
      simp only [List.map_append, List.map_singleton, List.mem_append, List.mem_singleton, not_or]
      exact ⟨hafter, Ne.symm hk⟩

theorem find?_ofList : find? key (ofList entries) = some value ↔ GivenLast entries key value := by
  induction entries using List.reverseRecOn with
  | nil =>
      refine iff_of_false (Option.some_ne_none _).symm ?_
      rintro ⟨before, after, hsplit, -⟩
      exact List.append_ne_nil_of_right_ne_nil _ (List.cons_ne_nil _ _) hsplit.symm
  | append_singleton entries entry ih =>
      obtain ⟨k, v⟩ := entry
      rw [ofList_concat, find?_insert, givenLast_concat]
      split
      · exact Option.some_inj
      · exact ih

end StrokeFont.Keyed
