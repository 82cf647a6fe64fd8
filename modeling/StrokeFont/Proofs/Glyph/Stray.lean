import StrokeFont.Proofs.Glyph.Blank

namespace StrokeFont

def Note.stray? : Note → Option (Char × Nat)
  | strayCharacter c offset => some (c, offset)
  | glyphSkipped _ | glyphWithoutWidth _ | glyphMissing _ => none

namespace Glyph

def reported (program : String) : List (Char × Nat) := (trace program).notes.filterMap Note.stray?

def without (offsets : List Nat) (offset : Nat) (text : List Char) : List Char :=
  ((text.zipIdx offset).filter (·.2 ∉ offsets)).map Prod.fst

namespace Grammar

section Strays

variable {mode : Mode} {offset : Nat} {c : Char} {text : List Char}

theorem stray_iff : (mode.step c).2 = .stray ↔ mode = .opcode ∧ ¬ isBlank c ∧ c ∉ opcodes := by
  cases mode with
  | opcode =>
      rw [← opcode?_eq_none_iff]
      cases hc : opcode? c with
      | none => by_cases hblank : isBlank c <;> simp [Mode.step, hc, hblank]
      | some progress => cases progress <;> simp [Mode.step, hc, Progress.outcome]
  | operand pending negative =>
      cases hc : operandAt? negative c with
      | none => simp [Mode.step, hc]
      | some n => cases pending <;> simp [Mode.step, hc, Pending.supply, Progress.outcome]

theorem idle_of_stray (h : (mode.step c).2 = .stray) : Idle mode c := by
  obtain ⟨rfl, -, hc⟩ := stray_iff.1 h
  refine ⟨?_, congrArg completed h⟩
  simp only [Mode.step, (opcode?_eq_none_iff c).2 hc]

theorem strays_cons (mode : Mode) (offset : Nat) (c : Char) (text : List Char) :
    mode.strays offset (c :: text) = (if (mode.step c).2 = .stray then [(c, offset)] else []) ++
      (mode.step c).1.strays (offset + 1) text := by
  generalize hstep : mode.step c = outcome
  obtain ⟨next, event⟩ := outcome
  cases event with
  | quiet | instruction i | stray => simp [Mode.strays, hstep]

/-- A character is stray by how the text before it is read. -/
theorem mem_strays_iff {d : Char} {place : Nat} : (d, place) ∈ mode.strays offset text ↔
    ∃ i, place = offset + i ∧ text[i]? = some d ∧ ((mode.after (text.take i)).step d).2 = .stray := by
  induction text generalizing mode offset with
  | nil => simp [Mode.strays]
  | cons c text ih =>
      have hhere : (d, place) ∈ (if (mode.step c).2 = .stray then [(c, offset)] else []) ↔
          (mode.step c).2 = .stray ∧ d = c ∧ place = offset := by
        split <;> simp [*]
      rw [strays_cons, List.mem_append, hhere, ih]
      constructor
      · rintro (⟨hc, rfl, rfl⟩ | ⟨i, rfl, hi, hd⟩)
        · exact ⟨0, rfl, rfl, hc⟩
        · exact ⟨i + 1, by omega, hi, hd⟩
      · rintro ⟨_ | i, rfl, hi, hd⟩
        · obtain rfl := Option.some.inj hi
          exact .inl ⟨hd, rfl, rfl⟩
        · exact .inr ⟨i, by omega, hi, hd⟩

theorem le_of_mem_strays {s : Char × Nat} (h : s ∈ mode.strays offset text) : offset ≤ s.2 := by
  obtain ⟨i, hi, -⟩ := mem_strays_iff.1 h
  omega

theorem strays_pairwise (mode : Mode) (offset : Nat) (text : List Char) :
    (mode.strays offset text).Pairwise fun s t => s.2 < t.2 := by
  induction text generalizing mode offset with
  | nil => exact .nil
  | cons c text ih =>
      rw [strays_cons, List.pairwise_append]
      refine ⟨?_, ih _ _, ?_⟩
      · split
        · exact List.pairwise_singleton _ _
        · exact .nil
      · intro s hs t ht
        have hlater := le_of_mem_strays ht
        split at hs
        · obtain rfl := List.mem_singleton.1 hs
          exact hlater
        · cases hs

theorem without_cons (offsets : List Nat) (offset : Nat) (c : Char) (text : List Char) :
    without offsets offset (c :: text) =
      (if offset ∈ offsets then [] else [c]) ++ without offsets (offset + 1) text := by
  by_cases h : offset ∈ offsets <;> simp [without, h]

theorem without_congr {offsets places : List Nat}
    (h : ∀ place, offset ≤ place → (place ∈ offsets ↔ place ∈ places)) (text : List Char) :
    without offsets offset text = without places offset text := by
  simp only [without]
  congr 1
  apply List.filter_congr
  intro c hc
  simp only [h c.2 (List.le_snd_of_mem_zipIdx hc)]

def withoutStrays (mode : Mode) (offset : Nat) (text : List Char) : List Char :=
  without ((mode.strays offset text).map Prod.snd) offset text

theorem withoutStrays_cons (mode : Mode) (offset : Nat) (c : Char) (text : List Char) :
    withoutStrays mode offset (c :: text) = (if (mode.step c).2 = .stray then [] else [c]) ++
      withoutStrays (mode.step c).1 (offset + 1) text := by
  have hlater : offset ∉ ((mode.step c).1.strays (offset + 1) text).map Prod.snd := by
    rw [List.mem_map]
    rintro ⟨s, hs, rfl⟩
    exact absurd (le_of_mem_strays hs) (Nat.not_succ_le_self _)
  rw [withoutStrays, without_cons, strays_cons, List.map_append]
  congr 1
  · by_cases h : (mode.step c).2 = .stray
    · simp [h]
    · simp [h, hlater]
  · apply without_congr
    intro place hplace
    have hne : place ≠ offset := by omega
    split <;> simp [hne]

theorem drops_strays (mode : Mode) (offset : Nat) (text : List Char) :
    Drops mode text (withoutStrays mode offset text) := by
  induction text generalizing mode offset with
  | nil => exact .nil mode
  | cons c text ih =>
      have hrest := ih (mode.step c).1 (offset + 1)
      rw [withoutStrays_cons]
      split
      · rename_i h
        have hidle := idle_of_stray h
        rw [hidle.1] at hrest ⊢
        exact .delete hidle hrest
      · exact .keep c hrest

theorem strays_withoutStrays (mode : Mode) (offset start : Nat) (text : List Char) :
    mode.strays start (withoutStrays mode offset text) = [] := by
  induction text generalizing mode offset start with
  | nil => rfl
  | cons c text ih =>
      rw [withoutStrays_cons]
      split
      · rename_i h
        rw [(idle_of_stray h).1]
        exact ih mode (offset + 1) start
      · rename_i h
        rw [List.singleton_append, strays_cons, if_neg h]
        exact ih (mode.step c).1 (offset + 1) (start + 1)

end Strays

end Grammar

open Grammar

theorem reported_eq (program : String) : reported program = Mode.opcode.strays 0 program.toList := by
  simp [reported, trace, List.filterMap_map, Function.comp_def, Note.stray?]

/-- Stray characters are reported in the order of the program: those behind a complete program that are
neither blank nor an opcode. Without them the program means what it meant, or is cut off as it was, and
has no stray characters. -/
theorem strays_can_be_dropped (program : String) :
    let strays := reported program
    let rest := String.ofList (without (strays.map Prod.snd) 0 program.toList)
    strays.Pairwise (fun s t => s.2 < t.2) ∧
    (∀ c offset, (c, offset) ∈ strays ↔ program.toList[offset]? = some c ∧ ¬ isBlank c ∧ c ∉ opcodes ∧
      ∃ before : Sentence, before.text = program.toList.take offset) ∧
    (trace rest).notes = [] ∧
    (trace rest).result.toOption = (trace program).result.toOption := by
  intro strays rest
  have hstrays : strays = Mode.opcode.strays 0 program.toList := reported_eq program
  have hrest : rest.toList = withoutStrays .opcode 0 program.toList := by
    rw [String.toList_ofList, withoutStrays, hstrays]
  refine ⟨?_, ?_, ?_, ?_⟩
  · rw [hstrays]
    exact strays_pairwise _ _ _
  · intro c offset
    simp only [hstrays, mem_strays_iff, Nat.zero_add, stray_iff, after_eq_opcode_iff]
    constructor
    · rintro ⟨_, rfl, hc, hbefore, hblank, hopcode⟩
      exact ⟨hc, hblank, hopcode, hbefore⟩
    · rintro ⟨hc, hblank, hopcode, hbefore⟩
      exact ⟨offset, rfl, hc, hbefore, hblank, hopcode⟩
  · rw [trace, hrest, strays_withoutStrays, List.map_nil]
  · rw [trace_toOption, trace_toOption, hrest, instructions?_of_drops (drops_strays _ _ _)]

example : reported "zM1-z2 5dP" = [('z', 0), ('5', 7)] := by decide

end Glyph

end StrokeFont
