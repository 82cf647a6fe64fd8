import Mathlib.Data.String.Basic
import StrokeFont.Proofs.Keyed
import StrokeFont.Proofs.Settings.Refusal

namespace StrokeFont.Settings

open Binary.Format (double)

def knownNames : List String := ["font_size", "dot_size", "stroke_width", "line_spacing"]

theorem isName_iff {name : String} : Key.isName name = true ↔ name ∈ knownNames := by
  have hnames : knownNames = Key.all.map Key.name := rfl
  simp only [Key.isName, hnames, List.any_eq_true, beq_iff_eq, List.mem_map]

section Names

variable {names other : List String}

theorem sortNames_perm (names : List String) : (sortNames names).Perm names :=
  List.mergeSort_perm names _

theorem pairwise_le_sortNames (names : List String) : (sortNames names).Pairwise (· ≤ ·) := by
  have hle (a b : String) : (!decide (b < a)) = true ↔ a ≤ b := by
    rw [Bool.not_eq_true', decide_eq_false_iff_not, not_lt]
  have hsorted : (sortNames names).Pairwise fun a b => (!decide (b < a)) = true := by
    apply List.pairwise_mergeSort
    · intro a b c hab hbc
      exact (hle a c).2 (((hle a b).1 hab).trans ((hle b c).1 hbc))
    · intro a b
      rw [Bool.or_eq_true, hle, hle]
      exact le_total a b
  exact hsorted.imp fun {a b} => (hle a b).1

theorem pairwise_lt_sortNames (h : names.Nodup) : (sortNames names).Pairwise (· < ·) := by
  have hnodup := (sortNames_perm names).nodup_iff.2 h
  exact ((pairwise_le_sortNames names).and hnodup).imp fun ⟨hle, hne⟩ => lt_of_le_of_ne hle hne

theorem sortNames_congr (h : names.Perm other) : sortNames names = sortNames other := by
  apply List.Perm.eq_of_pairwise (fun a b _ _ => le_antisymm) (pairwise_le_sortNames names)
    (pairwise_le_sortNames other)
  exact (sortNames_perm names).trans (h.trans (sortNames_perm other).symm)

end Names

def Value.integer? : Value → Option Int
  | integer n => some n
  | _ => none

def Value.number? : Value → Option Binary.Number
  | integer n => some (double.nearest n)
  | float x => some x
  | _ => none

variable {entries : List (String × Value)} {key : Key} {s : Settings} {α : Type}

/-- Whether a table holds a value of another kind than its key asks for. -/
def Mistyped (entries : List (String × Value)) (key : Key) : Prop :=
  ∃ value, (key.name, value) ∈ entries ∧ key.takes value = false

/-- What a table says under a name, or something else when it does not mention the name. -/
def Says (entries : List (String × Value)) (name : String) (meaning : Value → Option α) (otherwise x : α) :
    Prop :=
  (∃ value, (name, value) ∈ entries ∧ meaning value = some x) ∨ name ∉ entries.map (·.1) ∧ x = otherwise

theorem accepts_eq_false_iff (hnodup : (entries.map (·.1)).Nodup) :
    key.accepts entries = false ↔ Mistyped entries key := by
  constructor
  · intro h
    cases hvalue : Keyed.find? key.name entries with
    | none =>
        rw [Key.accepts, hvalue] at h
        cases h
    | some value =>
        rw [accepts_of_some hvalue] at h
        exact ⟨value, Keyed.mem_of_find? hvalue, h⟩
  · rintro ⟨value, hmem, htakes⟩
    rw [accepts_of_some ((Keyed.find?_eq_some_iff hnodup).2 hmem), htakes]

theorem accepts_iff (hnodup : (entries.map (·.1)).Nodup) :
    key.accepts entries = true ↔ ¬ Mistyped entries key := by
  rw [← accepts_eq_false_iff hnodup, Bool.not_eq_false]

theorem ofTable_perm {other : List (String × Value)} (hnodup : (entries.map (·.1)).Nodup)
    (h : entries.Perm other) : ofTable other = ofTable entries := by
  by_cases hknown : ∀ entry ∈ entries, Key.isName entry.1 = true
  · have hknown' : ∀ entry ∈ other, Key.isName entry.1 = true :=
      fun entry hentry => hknown entry (h.mem_iff.2 hentry)
    have hread : read other = read entries := by
      funext s key
      simp only [read, Keyed.find?_perm hnodup h]
    rw [ofTable_eq_foldlM hknown, ofTable_eq_foldlM hknown', hread]
  · have hknown' : ¬ ∀ entry ∈ other, Key.isName entry.1 = true :=
      fun hall => hknown fun entry hentry => hall entry (h.mem_iff.1 hentry)
    rw [ofTable_of_unknown hknown, ofTable_of_unknown hknown', sortNames_congr ((h.map _).filter _)]

theorem ofTable_unknown (hnodup : (entries.map (·.1)).Nodup) {name : String} (hmem : name ∈ entries.map (·.1))
    (hname : name ∉ knownNames) :
    ∃ names, ofTable entries = .error (.unknownKeys names) ∧ names.Pairwise (· < ·) ∧
      ∀ name, name ∈ names ↔ name ∈ entries.map (·.1) ∧ name ∉ knownNames := by
  have hunknown : ¬ ∀ entry ∈ entries, Key.isName entry.1 = true := by
    intro hall
    obtain ⟨entry, hentry, rfl⟩ := List.mem_map.1 hmem
    exact hname (isName_iff.1 (hall entry hentry))
  refine ⟨_, ofTable_of_unknown hunknown, pairwise_lt_sortNames (hnodup.filter _), ?_⟩
  intro name
  rw [(sortNames_perm _).mem_iff, List.mem_filter, ← isName_iff, Bool.not_eq_true', Bool.not_eq_true]

theorem foldlM_read_of_not_accepts {earlier later : List Key} (hsizes : ∀ other ∈ earlier, other ≠ .lineSpacing)
    (hearlier : ∀ other ∈ earlier, other.accepts entries = true) (hkey : key.accepts entries = false)
    (s : Settings) : (earlier ++ key :: later).foldlM (read entries) s = .error key.mismatch := by
  induction earlier generalizing s with
  | nil =>
      rw [List.nil_append, List.foldlM_cons, read_of_not_accepts hkey]
      rfl
  | cons first earlier ih =>
      rw [List.forall_mem_cons] at hsizes hearlier
      obtain ⟨t, ht⟩ := read_of_accepts hearlier.1 hsizes.1 s
      rw [List.cons_append, List.foldlM_cons, ht]
      exact ih hsizes.2 hearlier.2 t

theorem ne_lineSpacing_of_split {earlier later : List Key} (h : Key.all = earlier ++ key :: later) :
    ∀ other ∈ earlier, other ≠ .lineSpacing := by
  have hsizes : Key.sizes = earlier ++ (key :: later).dropLast := by
    rw [← List.dropLast_append_of_ne_nil (List.cons_ne_nil _ _), ← h]
    rfl
  intro other hother
  exact Key.ne_lineSpacing_of_mem_sizes other (hsizes ▸ List.mem_append_left _ hother)

section Read

variable {meaning : Value → Option α} {otherwise : α}

theorem read_says (put : α → Settings) (hotherwise : put otherwise = s)
    (hset : ∀ value, (key.name, value) ∈ entries →
      ∃ x, meaning value = some x ∧ key.set s value = .ok (put x)) :
    ∃ x, Says entries key.name meaning otherwise x ∧ read entries s key = .ok (put x) := by
  cases hvalue : Keyed.find? key.name entries with
  | none =>
      refine ⟨otherwise, .inr ⟨Keyed.find?_eq_none_iff.1 hvalue, rfl⟩, ?_⟩
      rw [read_of_none hvalue, hotherwise]
  | some value =>
      have hmem := Keyed.mem_of_find? hvalue
      obtain ⟨x, hx, hput⟩ := hset value hmem
      refine ⟨x, .inl ⟨value, hmem, hx⟩, ?_⟩
      rw [read_of_some hvalue, hput]

theorem takes_of_not_mistyped (h : ¬ Mistyped entries key) {value : Value}
    (hmem : (key.name, value) ∈ entries) : key.takes value = true :=
  eq_true_of_ne_false fun htakes => h ⟨value, hmem, htakes⟩

theorem integer_of_takes {value : Value} (h : key.takes value = true) (hkey : key ≠ .lineSpacing) :
    ∃ n, value = .integer n := by
  cases value with
  | integer n => exact ⟨n, rfl⟩
  | float x =>
      cases key with
      | lineSpacing => exact absurd rfl hkey
      | _ => cases h
  | _ => cases key <;> cases h

theorem read_size_says {clamp : Int → Int} {otherwise : Int} (put : Int → Settings)
    (hotherwise : put otherwise = s) (hset : ∀ n, key.set s (.integer n) = .ok (put (clamp n)))
    (hkey : key ≠ .lineSpacing) (htyped : ¬ Mistyped entries key) :
    ∃ n, Says entries key.name (fun value => value.integer?.map clamp) otherwise n ∧
      read entries s key = .ok (put n) := by
  apply read_says put hotherwise
  intro value hmem
  obtain ⟨n, rfl⟩ := integer_of_takes (takes_of_not_mistyped htyped hmem) hkey
  exact ⟨clamp n, rfl, hset n⟩

theorem read_lineSpacing_says (htyped : ¬ Mistyped entries .lineSpacing)
    (hfinite : ∀ n, ("line_spacing", .integer n) ∈ entries →
      ∃ negative m e, double.nearest n = .finite negative m e) (s : Settings) :
    ∃ x, Says entries Key.lineSpacing.name Value.number? s.lineSpacing x ∧
      read entries s .lineSpacing = .ok (s.setLineSpacing x) := by
  apply read_says s.setLineSpacing (rfl : s.setLineSpacing s.lineSpacing = s)
  intro value hmem
  have htakes := takes_of_not_mistyped htyped hmem
  cases value with
  | integer n =>
      obtain ⟨negative, m, e, hn⟩ := hfinite n hmem
      refine ⟨.finite negative m e, congrArg some hn, ?_⟩
      rw [Key.set, Value.toNumber, Binary.Format.ofInt, hn]
      rfl
  | float x => exact ⟨x, rfl, rfl⟩
  | _ => cases htakes

end Read

theorem ofTable_says (hknown : ∀ entry ∈ entries, Key.isName entry.1 = true)
    (htyped : ∀ key, ¬ Mistyped entries key)
    (hfinite : ∀ n, ("line_spacing", .integer n) ∈ entries →
      ∃ negative m e, double.nearest n = .finite negative m e) :
    ∃ s, ofTable entries = .ok s ∧
      Says entries "font_size" (fun value => value.integer?.map (max 8)) 16 s.fontSize ∧
      Says entries "dot_size" (fun value => value.integer?.map fun n => max 0 (n - 1)) 0 s.dotRadius ∧
      Says entries "stroke_width" (fun value => value.integer?.map (max 1)) 1 s.strokeWidth ∧
      Says entries "line_spacing" Value.number? defaultLineSpacing s.lineSpacing := by
  obtain ⟨size, hsize, hreadSize⟩ := read_size_says (fun n => ⟨n, 0, 1, defaultLineSpacing⟩)
    (rfl : _ = Settings.default) (fun _ => rfl) Key.noConfusion (htyped .fontSize)
  obtain ⟨radius, hradius, hreadRadius⟩ := read_size_says (fun n => ⟨size, n, 1, defaultLineSpacing⟩)
    rfl (fun _ => rfl) Key.noConfusion (htyped .dotSize)
  obtain ⟨width, hwidth, hreadWidth⟩ := read_size_says (fun n => ⟨size, radius, n, defaultLineSpacing⟩)
    rfl (fun _ => rfl) Key.noConfusion (htyped .strokeWidth)
  obtain ⟨spacing, hspacing, hreadSpacing⟩ := read_lineSpacing_says (htyped .lineSpacing) hfinite
    ⟨size, radius, width, defaultLineSpacing⟩
  refine ⟨⟨size, radius, width, spacing⟩, ?_, hsize, hradius, hwidth, hspacing⟩
  rw [ofTable_eq_foldlM hknown, Key.all]
  simp only [List.foldlM_cons, List.foldlM_nil, hreadSize, hreadRadius, hreadWidth, hreadSpacing, bind,
    Except.bind]
  rfl

/-- The settings that are read from a table depend on what it says under the four names, whatever the order of
its entries. Other names are reported first, each once and in ascending order, and then the first key with a
value of another kind. -/
theorem table_read_in_any_order {entries : List (String × Value)} (hnodup : (entries.map (·.1)).Nodup) :
    (∀ other, entries.Perm other → ofValue (.table other) = ofValue (.table entries)) ∧
      ((∃ name ∈ entries.map (·.1), name ∉ knownNames) →
        ∃ names, ofValue (.table entries) = .error (.unknownKeys names) ∧ names.Pairwise (· < ·) ∧
          ∀ name, name ∈ names ↔ name ∈ entries.map (·.1) ∧ name ∉ knownNames) ∧
      ((∀ name ∈ entries.map (·.1), name ∈ knownNames) →
        (∀ earlier key later, [.fontSize, .dotSize, .strokeWidth, .lineSpacing] = earlier ++ key :: later →
          Mistyped entries key → (∀ other ∈ earlier, ¬ Mistyped entries other) →
          ofValue (.table entries) = .error key.mismatch) ∧
        ((∀ key, ¬ Mistyped entries key) →
          (∀ n, ("line_spacing", .integer n) ∈ entries →
            ∃ negative m e, double.nearest n = .finite negative m e) →
          ∃ s, ofValue (.table entries) = .ok s ∧
            Says entries "font_size" (fun value => value.integer?.map (max 8)) 16 s.fontSize ∧
            Says entries "dot_size" (fun value => value.integer?.map fun n => max 0 (n - 1)) 0 s.dotRadius ∧
            Says entries "stroke_width" (fun value => value.integer?.map (max 1)) 1 s.strokeWidth ∧
            Says entries "line_spacing" Value.number? defaultLineSpacing s.lineSpacing)) := by
  refine ⟨fun other h => ofTable_perm hnodup h, ?_, ?_⟩
  · rintro ⟨name, hmem, hname⟩
    exact ofTable_unknown hnodup hmem hname
  · intro hnames
    have hknown : ∀ entry ∈ entries, Key.isName entry.1 = true :=
      fun entry hentry => isName_iff.2 (hnames _ (List.mem_map_of_mem hentry))
    refine ⟨?_, ofTable_says hknown⟩
    intro earlier key later hsplit hkey hearlier
    rw [ofValue, ofTable_eq_foldlM hknown, Key.all, hsplit]
    apply foldlM_read_of_not_accepts (ne_lineSpacing_of_split hsplit)
    · exact fun other hother => (accepts_iff hnodup).2 (hearlier other hother)
    · exact (accepts_eq_false_iff hnodup).2 hkey

theorem table_read_in_any_order_mixed :
    let unknown : List (String × Value) := [("zoom", .null), ("font_size", .boolean true), ("dots", .integer 1)]
    let mistyped : List (String × Value) :=
      [("line_spacing", .text "wide"), ("dot_size", .boolean true), ("font_size", .integer 9)]
    let sound : List (String × Value) := [("stroke_width", .integer 0), ("line_spacing", .integer 2)]
    (unknown.map (·.1)).Nodup ∧ (mistyped.map (·.1)).Nodup ∧ (sound.map (·.1)).Nodup ∧
      (∃ names, ofValue (.table unknown) = .error (.unknownKeys names) ∧ names.Pairwise (· < ·) ∧
        ∀ name, name ∈ names ↔ name ∈ unknown.map (·.1) ∧ name ∉ knownNames) ∧
      ofValue (.table mistyped) = .error (.notInteger .dotSize) ∧
      ∃ s, ofValue (.table sound) = .ok s ∧
        Says sound "font_size" (fun value => value.integer?.map (max 8)) 16 s.fontSize ∧
        Says sound "dot_size" (fun value => value.integer?.map fun n => max 0 (n - 1)) 0 s.dotRadius ∧
        Says sound "stroke_width" (fun value => value.integer?.map (max 1)) 1 s.strokeWidth ∧
        Says sound "line_spacing" Value.number? defaultLineSpacing s.lineSpacing := by
  intro unknown mistyped sound
  have hunknown : (unknown.map (·.1)).Nodup := by decide
  have hmistyped : (mistyped.map (·.1)).Nodup := by decide
  have hsound : (sound.map (·.1)).Nodup := by decide
  refine ⟨hunknown, hmistyped, hsound, ?_, ?_, ?_⟩
  · exact (table_read_in_any_order hunknown).2.1 ⟨"zoom", by decide, by decide⟩
  · obtain ⟨-, -, hknown⟩ := table_read_in_any_order hmistyped
    apply (hknown (by decide)).1 [.fontSize] .dotSize [.strokeWidth, .lineSpacing] rfl
    · exact (accepts_eq_false_iff hmistyped).1 rfl
    · exact List.forall_mem_singleton.2 ((accepts_iff hmistyped).1 rfl)
  · obtain ⟨-, -, hknown⟩ := table_read_in_any_order hsound
    apply (hknown (by decide)).2
    · intro key
      exact (accepts_iff hsound).1 (by cases key <;> rfl)
    · intro n hn
      obtain rfl : n = 2 := by simpa [sound] using hn
      exact Binary.Format.isFinite_nearest_iff.2 (by decide +kernel)

end StrokeFont.Settings
