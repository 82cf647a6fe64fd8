import StrokeFont.Proofs.Binary.Overflow
import StrokeFont.Settings.Basic

namespace StrokeFont.Settings

open Binary (ConversionError)
open Binary.Format (leastOverflow)

def Fault.isRefusal : Fault → Bool
  | unrepresentable _ => false
  | _ => true

namespace Key

def takes : Key → Value → Bool
  | _, .integer _ => true
  | lineSpacing, .float _ => true
  | _, _ => false

def mismatch : Key → Fault
  | lineSpacing => .notNumber lineSpacing
  | key => .notInteger key

def accepts (entries : List (String × Value)) (key : Key) : Bool :=
  (Keyed.find? key.name entries).all key.takes

def sizes : List Key := [fontSize, dotSize, strokeWidth]

theorem ne_lineSpacing_of_mem_sizes : ∀ key ∈ sizes, key ≠ lineSpacing := by decide

theorem find?_sizes_eq_none {entries : List (String × Value)} :
    sizes.find? (!accepts entries ·) = none ↔ ∀ key ∈ sizes, key.accepts entries = true := by
  simp only [List.find?_eq_none, Bool.not_eq_true', Bool.not_eq_false]

theorem isRefusal_mismatch (key : Key) : key.mismatch.isRefusal = true := by
  cases key <;> rfl

end Key

variable {entries : List (String × Value)} {key : Key} {s : Settings}

def read (entries : List (String × Value)) (s : Settings) (key : Key) : Except Fault Settings :=
  match Keyed.find? key.name entries with
  | none => .ok s
  | some value => key.set s value

section Read

theorem read_of_none (h : Keyed.find? key.name entries = none) (s : Settings) : read entries s key = .ok s := by
  rw [read, h]

theorem read_of_some {value : Value} (h : Keyed.find? key.name entries = some value) (s : Settings) :
    read entries s key = key.set s value := by
  rw [read, h]

theorem accepts_of_some {value : Value} (h : Keyed.find? key.name entries = some value) :
    key.accepts entries = key.takes value := by
  rw [Key.accepts, h, Option.all_some]

theorem set_of_not_takes {value : Value} (h : key.takes value = false) (s : Settings) :
    key.set s value = .error key.mismatch := by
  cases key <;> cases value <;> first | rfl | cases h

theorem set_of_takes {value : Value} (h : key.takes value = true) (hkey : key ≠ .lineSpacing)
    (s : Settings) : ∃ t, key.set s value = .ok t := by
  cases value with
  | integer n =>
      cases key with
      | lineSpacing => exact absurd rfl hkey
      | _ => exact ⟨_, rfl⟩
  | float x =>
      cases key with
      | lineSpacing => exact absurd rfl hkey
      | _ => cases h
  | _ => cases key <;> cases h

theorem read_of_not_accepts (h : key.accepts entries = false) (s : Settings) :
    read entries s key = .error key.mismatch := by
  cases hvalue : Keyed.find? key.name entries with
  | none =>
      rw [Key.accepts, hvalue] at h
      cases h
  | some value =>
      rw [accepts_of_some hvalue] at h
      rw [read_of_some hvalue, set_of_not_takes h]

theorem read_of_accepts (h : key.accepts entries = true) (hkey : key ≠ .lineSpacing) (s : Settings) :
    ∃ t, read entries s key = .ok t := by
  cases hvalue : Keyed.find? key.name entries with
  | none => exact ⟨s, read_of_none hvalue s⟩
  | some value =>
      rw [accepts_of_some hvalue] at h
      rw [read_of_some hvalue]
      exact set_of_takes h hkey s

theorem set_lineSpacing_integer (s : Settings) (n : Int) :
    (leastOverflow ≤ n.natAbs ∧ Key.lineSpacing.set s (.integer n) = .error (.unrepresentable .tooLarge)) ∨
      n.natAbs < leastOverflow ∧ ∃ t, Key.lineSpacing.set s (.integer n) = .ok t := by
  rcases le_or_gt leastOverflow n.natAbs with hlarge | hsmall
  · left
    refine ⟨hlarge, ?_⟩
    rw [Key.set, Value.toNumber, Binary.Format.ofInt_eq_error_iff.2 ⟨rfl, hlarge⟩]
    rfl
  · right
    obtain ⟨x, hx⟩ := Binary.Format.exists_ofInt hsmall
    refine ⟨hsmall, s.setLineSpacing x, ?_⟩
    rw [Key.set, Value.toNumber, hx]
    rfl

theorem foldlM_read_sizes {keys : List Key} (hkeys : ∀ key ∈ keys, key ≠ .lineSpacing) (s : Settings) :
    (keys.find? (!Key.accepts entries ·) = none ∧ ∃ t, keys.foldlM (read entries) s = .ok t) ∨
      ∃ key, keys.find? (!Key.accepts entries ·) = some key ∧
        keys.foldlM (read entries) s = .error key.mismatch := by
  induction keys generalizing s with
  | nil => exact .inl ⟨rfl, s, rfl⟩
  | cons first keys ih =>
      rw [List.forall_mem_cons] at hkeys
      rw [List.foldlM_cons]
      cases hfirst : first.accepts entries with
      | true =>
          obtain ⟨t, ht⟩ := read_of_accepts hfirst hkeys.1 s
          rw [List.find?_cons_of_neg (by simp [hfirst]), ht]
          exact ih hkeys.2 t
      | false =>
          rw [List.find?_cons_of_pos (by simp [hfirst]), read_of_not_accepts hfirst]
          exact .inr ⟨first, rfl, rfl⟩

end Read

/-- A table in which nothing can be refused, but whose spacing is a whole number too large for a double. -/
structure SpacingOverflows (entries : List (String × Value)) : Prop where
  known : ∀ entry ∈ entries, Key.isName entry.1 = true
  sizes : ∀ key ∈ Key.sizes, key.accepts entries = true
  spacing : ∃ n, Keyed.find? Key.lineSpacing.name entries = some (.integer n) ∧ leastOverflow ≤ n.natAbs

def LoadsOrRefuses (result : Except Fault Settings) : Prop :=
  (∃ s, result = .ok s) ∨ ∃ fault, result = .error fault ∧ fault.isRefusal = true

theorem not_loadsOrRefuses (cause : ConversionError) :
    ¬ LoadsOrRefuses (.error (.unrepresentable cause)) := by
  rintro (⟨s, hs⟩ | ⟨fault, hfault, hrefusal⟩)
  · cases hs
  · cases hfault
    cases hrefusal

section Table

theorem filter_unknown_eq_nil_iff :
    (entries.map (·.1)).filter (!Key.isName ·) = [] ↔ ∀ entry ∈ entries, Key.isName entry.1 = true := by
  simp only [List.filter_eq_nil_iff, List.forall_mem_map, Bool.not_eq_true', Bool.not_eq_false]

theorem ofTable_of_unknown (h : ¬ ∀ entry ∈ entries, Key.isName entry.1 = true) :
    ofTable entries = .error (.unknownKeys (sortNames ((entries.map (·.1)).filter (!Key.isName ·)))) := by
  unfold ofTable
  split
  · rename_i hknown
    exact absurd (filter_unknown_eq_nil_iff.1 hknown) h
  · rfl

theorem ofTable_eq_foldlM (h : ∀ entry ∈ entries, Key.isName entry.1 = true) :
    ofTable entries = Key.all.foldlM (read entries) default := by
  unfold ofTable
  rw [filter_unknown_eq_nil_iff.2 h]
  rfl

theorem ofTable_of_known (h : ∀ entry ∈ entries, Key.isName entry.1 = true) :
    ofTable entries = Key.sizes.foldlM (read entries) default >>= (read entries · .lineSpacing) := by
  rw [ofTable_eq_foldlM h]
  change (Key.sizes ++ [Key.lineSpacing]).foldlM (read entries) default = _
  rw [List.foldlM_append]
  simp only [List.foldlM_cons, List.foldlM_nil, bind_pure]

theorem ofTable_of_overflows (h : SpacingOverflows entries) :
    ofTable entries = .error (.unrepresentable .tooLarge) := by
  obtain ⟨hknown, hsizes, n, hn, hlarge⟩ := h
  rw [ofTable_of_known hknown]
  rcases foldlM_read_sizes Key.ne_lineSpacing_of_mem_sizes default with ⟨-, s, hs⟩ | ⟨key, hkey, -⟩
  · rw [hs]
    change read entries s .lineSpacing = _
    rw [read_of_some hn]
    rcases set_lineSpacing_integer s n with ⟨-, hset⟩ | ⟨hsmall, -⟩
    · exact hset
    · exact absurd hlarge hsmall.not_ge
  · rw [Key.find?_sizes_eq_none.2 hsizes] at hkey
    cases hkey

theorem read_lineSpacing_of_small
    (h : ∀ n, Keyed.find? Key.lineSpacing.name entries = some (.integer n) → n.natAbs < leastOverflow)
    (s : Settings) : LoadsOrRefuses (read entries s .lineSpacing) := by
  cases hvalue : Keyed.find? Key.lineSpacing.name entries with
  | none => exact .inl ⟨s, read_of_none hvalue s⟩
  | some value =>
      rw [read_of_some hvalue]
      cases value with
      | integer n =>
          rcases set_lineSpacing_integer s n with ⟨hlarge, -⟩ | ⟨-, hset⟩
          · exact absurd (h n hvalue) hlarge.not_gt
          · exact .inl hset
      | float x => exact .inl ⟨s.setLineSpacing x, rfl⟩
      | _ => exact .inr ⟨_, set_of_not_takes rfl s, rfl⟩

theorem loadsOrRefuses_ofTable (h : ¬ SpacingOverflows entries) : LoadsOrRefuses (ofTable entries) := by
  by_cases hknown : ∀ entry ∈ entries, Key.isName entry.1 = true
  · rw [ofTable_of_known hknown]
    rcases foldlM_read_sizes Key.ne_lineSpacing_of_mem_sizes default with ⟨hsizes, s, hs⟩ | ⟨key, -, hkey⟩
    · rw [hs]
      apply read_lineSpacing_of_small
      intro n hn
      exact not_le.1 fun hlarge => h ⟨hknown, Key.find?_sizes_eq_none.1 hsizes, n, hn, hlarge⟩
    · rw [hkey]
      exact .inr ⟨_, rfl, key.isRefusal_mismatch⟩
  · exact .inr ⟨_, ofTable_of_unknown hknown, rfl⟩

end Table

/-- Reading settings from a value gives settings, or says what is wrong with them, unless the value is a
table with nothing to refuse and a spacing too large for a double: then the conversion of that fails. -/
theorem loads_or_refuses_iff (value : Value) :
    (LoadsOrRefuses (ofValue value) ↔ ¬ ∃ entries, value = .table entries ∧ SpacingOverflows entries) ∧
      ∀ entries, SpacingOverflows entries →
        ofValue (.table entries) = .error (.unrepresentable .tooLarge) := by
  refine ⟨⟨?_, ?_⟩, fun entries h => ofTable_of_overflows h⟩
  · rintro hresult ⟨entries, rfl, h⟩
    rw [ofValue, ofTable_of_overflows h] at hresult
    exact not_loadsOrRefuses _ hresult
  · intro h
    cases value with
    | table entries => exact loadsOrRefuses_ofTable fun hoverflows => h ⟨entries, rfl, hoverflows⟩
    | _ => exact .inr ⟨.notTable, rfl, rfl⟩

theorem lone_spacing_overflows {n : Int} (h : leastOverflow ≤ n.natAbs) :
    SpacingOverflows [(Key.lineSpacing.name, .integer n)] where
  known := List.forall_mem_singleton.2 rfl
  sizes := by
    simp only [Key.sizes, List.forall_mem_cons, List.not_mem_nil, false_imp_iff, implies_true, and_true]
    exact ⟨rfl, rfl, rfl⟩
  spacing := ⟨n, rfl, h⟩

theorem escapes_of_large {n : Int} (h : leastOverflow ≤ n) :
    let value : Value := .table [("line_spacing", .integer n)]
    ofValue value = .error (.unrepresentable .tooLarge) ∧ ¬ LoadsOrRefuses (ofValue value) := by
  intro value
  have hresult : ofValue value = .error (.unrepresentable .tooLarge) :=
    ofTable_of_overflows (lone_spacing_overflows (by omega))
  refine ⟨hresult, fun hload => not_loadsOrRefuses .tooLarge ?_⟩
  rwa [hresult] at hload

/-- The least power of two that is too large for a double. -/
theorem huge_spacing_escapes :
    let value : Value := .table [("line_spacing", .integer (2 ^ 1024))]
    ofValue value = .error (.unrepresentable .tooLarge) ∧ ¬ LoadsOrRefuses (ofValue value) :=
  escapes_of_large Binary.Format.leastOverflow_le

end StrokeFont.Settings
