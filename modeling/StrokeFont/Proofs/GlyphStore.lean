import StrokeFont.Layout
import StrokeFont.Proofs.Keyed

namespace StrokeFont

/-- The names of a code point are the number itself and the text of its character alone. -/
inductive GlyphName.Names : GlyphName → Int → Prop
  | number (n : Int) : Names (.codePoint n) n
  | character (c : Char) : Names (.text (String.singleton c)) c.toNat

namespace GlyphStore

variable {name : GlyphName} {n : Int} {s program : String} {entries before after : List (GlyphName × String)}
  {resolved : List (Int × String)}

theorem codePoint?_eq_ok_iff : codePoint? name = .ok n ↔ name.Names n := by
  constructor
  · intro h
    cases name with
    | codePoint m => exact Except.ok.inj h ▸ .number m
    | text s =>
        rw [codePoint?] at h
        split at h
        · rename_i c hc
          obtain rfl : s = String.singleton c := String.toList_inj.1 (hc.trans (String.toList_singleton c).symm)
          exact Except.ok.inj h ▸ .character c
        · cases h
  · rintro (_ | c)
    · rfl
    · simp only [codePoint?, String.toList_singleton]

theorem codePoint?_eq_error_iff : codePoint? name = .error s ↔ name = .text s ∧ s.length ≠ 1 := by
  cases name with
  | codePoint m => exact iff_of_false nofun nofun
  | text t =>
      rw [codePoint?, GlyphName.text.injEq, ← String.length_toList]
      split
      · rename_i c hc
        refine iff_of_false nofun ?_
        rintro ⟨rfl, hlength⟩
        exact hlength (congrArg List.length hc)
      · rename_i hlong
        rw [Except.error.injEq, iff_self_and]
        rintro rfl hlength
        obtain ⟨c, hc⟩ := List.length_eq_one_iff.1 hlength
        exact hlong c hc

section Resolve

theorem resolve_cons_eq_ok {entry : GlyphName × String} :
    resolve (entry :: entries) = .ok resolved ↔
      ∃ n rest, codePoint? entry.1 = .ok n ∧ resolve entries = .ok rest ∧ resolved = (n, entry.2) :: rest := by
  rw [resolve]
  cases codePoint? entry.1 with
  | error s => exact iff_of_false nofun nofun
  | ok n =>
      cases resolve entries with
      | error s => exact iff_of_false nofun nofun
      | ok rest =>
          constructor
          · exact fun h => ⟨n, rest, rfl, rfl, (Except.ok.inj h).symm⟩
          · rintro ⟨n, rest, hn, hrest, rfl⟩
            cases hn
            cases hrest
            rfl

theorem mem_keys_resolve (h : resolve entries = .ok resolved) :
    n ∈ resolved.map (·.1) ↔ ∃ name ∈ entries.map (·.1), name.Names n := by
  induction entries generalizing resolved with
  | nil =>
      cases h
      exact iff_of_false List.not_mem_nil nofun
  | cons entry entries ih =>
      obtain ⟨m, rest, hm, hrest, rfl⟩ := resolve_cons_eq_ok.1 h
      simp only [List.map_cons, List.mem_cons, ih hrest, exists_eq_or_imp, ← codePoint?_eq_ok_iff, hm,
        Except.ok.injEq, eq_comm]

theorem resolve_append_cons (h : resolve (before ++ (name, program) :: after) = .ok resolved)
    (hname : name.Names n) :
    ∃ a b, resolved = a ++ (n, program) :: b ∧ resolve after = .ok b := by
  induction before generalizing resolved with
  | nil =>
      obtain ⟨m, rest, hm, hrest, rfl⟩ := resolve_cons_eq_ok.1 h
      rw [codePoint?_eq_ok_iff.2 hname] at hm
      exact ⟨[], rest, Except.ok.inj hm ▸ rfl, hrest⟩
  | cons entry before ih =>
      obtain ⟨m, rest, -, hrest, rfl⟩ := resolve_cons_eq_ok.1 h
      obtain ⟨a, b, rfl, hafter⟩ := ih hrest
      exact ⟨(m, entry.2) :: a, b, rfl, hafter⟩

theorem names_of_resolve (h : resolve entries = .ok resolved) :
    ∀ name ∈ entries.map (·.1), ∃ n, codePoint? name = .ok n := by
  induction entries generalizing resolved with
  | nil => exact nofun
  | cons entry entries ih =>
      obtain ⟨m, rest, hm, hrest, -⟩ := resolve_cons_eq_ok.1 h
      exact List.forall_mem_cons.2 ⟨⟨m, hm⟩, ih hrest⟩

theorem resolve_eq_error (h : resolve entries = .error s) :
    s.length ≠ 1 ∧ ∃ before after, entries.map (·.1) = before ++ .text s :: after ∧
      ∀ name ∈ before, ∃ n, codePoint? name = .ok n := by
  induction entries with
  | nil => cases h
  | cons entry entries ih =>
      rw [resolve] at h
      cases hname : codePoint? entry.1 with
      | error t =>
          rw [hname] at h
          obtain rfl := Except.error.inj h
          obtain ⟨htext, hlength⟩ := codePoint?_eq_error_iff.1 hname
          exact ⟨hlength, [], entries.map (·.1), by rw [List.map_cons, htext, List.nil_append], nofun⟩
      | ok n =>
          rw [hname] at h
          cases hrest : resolve entries with
          | ok rest =>
              rw [hrest] at h
              cases h
          | error t =>
              rw [hrest] at h
              obtain rfl := Except.error.inj h
              obtain ⟨hlength, before, after, hsplit, hbefore⟩ := ih hrest
              refine ⟨hlength, entry.1 :: before, after, by rw [List.map_cons, hsplit, List.cons_append], ?_⟩
              exact List.forall_mem_cons.2 ⟨⟨n, hname⟩, hbefore⟩

end Resolve

theorem resolve_of_error (h : ofList entries = .error s) : resolve (Keyed.ofList entries) = .error s := by
  rw [ofList] at h
  cases hresolved : resolve (Keyed.ofList entries) with
  | error t =>
      rw [hresolved] at h
      exact congrArg Except.error (Except.error.inj h)
  | ok resolved =>
      rw [hresolved] at h
      cases h

theorem resolve_of_ok {store : GlyphStore} (h : ofList entries = .ok store) :
    ∃ resolved, resolve (Keyed.ofList entries) = .ok resolved ∧ store = ⟨Keyed.ofList resolved⟩ := by
  rw [ofList] at h
  cases hresolved : resolve (Keyed.ofList entries) with
  | error t =>
      rw [hresolved] at h
      cases h
  | ok resolved =>
      rw [hresolved] at h
      exact ⟨resolved, rfl, (Except.ok.inj h).symm⟩

/-- Whether the first mention of a name comes before that of another one. -/
def MentionedBefore (entries : List (GlyphName × String)) (name other : GlyphName) : Prop :=
  (entries.map (·.1)).idxOf name < (entries.map (·.1)).idxOf other

theorem mentionedBefore_of_split {names rest : List GlyphName}
    (h : (Keyed.ofList entries).map (·.1) = names ++ name :: rest) :
    ∀ other ∈ rest, MentionedBefore entries name other := by
  have hpairwise := Keyed.keys_ofList_pairwise entries
  rw [h] at hpairwise
  exact (List.pairwise_cons.1 (List.pairwise_append.1 hpairwise).2.1).1

theorem first_bad_name (h : ofList entries = .error s) :
    .text s ∈ entries.map (·.1) ∧ s.length ≠ 1 ∧
      ∀ t, .text t ∈ entries.map (·.1) → t.length ≠ 1 → t ≠ s →
        MentionedBefore entries (.text s) (.text t) := by
  obtain ⟨hlength, before, after, hsplit, hbefore⟩ := resolve_eq_error (resolve_of_error h)
  have hkeys (name : GlyphName) : name ∈ entries.map (·.1) ↔ name ∈ before ++ .text s :: after := by
    rw [← hsplit, Keyed.mem_keys_ofList]
  refine ⟨(hkeys _).2 (List.mem_append_right _ List.mem_cons_self), hlength, ?_⟩
  intro t ht htlength hne
  apply mentionedBefore_of_split hsplit
  rcases List.mem_append.1 ((hkeys _).1 ht) with hmem | hmem
  · obtain ⟨n, hn⟩ := hbefore _ hmem
    rw [codePoint?_eq_error_iff.2 ⟨rfl, htlength⟩] at hn
    cases hn
  · rcases List.mem_cons.1 hmem with heq | hmem
    · exact absurd (GlyphName.text.inj heq) hne
    · exact hmem

theorem exists_error_iff :
    (∃ s, ofList entries = .error s) ↔ ∃ s, .text s ∈ entries.map (·.1) ∧ s.length ≠ 1 := by
  constructor
  · rintro ⟨s, hs⟩
    obtain ⟨hmem, hlength, -⟩ := first_bad_name hs
    exact ⟨s, hmem, hlength⟩
  · rintro ⟨s, hmem, hlength⟩
    cases h : ofList entries with
    | error t => exact ⟨t, rfl⟩
    | ok store =>
        obtain ⟨resolved, hresolved, -⟩ := resolve_of_ok h
        obtain ⟨n, hn⟩ := names_of_resolve hresolved _ (Keyed.mem_keys_ofList.2 hmem)
        rw [codePoint?_eq_error_iff.2 ⟨rfl, hlength⟩] at hn
        cases hn

theorem lookup?_eq_none_iff {store : GlyphStore} (h : ofList entries = .ok store) :
    store.lookup? n = none ↔ ∀ name ∈ entries.map (·.1), ¬ name.Names n := by
  obtain ⟨resolved, hresolved, rfl⟩ := resolve_of_ok h
  rw [lookup?, Keyed.find?_eq_none_iff, Keyed.mem_keys_ofList, mem_keys_resolve hresolved]
  simp only [Keyed.mem_keys_ofList, not_exists, not_and]

theorem lookup?_of_last_mentioned {store : GlyphStore} (h : ofList entries = .ok store)
    (hname : name.Names n) (hmem : name ∈ entries.map (·.1))
    (hlast : ∀ other ∈ entries.map (·.1), other.Names n → other ≠ name →
      MentionedBefore entries other name) :
    ∃ program, Keyed.GivenLast entries name program ∧ store.lookup? n = some program := by
  obtain ⟨resolved, hresolved, rfl⟩ := resolve_of_ok h
  obtain ⟨program, hprogram⟩ := Keyed.exists_find? (Keyed.mem_keys_ofList.2 hmem)
  obtain ⟨before, after, hsplit⟩ := List.append_of_mem (Keyed.mem_of_find? hprogram)
  rw [hsplit] at hresolved
  obtain ⟨a, b, rfl, hafter⟩ := resolve_append_cons hresolved hname
  refine ⟨program, Keyed.find?_ofList.1 hprogram, Keyed.find?_ofList.2 ⟨a, b, rfl, ?_⟩⟩
  -- What comes later is mentioned later, and so is not a name of the same glyph.
  intro hb
  obtain ⟨other, hother, hnames⟩ := (mem_keys_resolve hafter).1 hb
  have hkeys : (Keyed.ofList entries).map (·.1) = before.map (·.1) ++ name :: after.map (·.1) := by
    rw [hsplit, List.map_append, List.map_cons]
  have hbefore := mentionedBefore_of_split hkeys other hother
  have hmentioned : other ∈ entries.map (·.1) := by
    rw [← Keyed.mem_keys_ofList, hkeys]
    exact List.mem_append_right _ (List.mem_cons_of_mem _ hother)
  by_cases hne : other = name
  · exact Nat.lt_irrefl _ (hne ▸ hbefore)
  · exact Nat.lt_asymm hbefore (hlast other hmentioned hnames hne)

/-- A text that is not a single character is refused, the first of several by their first mentions. Otherwise
a code point without names has no program, and that of another one is the program last given to the name that
is first mentioned later than its other name. -/
theorem later_name_counts (entries : List (GlyphName × String)) :
    let names := entries.map (·.1)
    ((∃ s, ofList entries = .error s) ↔ ∃ s, .text s ∈ names ∧ s.length ≠ 1) ∧
      (∀ s, ofList entries = .error s →
        .text s ∈ names ∧ s.length ≠ 1 ∧
          ∀ t, .text t ∈ names → t.length ≠ 1 → t ≠ s → MentionedBefore entries (.text s) (.text t)) ∧
      ∀ store, ofList entries = .ok store → ∀ n,
        (store.lookup? n = none ↔ ∀ name ∈ names, ¬ name.Names n) ∧
          ∀ name ∈ names, name.Names n →
            (∀ other ∈ names, other.Names n → other ≠ name → MentionedBefore entries other name) →
            ∃ program, Keyed.GivenLast entries name program ∧ store.lookup? n = some program := by
  intro names
  refine ⟨exists_error_iff, fun s hs => first_bad_name hs, ?_⟩
  intro store hstore n
  refine ⟨lookup?_eq_none_iff hstore, ?_⟩
  intro name hmem hname hlast
  exact lookup?_of_last_mentioned hstore hname hmem hlast

/-- The last program of all does not count here, because its name was mentioned before the other one. -/
example :
    (ofList [(.text "A", "a1"), (.codePoint 65, "a2"), (.text "A", "a3")]).toOption.bind (·.lookup? 65) =
      some "a2" := by
  decide

end GlyphStore

end StrokeFont
