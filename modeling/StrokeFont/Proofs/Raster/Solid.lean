import Mathlib.Logic.Relation
import StrokeFont.Proofs.Raster.Stroke

namespace StrokeFont

def Point.Beside (p q : Point) : Prop := (q.x - p.x).natAbs + (q.y - p.y).natAbs = 1

theorem Point.Beside.symm {p q : Point} (h : p.Beside q) : q.Beside p := by
  simp only [Beside] at h ⊢
  omega

namespace Raster

/-- A way over given pixels that never moves diagonally. -/
structure IsPath (pixels : List Point) (p q : Point) (path : List Point) : Prop where
  head : path.head? = some p
  last : path.getLast? = some q
  inside : ∀ r ∈ path, r ∈ pixels
  beside : path.IsChain Point.Beside

def Solid (pixels : List Point) : Prop := ∀ p ∈ pixels, ∀ q ∈ pixels, ∃ path, IsPath pixels p q path

def Linked (pixels : List Point) : Point → Point → Prop :=
  Relation.ReflTransGen fun p q => p.Beside q ∧ p ∈ pixels ∧ q ∈ pixels

section Linked

variable {pixels pixels' : List Point} {p q r : Point}

theorem Linked.symm (h : Linked pixels p q) : Linked pixels q p := by
  induction h with
  | refl => exact .refl
  | tail _ hstep ih => exact .head ⟨hstep.1.symm, hstep.2.2, hstep.2.1⟩ ih

theorem Linked.mono (hsub : pixels ⊆ pixels') (h : Linked pixels p q) : Linked pixels' p q :=
  Relation.ReflTransGen.mono (fun _ _ hstep => ⟨hstep.1, hsub hstep.2.1, hsub hstep.2.2⟩) _ _ h

theorem Linked.run {f : Nat → Point} {n : Nat} (h : ∀ k < n, Linked pixels (f k) (f (k + 1))) :
    Linked pixels (f 0) (f n) := by
  induction n with
  | zero => exact .refl
  | succ n ih => exact (ih fun k hk => h k (by omega)).trans (h n (by omega))

theorem Linked.exists_path (h : Linked pixels p q) (hp : p ∈ pixels) :
    ∃ path, IsPath pixels p q path := by
  induction h with
  | refl => exact ⟨[p], rfl, rfl, by simpa using hp, .singleton p⟩
  | @tail r q _ hstep ih =>
      obtain ⟨path, hhead, hlast, hinside, hbeside⟩ := ih
      refine ⟨path ++ [q], ?_, ?_, ?_, ?_⟩
      · rw [List.head?_append, hhead, Option.some_or]
      · rw [List.getLast?_concat]
      · exact List.forall_mem_append.2 ⟨hinside, by simpa using hstep.2.2⟩
      · apply hbeside.append (.singleton q)
        intro x hx y hy
        obtain rfl : r = x := by simpa [hlast] using hx
        obtain rfl : q = y := by simpa using hy
        exact hstep.1

end Linked

section Blocks

variable {width : Int} {corner corner' pixel : Point}

theorem linked_block (h : pixel ∈ block width corner) : Linked (block width corner) corner pixel := by
  have hpixel := mem_block.1 h
  obtain ⟨i, hi⟩ := Int.eq_ofNat_of_zero_le (sub_nonneg.2 hpixel.1.1)
  obtain ⟨j, hj⟩ := Int.eq_ofNat_of_zero_le (sub_nonneg.2 hpixel.2.1)
  have hinside {k l : Nat} (hk : k ≤ i) (hl : l ≤ j) : corner + ⟨k, l⟩ ∈ block width corner := by
    simp only [mem_block, Point.add_x, Point.add_y]
    omega
  -- The way goes along the first row to the column of the pixel, and then down.
  have hacross : Linked (block width corner) (corner + ⟨0, 0⟩) (corner + ⟨i, 0⟩) := by
    apply Linked.run (f := fun k => corner + ⟨k, 0⟩)
    intro k hk
    refine .single ⟨?_, hinside hk.le (Nat.zero_le j), hinside hk (Nat.zero_le j)⟩
    simp [Point.Beside]
  have hdown : Linked (block width corner) (corner + ⟨i, 0⟩) (corner + ⟨i, j⟩) := by
    apply Linked.run (f := fun l => corner + ⟨i, l⟩)
    intro l hl
    refine .single ⟨?_, hinside le_rfl hl.le, hinside le_rfl hl⟩
    simp [Point.Beside]
  have hend : corner + ⟨i, j⟩ = pixel := by
    rw [← hi, ← hj]
    exact congrArg₂ Point.mk (add_sub_cancel _ _) (add_sub_cancel _ _)
  rw [corner.add_zero] at hacross
  exact hend ▸ hacross.trans hdown

theorem linked_corners (h : 2 ≤ width) (hadjacent : corner.Adjacent corner') {pixels : List Point}
    (hcorner : block width corner ⊆ pixels) (hcorner' : block width corner' ⊆ pixels) :
    Linked pixels corner corner' := by
  rw [Point.Adjacent] at hadjacent
  have hshared : ⟨max corner.x corner'.x, max corner.y corner'.y⟩ ∈ block width corner ∧
      ⟨max corner.x corner'.x, max corner.y corner'.y⟩ ∈ block width corner' := by
    simp only [mem_block, blockHeight]
    omega
  have hto := (linked_block hshared.1).mono hcorner
  have hback := (linked_block hshared.2).mono hcorner'
  exact hto.trans hback.symm

end Blocks

theorem linked_start {width : Int} (h : 2 ≤ width) {start finish pixel : Point}
    (hpixel : pixel ∈ line width start finish) : Linked (line width start finish) start pixel := by
  -- Each pixel is linked to the corner of its block, and the corners to each other in the order of the walk.
  have hpos : 1 ≤ width := by omega
  have hblock {k : Nat} (hk : k ≤ span start finish) :
      block width (midpoint start finish k) ⊆ line width start finish :=
    fun _ hr => (mem_line hpos).2 ⟨k, hk, hr⟩
  obtain ⟨k, hk, hpixel⟩ := (mem_line hpos).1 hpixel
  have hcorners : Linked (line width start finish) (midpoint start finish 0) (midpoint start finish k) := by
    apply Linked.run
    intro l hl
    exact linked_corners h (midpoint_adjacent (by omega)) (hblock (by omega)) (hblock (by omega))
  rw [midpoint_zero] at hcorners
  exact hcorners.trans ((linked_block hpixel).mono (hblock hk))

/-- A line of two or more columns joins its ends, and from each of its pixels there is a way to each other
one that stays on the line and never moves diagonally. -/
theorem thick_line_is_solid {width : Int} (h : 2 ≤ width) (start finish : Point) :
    start ∈ line width start finish ∧ finish ∈ line width start finish ∧
      Solid (line width start finish) := by
  have hpos : 1 ≤ width := by omega
  refine ⟨start_mem_line hpos start finish, finish_mem_line hpos start finish, ?_⟩
  intro p hp q hq
  have hlinked : Linked (line width start finish) p q := (linked_start h hp).symm.trans (linked_start h hq)
  exact hlinked.exists_path hp

theorem thick_line_is_solid_diagonal :
    (2 : Int) ≤ 2 ∧ (⟨3, 0⟩ : Point) ∈ line 2 ⟨3, 0⟩ ⟨0, 3⟩ ∧ (⟨0, 3⟩ : Point) ∈ line 2 ⟨3, 0⟩ ⟨0, 3⟩ ∧
      Solid (line 2 ⟨3, 0⟩ ⟨0, 3⟩) := by
  have hwidth : (2 : Int) ≤ 2 := le_rfl
  exact ⟨hwidth, thick_line_is_solid hwidth ⟨3, 0⟩ ⟨0, 3⟩⟩

end Raster

end StrokeFont
