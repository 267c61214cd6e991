import ItalyTrip.Images
import Mathlib.Tactic.Linarith
import Mathlib.Tactic.FieldSimp

namespace ItalyTrip.Images

theorem mathRound_nonneg {x : ℚ} (h : 0 ≤ x) : mathRound x = ⌊x + 1 / 2⌋ := if_pos h

theorem mathRound_near {x : ℚ} (h : 0 ≤ x) : |(mathRound x : ℚ) - x| ≤ 1 / 2 := by
  rw [mathRound_nonneg h, abs_le]
  have low := Int.floor_le (x + 1 / 2)
  have high := Int.lt_floor_add_one (x + 1 / 2)
  constructor
  · linarith
  · linarith

theorem mathRound_mono {x y : ℚ} (h : 0 ≤ x) (le : x ≤ y) : mathRound x ≤ mathRound y := by
  rw [mathRound_nonneg h, mathRound_nonneg (h.trans le)]
  exact Int.floor_le_floor (by linarith)

theorem mathRound_intCast {n : Int} (h : 0 ≤ n) : mathRound n = n := by
  rw [mathRound_nonneg (by exact_mod_cast h), Int.floor_eq_iff]
  constructor
  · linarith
  · linarith

theorem scaled_mono {scale : ℚ} (positive : 0 ≤ scale) {u v : Int} (hu : 0 ≤ u) (le : u ≤ v) :
    scaled scale u ≤ scaled scale v := by
  have exact_le : (u : ℚ) * scale ≤ v * scale :=
    mul_le_mul_of_nonneg_right (by exact_mod_cast le) positive
  have nonneg : (0 : ℚ) ≤ u * scale := mul_nonneg (by exact_mod_cast hu) positive
  exact max_le_max le_rfl (mathRound_mono nonneg exact_le)

/-- An edge is not scaled up. -/
theorem scaled_le {scale : ℚ} (positive : 0 ≤ scale) (small : scale ≤ 1) {v : Int} (hv : 1 ≤ v) :
    scaled scale v ≤ v := by
  have nonneg : (0 : ℚ) ≤ v := by exact_mod_cast hv.trans' zero_le_one
  have le : (v : ℚ) * scale ≤ v := mul_le_of_le_one_right nonneg small
  have rounded := mathRound_mono (mul_nonneg nonneg positive) le
  rw [mathRound_intCast (by omega)] at rounded
  exact max_le hv rounded

/-- By how much both edges are scaled. -/
def factor (width height maxEdge : Int) : ℚ := min 1 (maxEdge / max width height)

/-- The edge is the exact one rounded, or that would have rounded to nothing. -/
def Rounds (exact : ℚ) (edge : Int) : Prop := |(edge : ℚ) - exact| ≤ 1 / 2 ∨ edge = 1 ∧ exact < 1 / 2

theorem scaled_rounds {scale : ℚ} (positive : 0 ≤ scale) {v : Int} (hv : 0 ≤ v) :
    Rounds (v * scale) (scaled scale v) := by
  have nonneg : (0 : ℚ) ≤ v * scale := mul_nonneg (by exact_mod_cast hv) positive
  have near := mathRound_near nonneg
  unfold scaled
  by_cases clamped : mathRound (v * scale) < 1
  · rw [max_eq_left clamped.le]
    refine Or.inr ⟨rfl, ?_⟩
    by_contra large
    have up := mathRound_mono (show (0 : ℚ) ≤ 1 / 2 by norm_num) (not_lt.mp large)
    have half : mathRound (1 / 2) = 1 := by
      rw [mathRound_nonneg (by norm_num), show (1 / 2 + 1 / 2 : ℚ) = (1 : Int) by norm_num, Int.floor_intCast]
    omega
  · rw [max_eq_right (not_lt.mp clamped)]
    exact Or.inl near

/-- The size `w` by `h` is `width` by `height` fitted within `maxEdge`. -/
structure Fitted (width height maxEdge w h : Int) : Prop where
  nonempty : 1 ≤ w ∧ 1 ≤ h
  shrunk : w ≤ width ∧ h ≤ height
  longEdge : max w h = min (max width height) maxEdge
  portrait : width ≤ height → w ≤ h
  landscape : height ≤ width → h ≤ w
  rounded : Rounds (width * factor width height maxEdge) w ∧ Rounds (height * factor width height maxEdge) h

theorem rounds_self (n : Int) : Rounds n n := Or.inl (by simp)

/-- The long edge becomes exactly the bound. -/
theorem scaled_longEdge {maxEdge longEdge : Int} (he : 1 ≤ maxEdge) (hl : 0 < longEdge) :
    scaled (maxEdge / longEdge) longEdge = maxEdge := by
  have ne : (longEdge : ℚ) ≠ 0 := by exact_mod_cast hl.ne'
  have exact_edge : (longEdge : ℚ) * (maxEdge / longEdge) = maxEdge := by field_simp
  rw [scaled, exact_edge, mathRound_intCast (by omega), max_eq_right he]

theorem fitWithin_fitted {width height maxEdge : Int} (hw : 1 ≤ width) (hh : 1 ≤ height) (he : 1 ≤ maxEdge) :
    Fitted width height maxEdge (fitWithin width height maxEdge).1 (fitWithin width height maxEdge).2 := by
  have hl : 0 < max width height := lt_of_lt_of_le hw (le_max_left _ _)
  have hlq : (0 : ℚ) < (max width height : Int) := by exact_mod_cast hl
  by_cases small : max width height ≤ maxEdge
  · have same : fitWithin width height maxEdge = (width, height) := if_pos small
    have whole : factor width height maxEdge = 1 := by
      refine min_eq_left ?_
      rw [le_div_iff₀ hlq, one_mul]
      exact_mod_cast small
    rw [same]
    refine ⟨⟨hw, hh⟩, ⟨le_rfl, le_rfl⟩, (min_eq_left small).symm, id, id, ?_⟩
    rw [whole, mul_one, mul_one]
    exact ⟨rounds_self width, rounds_self height⟩
  · have same : fitWithin width height maxEdge = (scaled (maxEdge / (max width height : Int)) width,
        scaled (maxEdge / (max width height : Int)) height) := if_neg small
    have large := not_le.mp small
    have positive : (0 : ℚ) ≤ maxEdge / (max width height : Int) :=
      div_nonneg (by exact_mod_cast he.trans' zero_le_one) hlq.le
    have le_one : (maxEdge : ℚ) / (max width height : Int) ≤ 1 := by
      rw [div_le_one hlq]
      exact_mod_cast large.le
    have scale : factor width height maxEdge = maxEdge / (max width height : Int) := min_eq_right le_one
    have long := scaled_longEdge he hl
    rw [same]
    refine ⟨⟨le_max_left _ _, le_max_left _ _⟩, ⟨scaled_le positive le_one hw, scaled_le positive le_one hh⟩,
      ?_, fun le => scaled_mono positive (by omega) le, fun le => scaled_mono positive (by omega) le,
      ?_⟩
    · rw [min_eq_right large.le]
      rcases le_total width height with le | le
      · rw [max_eq_right le] at long positive ⊢
        rw [max_eq_right (scaled_mono positive (by omega) le), long]
      · rw [max_eq_left le] at long positive ⊢
        rw [max_eq_left (scaled_mono positive (by omega) le), long]
    · rw [scale]
      exact ⟨scaled_rounds positive (by omega), scaled_rounds positive (by omega)⟩

/-- Fitting scales a size soundly, and leaves alone what it has fitted. -/
theorem fitWithin_sound {width height maxEdge : Int} (hw : 1 ≤ width) (hh : 1 ≤ height) (he : 1 ≤ maxEdge) :
    Fitted width height maxEdge (fitWithin width height maxEdge).1 (fitWithin width height maxEdge).2 ∧
      fitWithin (fitWithin width height maxEdge).1 (fitWithin width height maxEdge).2 maxEdge =
        fitWithin width height maxEdge := by
  have fitted := fitWithin_fitted hw hh he
  refine ⟨fitted, ?_⟩
  have inside : max (fitWithin width height maxEdge).1 (fitWithin width height maxEdge).2 ≤ maxEdge := by
    rw [fitted.longEdge]
    exact min_le_right _ _
  exact if_pos inside

/-- A panorama whose thin edge is clamped. -/
theorem fitWithin_sound_panorama : fitWithin 4000 3 400 = (400, 1) ∧ Fitted 4000 3 400 400 1 ∧
    fitWithin 400 1 400 = (400, 1) := by
  have computed : fitWithin 4000 3 400 = (400, 1) := by decide +kernel
  have sound := fitWithin_sound (show (1 : Int) ≤ 4000 by decide) (show (1 : Int) ≤ 3 by decide)
    (show (1 : Int) ≤ 400 by decide)
  rw [computed] at sound
  exact ⟨computed, sound⟩

end ItalyTrip.Images
