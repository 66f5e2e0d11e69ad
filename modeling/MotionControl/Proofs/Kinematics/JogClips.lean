import Mathlib.Data.Set.Image
import Mathlib.Order.Bounds.Basic
import Mathlib.Order.Interval.Set.UnorderedInterval
import Mathlib.Tactic.FieldSimp
import MotionControl.Proofs.Kinematics.JogCuts

/-! Jogs clipped to travel ranges, over exact numbers. A jog whose line meets the ranges ends at the last point of the
line that is in all of them. Any other jog is taken off its line. -/
namespace MotionControl
open Scalar

namespace AxisPosition
variable {current target : AxisPosition ℝ} {axis : Nat} {part : ℝ}

/-- The points of the way from one position to another. -/
def line (current target : AxisPosition ℝ) : Set (AxisPosition ℝ) := current.lerp target '' Set.Icc 0 1

theorem axis_of_length_le {p : AxisPosition ℝ} (h : p.length ≤ axis) : p.axis axis = 0 := by
  rw [AxisPosition.axis, List.getD_eq_default _ _ h, Scalar.zero_real]

theorem axis_lerp_of_length_eq (hl : current.length = target.length) (axis : Nat) (part : ℝ) :
    (current.lerp target part).axis axis =
      current.axis axis + (target.axis axis - current.axis axis) * part := by
  by_cases ha : axis < current.length
  · exact axis_lerp (by rwa [← hl, Nat.min_self]) part
  · have hc : current.length ≤ axis := not_lt.mp ha
    have hp : (current.lerp target part).length ≤ axis :=
      ((length_lerp ..).trans_le (Nat.min_le_left ..)).trans hc
    rw [axis_of_length_le hp, axis_of_length_le hc, axis_of_length_le (hl.symm.trans_le hc)]
    ring

theorem axis_mem_uIcc_of_mem_line (hl : current.length = target.length) {p : AxisPosition ℝ}
    (h : p ∈ current.line target) (axis : Nat) :
    p.axis axis ∈ Set.uIcc (current.axis axis) (target.axis axis) := by
  obtain ⟨part, ⟨h0, h1⟩, rfl⟩ := h
  rw [axis_lerp_of_length_eq hl, Set.mem_uIcc]
  rcases le_total (current.axis axis) (target.axis axis) with h | h
  · left
    constructor <;> nlinarith only [h, h0, h1]
  · right
    constructor <;> nlinarith only [h, h0, h1]

end AxisPosition

namespace SoftLimits
variable {s : SoftLimits ℝ} {p current target : AxisPosition ℝ} {range : Option (ℝ × ℝ)}
  {ranges : List (Option (ℝ × ℝ))} {value : ℝ} {values confined : List ℝ} {low high a b c u v : ℝ}

/-- Every axis of the position is in its range, if it has one. -/
def Inside (s : SoftLimits ℝ) (p : AxisPosition ℝ) : Prop :=
  ∀ axis low high, s.ranges[axis]? = some (some (low, high)) → axis < p.length →
    low ≤ p.axis axis ∧ p.axis axis ≤ high

theorem inside_of_contains (h : s.contains p = true) : s.Inside p :=
  fun axis low high hr _ => contains_iff.mp h axis low high hr

theorem contains_iff_inside (hn : s.ranges.length ≤ p.length) : s.contains p = true ↔ s.Inside p := by
  refine ⟨inside_of_contains, fun h => contains_iff.mpr fun axis low high hr => ?_⟩
  exact h axis low high hr ((List.getElem?_eq_some_iff.mp hr).1.trans_le hn)

theorem inside_cons : Inside ⟨range :: ranges⟩ ⟨value :: values⟩ ↔
    (∀ low high, range = some (low, high) → low ≤ value ∧ value ≤ high) ∧ Inside ⟨ranges⟩ ⟨values⟩ := by
  constructor
  · intro h
    refine ⟨fun low high hr => h 0 low high (congrArg some hr) (Nat.succ_pos _), ?_⟩
    intro axis low high hr ha
    exact h (axis + 1) low high hr (Nat.succ_lt_succ ha)
  · rintro ⟨hhead, htail⟩ axis low high hr ha
    cases axis with
    | zero => exact hhead low high (Option.some.inj hr)
    | succ axis => exact htail axis low high hr (Nat.lt_of_succ_lt_succ ha)

theorem inside_of_confineAll (h : confineAll ranges values = .ok confined) : Inside ⟨ranges⟩ ⟨confined⟩ := by
  induction ranges, values using confineAll.induct generalizing confined with
  | case1 low high ranges value values ih =>
    obtain ⟨first, hf, h⟩ := Outcome.bind_eq_ok.mp h
    obtain ⟨rest, hr, h⟩ := Outcome.bind_eq_ok.mp h
    cases h
    refine inside_cons.mpr ⟨?_, ih hr⟩
    rintro _ _ ⟨⟩
    exact Coordinates.mem_of_clamp hf le_rfl
  | case2 ranges value values ih =>
    obtain ⟨rest, hr, h⟩ := Outcome.bind_eq_ok.mp h
    cases h
    refine inside_cons.mpr ⟨?_, ih hr⟩
    rintro _ _ ⟨⟩
  | case3 ranges values h1 h2 =>
    rw [confineAll.eq_3 _ _ h1 h2] at h
    cases h
    cases ranges with
    | nil => rintro axis _ _ ⟨⟩
    | cons range ranges =>
      cases values with
      | nil => exact fun _ _ _ _ ha => absurd ha (Nat.not_lt_zero _)
      | cons value values =>
        cases range with
        | none => exact (h2 _ _ _ rfl rfl).elim
        | some range => exact (h1 _ _ _ _ _ rfl rfl).elim

theorem confineAll_of_inside (h : Inside ⟨ranges⟩ ⟨values⟩) : confineAll ranges values = .ok values := by
  induction ranges, values using confineAll.induct with
  | case1 low high ranges value values ih =>
    obtain ⟨hhead, htail⟩ := inside_cons.mp h
    obtain ⟨hl, hh⟩ := hhead low high rfl
    rw [confineAll, ih htail, Coordinates.clamp_of_mem hl hh]
    rfl
  | case2 ranges value values ih =>
    rw [confineAll, ih (inside_cons.mp h).2]
    rfl
  | case3 ranges values h1 h2 => rw [confineAll.eq_3 _ _ h1 h2]

theorem fraction_real : fraction low high a b c =
    if 0 < b - a ∧ high < b then min c (max ((high - a) / (b - a)) 0)
    else if b - a < 0 ∧ b < low then min c (max ((low - a) / (b - a)) 0) else c := by
  simp only [fraction, smaller_real, larger_real, zero_real, add_sub_cancel]

/-- Each axis limits the jog on its own, and the shortest part is taken. -/
theorem fraction_eq_min (hc : c ≤ 1) : fraction low high a b c = min c (fraction low high a b 1) := by
  rw [fraction_real, fraction_real]
  split
  · rw [← min_assoc, min_eq_left hc]
  · split
    · rw [← min_assoc, min_eq_left hc]
    · rw [min_eq_left hc]

theorem fraction_nonneg : 0 ≤ fraction low high a b 1 := by
  rw [fraction_real]
  split
  · exact le_min zero_le_one (le_max_right ..)
  · split
    · exact le_min zero_le_one (le_max_right ..)
    · exact zero_le_one

theorem fraction_self : fraction low high a a 1 = 1 := by
  simp [fraction_real]

theorem le_div_iff_of_rising (hd : 0 < b - a) : u ≤ (high - a) / (b - a) ↔ a + (b - a) * u ≤ high := by
  rw [le_div_iff₀ hd, le_sub_iff_add_le, mul_comm, add_comm]

theorem le_div_iff_of_falling (hd : b - a < 0) : u ≤ (low - a) / (b - a) ↔ low ≤ a + (b - a) * u := by
  rw [le_div_iff_of_neg hd, sub_le_iff_le_add, mul_comm, add_comm]

theorem le_fraction (hu : u ≤ 1) (hl : low ≤ a + (b - a) * u) (hh : a + (b - a) * u ≤ high) :
    u ≤ fraction low high a b 1 := by
  rw [fraction_real]
  split
  · rename_i hd
    exact le_min hu (((le_div_iff_of_rising hd.1).mpr hh).trans (le_max_left ..))
  · split
    · rename_i hd
      exact le_min hu (((le_div_iff_of_falling hd.1).mpr hl).trans (le_max_left ..))
    · exact hu

/-- From where an axis is in its range it stays in it up to the end that limits it. -/
theorem mem_of_le_fraction (hu : 0 ≤ u) (hl : low ≤ a + (b - a) * u) (hh : a + (b - a) * u ≤ high)
    (huv : u ≤ v) (hv : v ≤ fraction low high a b 1) :
    low ≤ a + (b - a) * v ∧ a + (b - a) * v ≤ high := by
  rw [fraction_real] at hv
  split at hv
  · rename_i hd
    rw [max_eq_left (hu.trans ((le_div_iff_of_rising hd.1).mpr hh))] at hv
    have hgo : (b - a) * u ≤ (b - a) * v := mul_le_mul_of_nonneg_left huv hd.1.le
    exact ⟨by linarith, (le_div_iff_of_rising hd.1).mp (hv.trans (min_le_right ..))⟩
  split at hv
  · rename_i hd
    rw [max_eq_left (hu.trans ((le_div_iff_of_falling hd.1).mpr hl))] at hv
    have hgo : (b - a) * v ≤ (b - a) * u := mul_le_mul_of_nonpos_left huv hd.1.le
    exact ⟨(le_div_iff_of_falling hd.1).mp (hv.trans (min_le_right ..)), by linarith⟩
  · rename_i hup hdown
    -- the target does not lie beyond the end of the range in the direction of the jog
    rcases lt_trichotomy (b - a) 0 with hd | hd | hd
    · have hb : low ≤ b := not_lt.mp fun h => hdown ⟨hd, h⟩
      have hgo : (b - a) * v ≤ (b - a) * u := mul_le_mul_of_nonpos_left huv hd.le
      have hend : (b - a) * 1 ≤ (b - a) * v := mul_le_mul_of_nonpos_left hv hd.le
      constructor <;> linarith
    · rw [hd, zero_mul, add_zero] at hl hh ⊢
      exact ⟨hl, hh⟩
    · have hb : b ≤ high := not_lt.mp fun h => hup ⟨hd, h⟩
      have hgo : (b - a) * u ≤ (b - a) * v := mul_le_mul_of_nonneg_left huv hd.le
      have hend : (b - a) * v ≤ (b - a) * 1 := mul_le_mul_of_nonneg_left hv hd.le
      constructor <;> linarith

private theorem le_foldl_fraction_iff (limits : List (Nat × ℝ × ℝ)) (hc : c ≤ 1) :
    u ≤ limits.foldl (fun scale (axis, low, high) =>
        fraction low high (current.axis axis) (target.axis axis) scale) c ↔
      u ≤ c ∧ ∀ axis low high, (axis, low, high) ∈ limits →
        u ≤ fraction low high (current.axis axis) (target.axis axis) 1 := by
  induction limits generalizing c with
  | nil => simp
  | cons limit limits ih =>
    obtain ⟨axis, low, high⟩ := limit
    rw [List.foldl_cons]
    dsimp only
    rw [fraction_eq_min hc, ih ((min_le_left ..).trans hc), le_min_iff, and_assoc]
    refine and_congr_right fun _ => ?_
    constructor
    · rintro ⟨hhead, htail⟩ axis low high (_ | ⟨_, hm⟩)
      · exact hhead
      · exact htail axis low high hm
    · intro h
      exact ⟨h axis low high (.head _), fun axis low high hm => h axis low high (.tail _ hm)⟩

theorem le_scale_iff : u ≤ s.scale current target ↔ u ≤ 1 ∧ ∀ axis low high,
    s.ranges[axis]? = some (some (low, high)) →
      u ≤ fraction low high (current.axis axis) (target.axis axis) 1 := by
  have h1 : (1.0 : ℝ) = 1 := by norm_num
  simp only [scale, h1, le_foldl_fraction_iff s.limits le_rfl, mem_limits]

theorem scale_mem : s.scale current target ∈ Set.Icc (0 : ℝ) 1 :=
  ⟨le_scale_iff.mpr ⟨zero_le_one, fun _ _ _ _ => fraction_nonneg⟩, (le_scale_iff.mp le_rfl).1⟩

/-- When some point of the line is inside, the jog goes to the last one. -/
theorem isGreatest_scale (hl : current.length = target.length) (hu : u ∈ Set.Icc (0 : ℝ) 1)
    (hin : s.Inside (current.lerp target u)) :
    IsGreatest {part | part ∈ Set.Icc (0 : ℝ) 1 ∧ s.Inside (current.lerp target part)}
      (s.scale current target) := by
  have hlength (part : ℝ) : (current.lerp target part).length = current.length := by
    rw [AxisPosition.length_lerp, ← hl, Nat.min_self]
  have hle {part : ℝ} (hp : part ∈ Set.Icc (0 : ℝ) 1) (h : s.Inside (current.lerp target part)) :
      part ≤ s.scale current target := by
    refine le_scale_iff.mpr ⟨hp.2, fun axis low high hr => ?_⟩
    by_cases ha : axis < current.length
    · obtain ⟨hlow, hhigh⟩ := h axis low high hr (ha.trans_eq (hlength part).symm)
      rw [AxisPosition.axis_lerp_of_length_eq hl] at hlow hhigh
      exact le_fraction hp.2 hlow hhigh
    · have hc := not_lt.mp ha
      rw [AxisPosition.axis_of_length_le hc, AxisPosition.axis_of_length_le (hl.symm.trans_le hc), fraction_self]
      exact hp.2
  refine ⟨⟨scale_mem, fun axis low high hr ha => ?_⟩, fun part hp => hle hp.1 hp.2⟩
  obtain ⟨hlow, hhigh⟩ := hin axis low high hr (ha.trans_eq ((hlength _).trans (hlength _).symm))
  rw [AxisPosition.axis_lerp_of_length_eq hl] at hlow hhigh ⊢
  exact mem_of_le_fraction hu.1 hlow hhigh (hle hu hin) ((le_scale_iff.mp le_rfl).2 axis low high hr)

section Clipped
variable {move : Move ℝ}

/-- A clipped jog ends inside, and one whose target passes the check is not clipped. -/
theorem exists_clipJog (hr : ∀ low high, some (low, high) ∈ s.ranges → low < high)
    (hl : current.length = move.target.length) : ∃ target, s.clipJog move current = .ok { move with target } ∧
      target.length = move.target.length ∧ s.Inside target ∧
      (s.contains move.target = true → target = move.target) := by
  by_cases hc : s.contains move.target = true
  · exact ⟨move.target, by rw [clipJog, if_pos hc], rfl, inside_of_contains hc, fun _ => rfl⟩
  · obtain ⟨values, hv, hlength⟩ := exists_confineAll (fun low high hm => (hr low high hm).le)
      (current.lerp move.target (s.scale current move.target)).values
    refine ⟨⟨values⟩, ?_, ?_, inside_of_confineAll hv, fun h => absurd h hc⟩
    · rw [clipJog, if_neg hc]
      dsimp only
      rw [hv]
      rfl
    · calc AxisPosition.length ⟨values⟩
        _ = (current.lerp move.target (s.scale current move.target)).length := hlength
        _ = move.target.length := by rw [AxisPosition.length_lerp, hl, Nat.min_self]

theorem clipJog_of_inside (hl : current.length = move.target.length) (hu : u ∈ Set.Icc (0 : ℝ) 1)
    (hin : s.Inside (current.lerp move.target u)) : s.clipJog move current =
      .ok { move with target := current.lerp move.target (s.scale current move.target) } := by
  have hgreatest := isGreatest_scale hl hu hin
  rw [clipJog]
  split
  · rename_i hc
    have hone : s.Inside (current.lerp move.target 1) := by
      rw [AxisPosition.lerp_one hl]
      exact inside_of_contains hc
    have hscale : s.scale current move.target = 1 :=
      le_antisymm scale_mem.2 (hgreatest.2 ⟨Set.right_mem_Icc.mpr zero_le_one, hone⟩)
    rw [hscale, AxisPosition.lerp_one hl]
  · have hkept : confineAll s.ranges (current.lerp move.target (s.scale current move.target)).values =
        .ok (current.lerp move.target (s.scale current move.target)).values :=
      confineAll_of_inside hgreatest.1.2
    dsimp only
    rw [hkept]
    rfl

/-- A clipped jog ends in every range, and is not clipped again. From inside the ranges it ends at the last point of
its line that is in all of them, where there is nothing left to confine. -/
theorem clipJog_ends_inside (hr : ∀ low high, some (low, high) ∈ s.ranges → low < high)
    (hl : current.length = move.target.length) (hn : s.ranges.length ≤ current.length) :
    ∃ target, s.clipJog move current = .ok { move with target } ∧ s.contains target = true ∧
      (s.contains move.target = true → target = move.target) ∧
      (s.contains current = true →
        target = current.lerp move.target (s.scale current move.target) ∧
        IsGreatest {part | part ∈ Set.Icc (0 : ℝ) 1 ∧ s.contains (current.lerp move.target part) = true}
          (s.scale current move.target) ∧
        confineAll s.ranges target.values = .ok target.values) ∧
      s.clipJog { move with target } current = .ok { move with target } := by
  obtain ⟨target, hclip, hlength, hin, hkept⟩ := exists_clipJog hr hl
  have hc : s.contains target = true :=
    (contains_iff_inside (hn.trans_eq (hl.trans hlength.symm))).mpr hin
  refine ⟨target, hclip, hc, hkept, fun hcurrent => ?_, by rw [clipJog, if_pos hc]⟩
  have hstart : s.Inside (current.lerp move.target 0) := by
    rw [AxisPosition.lerp_zero hl]
    exact inside_of_contains hcurrent
  have hzero : (0 : ℝ) ∈ Set.Icc (0 : ℝ) 1 := Set.left_mem_Icc.mpr zero_le_one
  have hline (part : ℝ) : s.contains (current.lerp move.target part) = true ↔
      s.Inside (current.lerp move.target part) := by
    apply contains_iff_inside
    rwa [AxisPosition.length_lerp, ← hl, Nat.min_self]
  rw [clipJog_of_inside hl hzero hstart, Except.ok.injEq, Move.mk.injEq] at hclip
  simp only [hline]
  exact ⟨hclip.1.symm, isGreatest_scale hl hzero hstart, confineAll_of_inside hin⟩

/-- A clipped jog ends on its line exactly when the line meets the ranges. Each axis is then at or between its current
and its requested value. -/
theorem clipJog_mem_line_iff (hr : ∀ low high, some (low, high) ∈ s.ranges → low < high)
    (hl : current.length = move.target.length) :
    ∃ target, s.clipJog move current = .ok { move with target } ∧
      (target ∈ current.line move.target ↔ ∃ p ∈ current.line move.target, s.Inside p) ∧
      (target ∈ current.line move.target →
        ∀ axis, target.axis axis ∈ Set.uIcc (current.axis axis) (move.target.axis axis)) := by
  obtain ⟨target, hclip, -, hin, -⟩ := exists_clipJog hr hl
  refine ⟨target, hclip, ⟨fun h => ⟨target, h, hin⟩, ?_⟩, fun h => AxisPosition.axis_mem_uIcc_of_mem_line hl h⟩
  rintro ⟨_, ⟨part, hp, rfl⟩, hmeets⟩
  rw [clipJog_of_inside hl hp hmeets, Except.ok.injEq, Move.mk.injEq] at hclip
  exact ⟨s.scale current move.target, scale_mem, hclip.1⟩

end Clipped

/-- The travel of a machine whose first axis does not reach the position assumed at power-up. -/
noncomputable def offsetRanges : SoftLimits ℝ := ⟨[some (30, 50), some (-100, 0)]⟩

theorem offsetRanges_nonempty {low high : ℝ} (h : some (low, high) ∈ offsetRanges.ranges) : low < high := by
  simp only [offsetRanges, List.mem_cons, Option.some.injEq, Prod.mk.injEq, List.not_mem_nil, or_false] at h
  rcases h with ⟨rfl, rfl⟩ | ⟨rfl, rfl⟩ <;> norm_num

theorem contains_offsetRanges (x y : ℝ) :
    offsetRanges.contains ⟨[x, y]⟩ = true ↔ (30 ≤ x ∧ x ≤ 50) ∧ -100 ≤ y ∧ y ≤ 0 := by
  simp [contains, offsetRanges, limits, AxisPosition.axis]

theorem scale_offsetRanges (x y x' y' : ℝ) : offsetRanges.scale ⟨[x, y]⟩ ⟨[x', y']⟩ =
    fraction (-100) 0 y y' (fraction 30 50 x x' 1) := by
  have h1 : (1.0 : ℝ) = 1 := by norm_num
  rw [← h1]
  rfl

/-- From inside to beyond an end of each range, past the end of the second one first. -/
theorem jog_past_two_ends_cut : (∀ low high, some (low, high) ∈ offsetRanges.ranges → low < high) ∧
    offsetRanges.contains ⟨[40, -50]⟩ = true ∧
    offsetRanges.clipJog (Move.jog ⟨[60, 150]⟩ 600) ⟨[40, -50]⟩ = .ok (Move.jog ⟨[45, 0]⟩ 600) := by
  have hc : offsetRanges.contains ⟨[40, -50]⟩ = true := by
    rw [contains_offsetRanges]
    norm_num
  have hs : offsetRanges.scale ⟨[40, -50]⟩ ⟨[60, 150]⟩ = 1 / 4 := by
    rw [scale_offsetRanges, fraction_real, fraction_real]
    norm_num
  obtain ⟨target, hclip, -, -, hcut, -⟩ := @clipJog_ends_inside offsetRanges ⟨[40, -50]⟩
    (Move.jog ⟨[60, 150]⟩ 600) (fun _ _ => offsetRanges_nonempty) rfl le_rfl
  have ht : target = ⟨[45, 0]⟩ := by
    refine (hcut hc).1.trans ?_
    rw [Move.jog, hs]
    norm_num [AxisPosition.lerp, Coordinates.lerp]
  exact ⟨fun _ _ => offsetRanges_nonempty, hc, by rw [hclip, ht]; rfl⟩

/-- From outside the ranges, through them, to beyond their other end. -/
theorem jog_through_ranges_keeps_line : (∀ low high, some (low, high) ∈ offsetRanges.ranges → low < high) ∧
    ∃ target, offsetRanges.clipJog (Move.jog ⟨[80, -90]⟩ 600) ⟨[0, -50]⟩ = .ok (Move.jog target 600) ∧
      target ∈ AxisPosition.line ⟨[0, -50]⟩ ⟨[80, -90]⟩ := by
  obtain ⟨target, hclip, hline, -⟩ := @clipJog_mem_line_iff offsetRanges ⟨[0, -50]⟩
    (Move.jog ⟨[80, -90]⟩ 600) (fun _ _ => offsetRanges_nonempty) rfl
  refine ⟨fun _ _ => offsetRanges_nonempty, target, hclip, hline.mpr ⟨_, ⟨1 / 2, by norm_num, rfl⟩, ?_⟩⟩
  apply inside_of_contains
  have hp : AxisPosition.lerp ⟨[0, -50]⟩ ⟨[80, -90]⟩ (1 / 2 : ℝ) = ⟨[40, -70]⟩ := by
    norm_num [AxisPosition.lerp, Coordinates.lerp]
  rw [Move.jog, hp, contains_offsetRanges]
  norm_num

/-- Clipping a jog of the second axis drives the first one, which is not to move, into its range. -/
theorem idle_axis_driven_into_range : (∀ low high, some (low, high) ∈ offsetRanges.ranges → low < high) ∧
    offsetRanges.clipJog (Move.jog ⟨[0, -5]⟩ 600) ⟨[0, 0]⟩ = .ok (Move.jog ⟨[30, -5]⟩ 600) ∧
    (⟨[30, -5]⟩ : AxisPosition ℝ) ∉ AxisPosition.line ⟨[0, 0]⟩ ⟨[0, -5]⟩ := by
  refine ⟨fun _ _ => offsetRanges_nonempty, ?_, ?_⟩
  · have hc : ¬ offsetRanges.contains ⟨[0, -5]⟩ = true := by
      rw [contains_offsetRanges]
      norm_num
    have hs : offsetRanges.scale ⟨[0, 0]⟩ ⟨[0, -5]⟩ = 1 := by
      rw [scale_offsetRanges, fraction_real, fraction_real]
      norm_num
    have hend : AxisPosition.lerp ⟨[0, 0]⟩ ⟨[0, -5]⟩ (1 : ℝ) = ⟨[0, -5]⟩ := AxisPosition.lerp_one (by rfl)
    have hmoved : confineAll offsetRanges.ranges [0, -5] = .ok [30, -5] := by
      norm_num [offsetRanges, confineAll, Coordinates.clamp, confine]
      rfl
    rw [clipJog, Move.jog, if_neg hc]
    dsimp only
    rw [hs, hend]
    dsimp only
    rw [hmoved]
    rfl
  · intro h
    have hx := AxisPosition.axis_mem_uIcc_of_mem_line (by rfl) h 0
    norm_num [AxisPosition.axis] at hx

end SoftLimits

end MotionControl
