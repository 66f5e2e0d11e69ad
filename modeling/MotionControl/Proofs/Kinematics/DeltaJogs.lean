import MotionControl.Proofs.Kinematics.DeltaReach

/-! Jogs of the rotary delta over exact numbers. Nothing is known of the part of a line that is in reach. The search for
the end of a jog keeps between a point in reach and one out of reach, and ends when they are close together. -/
namespace MotionControl.RotaryDelta
open Scalar
variable {g : DeltaSettings ℝ} {move : Move ℝ} {p current target : AxisPosition ℝ} {low high : ℝ}

/-- A position below the base, within the reach of the machine, that has crank angles. -/
def InReach (g : DeltaSettings ℝ) (p : AxisPosition ℝ) : Prop :=
  invalidLine g p = false ∧ ∃ m, inverse g p = .ok m

theorem InReach.range_le (h : InReach g p) : g.minAngle ≤ g.maxAngle := by
  obtain ⟨-, m, hm⟩ := h
  obtain ⟨x, y, z, θ1, θ2, θ3, rest, -, -, -, -, hθ⟩ := angles_of_inverse hm
  obtain ⟨hl, hu⟩ := hθ θ1 (.head _)
  exact hl.trans hu

theorem reachable_of_inReach (h : InReach g p) : reachable g p = .ok true := by
  obtain ⟨ht, -⟩ | ⟨-, hn⟩ := reachable_of_range h.range_le p
  · exact ht
  · exact absurd h hn

theorem reachable_of_not_inReach (hr : g.minAngle ≤ g.maxAngle) (h : ¬ InReach g p) :
    reachable g p = .ok false := by
  obtain ⟨-, hin⟩ | ⟨hf, -⟩ := reachable_of_range hr p
  · exact absurd hin h
  · exact hf

/-- The search ends at a point in reach, from which a point out of reach is a part of the way off that is halved in
each step. -/
theorem exists_bisect_between (hle : low ≤ high) (hlow : InReach g (current.lerp target low))
    (hhigh : ¬ InReach g (current.lerp target high)) (steps : Nat) :
    ∃ part, bisect g current target steps low high = .ok part ∧ low ≤ part ∧
      part + (high - low) / 2 ^ steps ≤ high ∧ InReach g (current.lerp target part) ∧
      ¬ InReach g (current.lerp target (part + (high - low) / 2 ^ steps)) := by
  have hr := hlow.range_le
  induction steps generalizing low high with
  | zero =>
    rw [pow_zero, div_one]
    exact ⟨low, rfl, le_rfl, (add_sub_cancel low high).le, hlow, by rwa [add_sub_cancel]⟩
  | succ steps ih =>
    have hmiddle : (0.5 : ℝ) * (low + high) = (low + high) / 2 := by
      norm_num
      ring
    have hupper : (high - (low + high) / 2) / 2 ^ steps = (high - low) / 2 ^ (steps + 1) := by
      rw [pow_succ]
      field_simp
      ring
    have hlower : ((low + high) / 2 - low) / 2 ^ steps = (high - low) / 2 ^ (steps + 1) := by
      rw [pow_succ]
      field_simp
      ring
    rw [bisect, hmiddle]
    by_cases hm : InReach g (current.lerp target ((low + high) / 2))
    · obtain ⟨part, hb, hl, hend, hin, hout⟩ := ih (by linarith) hm hhigh
      rw [hupper] at hend hout
      refine ⟨part, ?_, by linarith, hend, hin, hout⟩
      rw [reachable_of_inReach hm]
      exact hb
    · obtain ⟨part, hb, hl, hend, hin, hout⟩ := ih (by linarith) hlow hm
      rw [hlower] at hend hout
      refine ⟨part, ?_, hl, by linarith, hin, hout⟩
      rw [reachable_of_not_inReach hr hm]
      exact hb

/-- Confining an angle to a range with its ends reversed is all that breaks a check off. -/
theorem eq_emptyRange_of_armAngle {arm : Nat} {x y z : ℝ} {fault : Fault}
    (h : armAngle g target arm x y z = .error (.fault fault)) : fault = .emptyRange := by
  rw [armAngle] at h
  split at h
  · cases h
  · split at h
    · cases h
    · rw [Outcome.lift_eq_fault, Coordinates.clamp] at h
      split at h
      · cases h
      · cases h
        rfl

theorem eq_emptyRange_of_inverse {fault : Fault} (h : inverse g p = .error (.fault fault)) :
    fault = .emptyRange := by
  rw [inverse] at h
  split at h
  · split at h
    · cases h
    · split at h
      · cases h
      · simp only [Outcome.bind_eq_error, Outcome.pure_ne_error, and_false, exists_false, or_false] at h
        obtain h | ⟨-, -, h | ⟨-, -, h⟩⟩ := h <;> exact eq_emptyRange_of_armAngle h
  · cases h

theorem reachable_cases (h : ¬ InReach g p) :
    reachable g p = .ok false ∨ g.maxAngle < g.minAngle ∧ reachable g p = .error .emptyRange := by
  by_cases hr : g.minAngle ≤ g.maxAngle
  · exact .inl (reachable_of_not_inReach hr h)
  · rw [reachable]
    split
    · exact .inl rfl
    · rename_i hi
      split
      · rename_i m hm
        exact absurd ⟨eq_false_of_ne_true hi, m, hm⟩ h
      · exact .inl rfl
      · rename_i fault hf
        rw [eq_emptyRange_of_inverse hf]
        exact .inr ⟨not_le.mp hr, rfl⟩

theorem constrainJog_of_inReach (h : InReach g move.target) : constrainJog g move current = .ok move := by
  rw [constrainJog, reachable_of_inReach h]
  rfl

theorem constrainJog_of_not_inReach (h : ¬ InReach g current) : constrainJog g move current = .ok move ∨
    g.maxAngle < g.minAngle ∧ constrainJog g move current = .error .emptyRange := by
  by_cases ht : InReach g move.target
  · exact .inl (constrainJog_of_inReach ht)
  rw [constrainJog]
  obtain ht | ⟨hr, ht⟩ := reachable_cases ht
  · rw [ht]
    obtain hc | ⟨hr, hc⟩ := reachable_cases h
    · rw [hc]
      exact .inl rfl
    · rw [hc]
      exact .inr ⟨hr, rfl⟩
  · rw [ht]
    exact .inr ⟨hr, rfl⟩

/-- A jog that leaves the workspace ends just before a point out of reach. -/
theorem exists_constrainJog_of_leaves (hl : current.length = move.target.length) (hc : InReach g current)
    (ht : ¬ InReach g move.target) : ∃ part : ℝ, 0 ≤ part ∧ part < 1 ∧
      constrainJog g move current = .ok { move with target := current.lerp move.target part } ∧
      InReach g (current.lerp move.target part) ∧ ¬ InReach g (current.lerp move.target (part + 1 / 2 ^ 64)) := by
  have h0 : (0.0 : ℝ) = 0 := by norm_num
  have h1 : (1.0 : ℝ) = 1 := by norm_num
  have hstart : InReach g (current.lerp move.target 0) := by rwa [AxisPosition.lerp_zero hl]
  have htarget : ¬ InReach g (current.lerp move.target 1) := by rwa [AxisPosition.lerp_one hl]
  obtain ⟨part, hb, hpart, hend, hin, hout⟩ := exists_bisect_between zero_le_one hstart htarget jogBisections
  rw [sub_zero] at hend hout
  have hstep : (0 : ℝ) < 1 / 2 ^ jogBisections := by positivity
  refine ⟨part, hpart, by linarith, ?_, hin, hout⟩
  rw [constrainJog, reachable_of_not_inReach hc.range_le ht, reachable_of_inReach hc, h0, h1, hb]
  rfl

/-- A jog is cut when it goes from a position in reach to one out of reach. It then ends in reach, and a `2 ^ 64`th of
the way further it would not. A jog that has been cut is not cut again. When the ends of the crank range are reversed,
nothing is in reach, and the check of a position may break off. -/
theorem constrainJog_cuts (hl : current.length = move.target.length) :
    (InReach g move.target → constrainJog g move current = .ok move) ∧
    (¬ InReach g current → constrainJog g move current = .ok move ∨
      g.maxAngle < g.minAngle ∧ constrainJog g move current = .error .emptyRange) ∧
    (InReach g current → ¬ InReach g move.target → ∃ part : ℝ, 0 ≤ part ∧ part < 1 ∧
      constrainJog g move current = .ok { move with target := current.lerp move.target part } ∧
      InReach g (current.lerp move.target part) ∧ ¬ InReach g (current.lerp move.target (part + 1 / 2 ^ 64))) ∧
    ∀ cut, constrainJog g move current = .ok cut → constrainJog g cut current = .ok cut := by
  refine ⟨constrainJog_of_inReach, constrainJog_of_not_inReach, exists_constrainJog_of_leaves hl, fun cut hcut => ?_⟩
  by_cases hc : InReach g current
  · by_cases ht : InReach g move.target
    · rw [constrainJog_of_inReach ht] at hcut
      cases hcut
      exact constrainJog_of_inReach ht
    · obtain ⟨part, -, -, hpart, hin, -⟩ := exists_constrainJog_of_leaves hl hc ht
      rw [hpart] at hcut
      cases hcut
      exact constrainJog_of_inReach hin
  · obtain h | ⟨-, h⟩ := @constrainJog_of_not_inReach g move current hc
    · rw [h] at hcut
      cases hcut
      exact h
    · rw [h] at hcut
      cases hcut

/-- A base as large as the effector. Level cranks hold the effector four units below it. -/
noncomputable def evenDelta (minAngle maxAngle : ℝ) : DeltaSettings ℝ := ⟨3.0, 1.0, 5.0, 1.0, minAngle, maxAngle, 0.0⟩

section Even
variable {minAngle maxAngle : ℝ}

theorem sideGap_evenDelta : sideGap (evenDelta minAngle maxAngle) = 0 := by
  rw [sideGap_real]
  norm_num [evenDelta]

theorem crankAngle_evenDelta : crankAngle (evenDelta minAngle maxAngle) 0 0 (-4) = some 0 := by
  have hcrank : (evenDelta minAngle maxAngle).crank = 3 := by norm_num [evenDelta]
  have harm : (evenDelta minAngle maxAngle).arm = 5 := by norm_num [evenDelta]
  have hpi := Real.pi_pos
  rw [crankAngle_eq_some_iff (by linarith) (by norm_num)]
  refine ⟨⟨?_, ?_⟩, by linarith, by linarith⟩ <;>
    rw [tipReach_zero, tipHeight_real, sideGap_evenDelta, hcrank, Real.sin_zero] <;> norm_num [harm]

theorem invalidLine_evenDelta : invalidLine (evenDelta minAngle maxAngle) ⟨[0, 0, -4]⟩ = false := by
  have hcenter : hypot (0 : ℝ) 0 = √(0 * 0 + 0 * 0) := rfl
  rw [invalidLine_eq_false_iff, tipReach_zero, sideGap_evenDelta, hcenter]
  norm_num [evenDelta]

theorem inReach_evenDelta (hl : minAngle ≤ 0) (hu : 0 ≤ maxAngle) :
    InReach (evenDelta minAngle maxAngle) ⟨[0, 0, -4]⟩ := by
  have hr : rawAngles (evenDelta minAngle maxAngle) ⟨[0, 0, -4]⟩ = [some 0, some 0, some 0] := by
    simp only [rawAngles, zero_mul, add_zero, sub_zero, crankAngle_evenDelta]
  exact ⟨invalidLine_evenDelta, _, inverse_of_rawAngles (by norm_num) hr (by simpa using ⟨hl, hu⟩)⟩

end Even

/-- A jog from below the base to above it is cut. -/
theorem raising_jog_cut : AxisPosition.length (⟨[0, 0, -4]⟩ : AxisPosition ℝ) = 3 ∧
    ∃ part : ℝ, 0 ≤ part ∧ part < 1 ∧
      constrainJog (evenDelta (-1) 1) (Move.jog ⟨[0, 0, 4]⟩ 600) ⟨[0, 0, -4]⟩ =
        .ok (Move.jog (AxisPosition.lerp ⟨[0, 0, -4]⟩ ⟨[0, 0, 4]⟩ part) 600) ∧
      InReach (evenDelta (-1) 1) (AxisPosition.lerp ⟨[0, 0, -4]⟩ ⟨[0, 0, 4]⟩ part) := by
  have hin : InReach (evenDelta (-1) 1) ⟨[0, 0, -4]⟩ := inReach_evenDelta (by norm_num) (by norm_num)
  have hout : ¬ InReach (evenDelta (-1) 1) ⟨[0, 0, 4]⟩ := by
    rintro ⟨hn, -⟩
    linarith only [(invalidLine_eq_false_iff.mp hn).1]
  have hcuts := @constrainJog_cuts (evenDelta (-1) 1) (Move.jog ⟨[0, 0, 4]⟩ 600) ⟨[0, 0, -4]⟩ rfl
  obtain ⟨part, h0, h1, hcut, hreached, -⟩ := hcuts.2.2.1 hin hout
  exact ⟨rfl, part, h0, h1, hcut, hreached⟩

/-- A crank range with its ends reversed by less than the round-off that is forgiven. -/
noncomputable def reversedDelta : DeltaSettings ℝ := evenDelta 1e-7 (-1e-7)

/-- Nothing is in reach with a reversed crank range, but a jog near it is broken off. -/
theorem reversed_range_breaks_off : (∀ p, ¬ InReach reversedDelta p) ∧
    constrainJog reversedDelta (Move.jog ⟨[0, 0, -4]⟩ 600) ⟨[0, 0, -4]⟩ = .error .emptyRange := by
  have hrange : ¬ reversedDelta.minAngle ≤ reversedDelta.maxAngle := by
    norm_num [reversedDelta, evenDelta]
  have hangle (target : AxisPosition ℝ) :
      armAngle reversedDelta target 1 0 0 (-4) = .error (.fault .emptyRange) := by
    have hclose : ¬ ((0 : ℝ) < reversedDelta.minAngle - angleTolerance ∨
        reversedDelta.maxAngle + angleTolerance < 0) := by
      norm_num [reversedDelta, evenDelta, angleTolerance]
    have hlevel : crankAngle reversedDelta 0 0 (-4) = some 0 := crankAngle_evenDelta
    simp only [armAngle, hlevel, if_neg hclose, Coordinates.clamp, if_neg hrange]
    rfl
  have hinverse : inverse reversedDelta ⟨[0, 0, -4]⟩ = .error (.fault .emptyRange) := by
    have hs : ¬ Scalar.abs (-4 : ℝ) < 1e-9 := by norm_num
    have ha : ¬ (0.0 : ℝ) < -4 := by norm_num
    rw [inverse]
    dsimp only
    rw [if_neg hs, if_neg ha, hangle]
    rfl
  have hreachable : reachable reversedDelta ⟨[0, 0, -4]⟩ = .error .emptyRange := by
    have hline : invalidLine reversedDelta ⟨[0, 0, -4]⟩ = false := invalidLine_evenDelta
    rw [reachable, hline, hinverse]
    rfl
  refine ⟨fun p hp => hrange hp.range_le, ?_⟩
  rw [constrainJog, Move.jog, hreachable]
  rfl

end MotionControl.RotaryDelta
