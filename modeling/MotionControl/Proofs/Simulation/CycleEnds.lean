import MotionControl.Proofs.Scalar.Real
import MotionControl.Proofs.Controller.Creation
import MotionControl.Proofs.Controller.HomingSteps
import MotionControl.Proofs.Homing.Polls
import MotionControl.Proofs.Simulation.SwitchTrips

/-! How a simulated homing cycle ends, over exact numbers. The part of the approach that has been travelled
grows by the same amount with every poll, and a cycle ends when the switches of all of its axes have tripped,
unless it is cancelled before or the approach comes to its end. -/
namespace MotionControl
open Scalar

namespace SimulationSettings
variable (s : SimulationSettings ℝ)

/-- The number of polls in the whole approach. -/
def polls : Nat := max 1 s.ticksPerApproach

/-- The switches of some axes have all tripped at a poll. The first poll of a cycle has number one. -/
def Met (axes : AxisMask) (poll : Nat) : Prop := ∀ axis, axes.contains axis = true →
  ∃ part, s.tripAt[axis]? = some (some part) ∧ part ≤ (poll : ℝ) / s.polls

/-- The polls of an approach at which the switches of some axes have all tripped. -/
def metPolls (axes : AxisMask) : Set Nat := {poll | 1 ≤ poll ∧ poll ≤ s.polls ∧ s.Met axes poll}

/-- The polls at which there is a reason to cancel. -/
def cancelledPolls (reasons : Nat → Option AbortReason) : Set Nat := {poll | 1 ≤ poll ∧ reasons poll ≠ none}

/-- The poll that a cycle ends at, and how. -/
inductive Ends (axes : AxisMask) (reasons : Nat → Option AbortReason) : Nat → CycleEnd → Prop where
  /-- A cancel is seen no later than the last switch trips. -/
  | cancelled {poll : Nat} {reason : AbortReason} (first : IsLeast (cancelledPolls reasons) poll)
      (seen : reasons poll = some reason) (in_time : poll ≤ s.polls)
      (not_met : ∀ k ∈ s.metPolls axes, poll ≤ k) :
      Ends axes reasons poll (.aborted reason)
  | homed {poll : Nat} (first : IsLeast (s.metPolls axes) poll)
      (not_cancelled : ∀ c ∈ cancelledPolls reasons, poll < c) : Ends axes reasons poll (.homed axes)
  /-- The approach is over before the last switch trips. -/
  | failed (never : s.metPolls axes = ∅) (not_cancelled : ∀ c ∈ cancelledPolls reasons, s.polls < c) :
      Ends axes reasons s.polls (.aborted .approachFailed)

variable {s} {axes : AxisMask} {reasons : Nat → Option AbortReason} {poll : Nat}

theorem Ends.le_polls {ending : CycleEnd} (h : s.Ends axes reasons poll ending) : poll ≤ s.polls := by
  cases h with
  | cancelled _ _ in_time => exact in_time
  | homed first => exact first.1.2.1
  | failed => exact Nat.le_refl _

theorem polls_pos : 0 < s.polls := Nat.lt_of_lt_of_le Nat.zero_lt_one (Nat.le_max_left ..)

/-- Nothing has ended a cycle up to a poll. -/
def Quiet (s : SimulationSettings ℝ) (axes : AxisMask) (reasons : Nat → Option AbortReason) (poll : Nat) :
    Prop :=
  ∀ earlier, 1 ≤ earlier → earlier ≤ poll → reasons earlier = none ∧ ¬ s.Met axes earlier

theorem travelled_succ (h : poll < s.polls) :
    smaller ((poll : ℝ) / s.polls + s.increment) 1.0 = ((poll + 1 : Nat) : ℝ) / s.polls := by
  have hn : (0 : ℝ) < s.polls := by exact_mod_cast polls_pos
  have hi : s.increment = 1 / (s.polls : ℝ) := by
    rw [increment]
    norm_num
    rfl
  have hle : ((poll + 1 : Nat) : ℝ) / s.polls ≤ 1 := by
    rw [div_le_one hn]
    exact_mod_cast h
  rw [hi, ← add_div, smaller_real]
  norm_num at hle ⊢
  exact hle

theorem travelled_done_iff (h : poll < s.polls) :
    (1.0 : ℝ) ≤ ((poll + 1 : Nat) : ℝ) / s.polls ↔ poll + 1 = s.polls := by
  have hn : (0 : ℝ) < s.polls := by exact_mod_cast polls_pos
  have ho : (1.0 : ℝ) = 1 := by norm_num
  rw [ho, one_le_div hn, Nat.cast_le]
  omega

theorem trips_mono {axis : Nat} {first second : ℝ} (h : first ≤ second) (ht : s.trips axis first = true) :
    s.trips axis second = true := by
  obtain ⟨part, hp, hl⟩ := (s.trips_iff).mp ht
  exact (s.trips_iff).mpr ⟨part, hp, hl.trans h⟩

theorem isEmpty_sub_iff_met {layout : AxisLayout} (hl : axes ⊆ layout.allAxes) {seen : MotorMask}
    (hs : ∀ axis < maxAxes, ∀ motor < 2, (layout.motorsFor axes).has axis motor = true →
      seen.has axis motor = s.trips axis ((poll : ℝ) / s.polls)) :
    (layout.motorsFor axes - seen).isEmpty = true ↔ s.Met axes poll := by
  rw [AxisLayout.isEmpty_motorsFor_sub_iff hl hs]
  simp only [s.trips_iff, Met]

theorem Quiet.succ (hq : Quiet s axes reasons poll) (hr : reasons (poll + 1) = none)
    (hm : ¬ s.Met axes (poll + 1)) : Quiet s axes reasons (poll + 1) := by
  intro earlier h1 hle
  obtain hle | rfl := Nat.le_succ_iff.mp hle
  · exact hq earlier h1 hle
  · exact ⟨hr, hm⟩

theorem Quiet.lt_of_mem_metPolls (hq : Quiet s axes reasons poll) {k : Nat} (hk : k ∈ s.metPolls axes) :
    poll < k := by
  by_contra hle
  exact (hq k hk.1 (Nat.le_of_not_lt hle)).2 hk.2.2

theorem Quiet.lt_of_mem_cancelledPolls (hq : Quiet s axes reasons poll) {c : Nat}
    (hc : c ∈ cancelledPolls reasons) : poll < c := by
  by_contra hle
  exact hc.2 (hq c hc.1 (Nat.le_of_not_lt hle)).1

theorem Quiet.cancelled_succ (hq : Quiet s axes reasons poll) (hp : poll < s.polls) {reason : AbortReason}
    (hr : reasons (poll + 1) = some reason) : s.Ends axes reasons (poll + 1) (.aborted reason) := by
  refine .cancelled ⟨⟨by omega, ?_⟩, fun c hc => hq.lt_of_mem_cancelledPolls hc⟩ hr hp
    fun k hk => hq.lt_of_mem_metPolls hk
  rw [hr]
  exact Option.some_ne_none reason

theorem Quiet.homed_succ (hq : Quiet s axes reasons poll) (hp : poll < s.polls) (hr : reasons (poll + 1) = none)
    (hm : s.Met axes (poll + 1)) : s.Ends axes reasons (poll + 1) (.homed axes) := by
  refine .homed ⟨⟨by omega, hp, hm⟩, fun k hk => hq.lt_of_mem_metPolls hk⟩ fun c hc => ?_
  have hlt := hq.lt_of_mem_cancelledPolls hc
  have hne : c ≠ poll + 1 := fun he => hc.2 (he ▸ hr)
  omega

theorem Quiet.failed_succ (hq : Quiet s axes reasons poll) (hr : reasons (poll + 1) = none)
    (hm : ¬ s.Met axes (poll + 1)) (hlast : poll + 1 = s.polls) :
    s.Ends axes reasons s.polls (.aborted .approachFailed) := by
  have hall := hlast ▸ hq.succ hr hm
  refine .failed (Set.eq_empty_iff_forall_notMem.mpr fun k hk => ?_)
    fun c hc => hall.lt_of_mem_cancelledPolls hc
  exact (hall k hk.1 hk.2.1).2 hk.2.2

end SimulationSettings

namespace Simulation
open SimulationSettings Controller HomingSequence
variable {catalog : KinematicsCatalog ℝ} {machine : MachineDescription ℝ} {s : SimulationSettings ℝ}
  {axes : AxisMask} {poll : Nat} {seen moving : MotorMask} {c : Controller ℝ}

/-- A cycle in progress after some polls, none of which has ended it. The motors of the cycle have been
reported where the switches of their axes have tripped. -/
structure Approaching (catalog : KinematicsCatalog ℝ) (machine : MachineDescription ℝ)
    (s : SimulationSettings ℝ) (axes : AxisMask) (poll : Nat) (seen moving : MotorMask) (c : Controller ℝ) :
    Prop where
  reachable : Reachable catalog machine c
  subset : axes ⊆ c.model.layout.allAxes
  active : c.homing.active = some (c.model.cycleAfter axes seen)
  moving_eq : moving = machine.kinematics.moving axes (c.model.homingMotors axes) seen
  reported : ∀ axis < maxAxes, ∀ motor < 2, (c.model.layout.motorsFor axes).has axis motor = true →
    seen.has axis motor = (decide (0 < poll) && s.trips axis ((poll : ℝ) / s.polls))
  waits : (c.model.layout.motorsFor axes - seen).isEmpty = false

/-- What the driver of a cycle reports at the poll after some others. -/
noncomputable def report (s : SimulationSettings ℝ) (poll : Nat) (moving : MotorMask)
    (reason : Option AbortReason) : HomingPoll where
  limited := s.limited moving (((poll + 1 : Nat) : ℝ) / s.polls)
  motionDone := poll + 1 == s.polls
  cancel := reason

/-- The answers to the poll of a cycle, and what they leave. -/
inductive Answer (catalog : KinematicsCatalog ℝ) (machine : MachineDescription ℝ) (s : SimulationSettings ℝ)
    (axes : AxisMask) (poll : Nat) : Option AbortReason → HomingStep → Controller ℝ → Prop where
  | cancelled (reason : AbortReason) (c : Controller ℝ) :
      Answer catalog machine s axes poll (some reason) (.aborted reason) c
  | homed {released : MotorMask} (met : s.Met axes poll) (c : Controller ℝ) :
      Answer catalog machine s axes poll none (.done ⟨axes, released⟩) c
  | failed (not_met : ¬ s.Met axes poll) (last : poll = s.polls) (c : Controller ℝ) :
      Answer catalog machine s axes poll none (.aborted .approachFailed) c
  | continued {seen moving : MotorMask} {c : Controller ℝ} (not_met : ¬ s.Met axes poll)
      (early : poll < s.polls) (next : Approaching catalog machine s axes poll seen moving c) :
      Answer catalog machine s axes poll none (.continue moving) c

/-- A motor that the cycle waits for moves until it is reported, and stays reported. -/
theorem Approaching.reported_succ (h : Approaching catalog machine s axes poll seen moving c)
    (hb : ∀ name params, machine.kinematics ≠ .custom name params) (reason : Option AbortReason) :
    ∀ axis < maxAxes, ∀ motor < 2, (c.model.layout.motorsFor axes).has axis motor = true →
      (seen ||| (report s poll moving reason).limited).has axis motor =
        s.trips axis (((poll + 1 : Nat) : ℝ) / s.polls) := by
  intro axis ha motor hm hr
  rw [MotorMask.has_or, report, s.has_limited moving ha hm]
  cases hs : seen.has axis motor with
  | false =>
    rw [h.moving_eq, KinematicsCatalog.has_moving h.reachable.create hb ha hm hr hs]
    simp
  | true =>
    have ht := h.reported axis ha motor hm hr
    rw [hs] at ht
    have hle : (poll : ℝ) / s.polls ≤ ((poll + 1 : Nat) : ℝ) / s.polls := by
      gcongr
      exact Nat.le_succ poll
    rw [trips_mono hle (Bool.and_eq_true .. ▸ ht.symm).2]
    rfl

theorem Approaching.succ (h : Approaching catalog machine s axes poll seen moving c)
    (hb : ∀ name params, machine.kinematics ≠ .custom name params) {homing : HomingSequence ℝ}
    {reported : MotorMask} (hn : reported = seen ||| (report s poll moving none).limited)
    (hs : c.homing.step c.model (report s poll moving none) =
      .ok (.continue (machine.kinematics.moving axes (c.model.homingMotors axes) reported), homing))
    (hactive : homing.active = some (c.model.cycleAfter axes reported))
    (hwaits : (c.model.layout.motorsFor axes - reported).isEmpty = false) :
    Approaching catalog machine s axes (poll + 1) reported
      (machine.kinematics.moving axes (c.model.homingMotors axes) reported) { c with homing } := by
  have hreach := h.reachable.step (.homingStep (report s poll moving none))
  rw [(homingStep_of_pending hs (by simp)).1] at hreach
  refine ⟨hreach, h.subset, hactive, rfl, ?_, hwaits⟩
  intro axis ha motor hm hr
  rw [hn, h.reported_succ hb none axis ha motor hm hr]
  simp

theorem Approaching.answer (h : Approaching catalog machine s axes poll seen moving c)
    (hb : ∀ name params, machine.kinematics ≠ .custom name params) (hp : poll < s.polls)
    (reason : Option AbortReason) : ∃ step c', c.homingStep (report s poll moving reason) = (.ok step, c') ∧
      Answer catalog machine s axes (poll + 1) reason step c' := by
  have sw := KinematicsCatalog.switchHoming h.reachable.create hb
  obtain ⟨homing, hs, hnext⟩ := step_cycleAfter sw h.subset h.active h.waits (report s poll moving reason)
  have hmet := isEmpty_sub_iff_met h.subset (h.reported_succ hb reason)
  have hcancel : (report s poll moving reason).cancel = reason := rfl
  have hdone : (report s poll moving reason).motionDone = (poll + 1 == s.polls) := rfl
  cases reason with
  | some reason =>
    simp only [HomingSequence.answer, hcancel] at hs
    exact ⟨_, _, (homingStep_of_pending hs (by simp)).1, .cancelled reason _⟩
  | none =>
    simp only [HomingSequence.answer, hcancel, hdone] at hs hnext
    by_cases hm : s.Met axes (poll + 1)
    · rw [if_pos (hmet.mpr hm)] at hs
      obtain ⟨p, hpos⟩ := KinematicsCatalog.exists_forward h.reachable.create hb c.motors c.model.axisCount
      obtain ⟨motors, hpose⟩ := KinematicsCatalog.exists_homedPosition h.reachable.create hb
        (h.reachable.channelled hb) hpos axes c.homing.home
      exact ⟨_, _, homingStep_of_pose hs hpose, .homed hm _⟩
    · rw [if_neg (hm ∘ hmet.mp)] at hs
      simp only [if_neg (hm ∘ hmet.mp)] at hnext
      by_cases hlast : poll + 1 = s.polls
      · rw [if_pos (beq_iff_eq.mpr hlast)] at hs
        exact ⟨_, _, (homingStep_of_pending hs (by simp)).1, .failed hm hlast _⟩
      · rw [if_neg (hlast ∘ beq_iff_eq.mp)] at hs
        simp only [if_neg (hlast ∘ beq_iff_eq.mp)] at hnext
        obtain ⟨hactive, hwaits⟩ := hnext _ rfl
        have hc := (homingStep_of_pending hs (by simp)).1
        exact ⟨_, _, hc, .continued hm (by omega) (h.succ hb rfl hs hactive hwaits)⟩

theorem pollCycle_succ (hp : poll < s.polls) (cancel : CancelSchedule) (polls tick remaining : Nat)
    {step : HomingStep} {c' : Controller ℝ} :
    c.homingStep (report s poll moving (cancel polls tick)) = (.ok step, c') →
    pollCycle s cancel (remaining + 1) polls tick ((poll : ℝ) / s.polls) moving c = match step with
      | .done outcome => ⟨.ok (.homed outcome.homed), polls + 1, tick, c'⟩
      | .aborted reason => ⟨.ok (.aborted reason), polls + 1, tick, c'⟩
      | .continue moving =>
        pollCycle s cancel remaining (polls + 1) (tick + 1) (((poll + 1 : Nat) : ℝ) / s.polls) moving c' := by
  intro hs
  have hdone : (remaining + 1 == 0 || decide ((1.0 : ℝ) ≤ ((poll + 1 : Nat) : ℝ) / s.polls)) =
      (poll + 1 == s.polls) := by
    rw [decide_eq_decide.mpr (travelled_done_iff hp)]
    rfl
  rw [report] at hs
  rw [pollCycle]
  dsimp only
  rw [travelled_succ hp, hdone, hs]
  cases step with
  | done outcome => rfl
  | aborted reason => rfl
  | «continue» moving => rfl

/-- What the polls of a cycle see for cancelling, after some polls of others. The first of them has number
one and comes at `tick`. -/
def reasons (cancel : CancelSchedule) (polls tick poll : Nat) : Option AbortReason :=
  cancel (polls + (poll - 1)) (tick + (poll - 1))

/-- From any poll on, a cycle that has not ended comes to its end within the approach. -/
theorem pollCycle_ends (hb : ∀ name params, machine.kinematics ≠ .custom name params) (cancel : CancelSchedule)
    (polls tick remaining : Nat) (h : Approaching catalog machine s axes poll seen moving c) (hp : poll < s.polls)
    (hr : s.polls ≤ poll + remaining) (hq : s.Quiet axes (reasons cancel polls tick) poll) :
    ∃ last ending after, s.Ends axes (reasons cancel polls tick) last ending ∧
      pollCycle s cancel remaining (polls + poll) (tick + poll) ((poll : ℝ) / s.polls) moving c =
        ⟨.ok ending, polls + last, tick + (last - 1), after⟩ := by
  -- on the polls that the driver has left, enough of them for the rest of the approach
  induction remaining generalizing poll seen moving c with
  | zero => omega
  | succ remaining ih =>
    obtain ⟨step, c', hs, ha⟩ := h.answer hb hp (cancel (polls + poll) (tick + poll))
    rw [pollCycle_succ hp cancel (polls + poll) (tick + poll) remaining hs]
    generalize hnow : cancel (polls + poll) (tick + poll) = reason at ha
    cases ha with
    | cancelled reason => exact ⟨poll + 1, _, _, hq.cancelled_succ hp hnow, rfl⟩
    | homed met => exact ⟨poll + 1, _, _, hq.homed_succ hp hnow met, rfl⟩
    | failed not_met last => exact ⟨s.polls, _, _, hq.failed_succ hnow not_met last, by rw [← last]; rfl⟩
    | continued not_met early next => exact ih next early (by omega) (hq.succ hnow not_met)

/-- The start of a cycle that is planned. -/
theorem approaching_start (hr : Reachable catalog machine c)
    (hb : ∀ name params, machine.kinematics ≠ .custom name params) {safety : SafetyInputs} {plan : HomingPlan ℝ}
    (hs : (c.startHoming axes safety).1 = .ok (.plan plan)) (s : SimulationSettings ℝ) :
    Approaching catalog machine s axes 0 .none plan.motors (c.startHoming axes safety).2 := by
  have sw := KinematicsCatalog.switchHoming hr.create hb
  have hperform : c.homing.perform c.model (.start axes safety) =
      .ok (.planned plan, (c.startHoming axes safety).2.homing) := by
    have he : c.homing.start c.model axes safety = (.ok (.plan plan), (c.startHoming axes safety).2.homing) :=
      Prod.ext hs rfl
    rw [HomingSequence.perform, he]
  have hreach := hr.step (.startHoming axes safety)
  generalize hafter : (c.startHoming axes safety).2 = after at hperform hreach ⊢
  have hmodel : after.model = c.model := by
    rw [← hafter]
    rfl
  generalize hh : after.homing = homing at hperform
  cases perform_transition hperform with
  | planned passes =>
    obtain ⟨-, -, ⟨hn, -⟩, -⟩ := gate_eq_ok.mp passes
    have ha := subset_allAxes_of_gate hr.create hr.groups passes
    refine ⟨hreach, hmodel ▸ ha, ?_, ?_, ?_, ?_⟩
    · rw [hh, hmodel, sw.cycleAfter_none ha]
    · rw [hmodel, ← sw.moves axes .none ha, (sw.unreported axes ha).2]
    · intro axis _ motor _ _
      simp
    · rw [hmodel, ← sw.stops axes .none ha, (sw.unreported axes ha).1]
      exact hn

/-- For every machine with built-in kinematics, every group of axes whose homing is planned and every table
of switches, a cycle ends within the polls of the approach: by the first cancel, unless the switches of all
axes have tripped before it, by the first poll at which they have, or else at the end of the approach. Only
without any time between two polls is it broken off, before the first of them. -/
theorem runCycle_ends (hr : Reachable catalog machine c)
    (hb : ∀ name params, machine.kinematics ≠ .custom name params) {safety : SafetyInputs} {plan : HomingPlan ℝ}
    (hs : (c.startHoming axes safety).1 = .ok (.plan plan)) (s : SimulationSettings ℝ) (cancel : CancelSchedule)
    (polls tick : Nat) :
    (s.period ≠ 0 → ∃ poll ≤ s.polls, ∃ ending after, s.Ends axes (reasons cancel polls tick) poll ending ∧
      runCycle s safety cancel polls tick axes c = ⟨.ok ending, polls + poll, tick + (poll - 1), after⟩) ∧
    (s.period = 0 → runCycle s safety cancel polls tick axes c =
      ⟨.error (.fault .zeroPeriod), polls, tick, (c.startHoming axes safety).2⟩) := by
  have hrun : runCycle s safety cancel polls tick axes c =
      if s.period = 0 then ⟨.error (.fault .zeroPeriod), polls, tick, (c.startHoming axes safety).2⟩
      else pollCycle s cancel (pollLimit s) (polls + 0) (tick + 0) (((0 : Nat) : ℝ) / s.polls) plan.motors
        (c.startHoming axes safety).2 := by
    have he : c.startHoming axes safety = (.ok (.plan plan), (c.startHoming axes safety).2) := Prod.ext hs rfl
    rw [runCycle, he]
    simp
  rw [hrun]
  refine ⟨fun hp => ?_, fun hp => if_pos hp⟩
  rw [if_neg hp]
  have hlimit : s.polls ≤ 0 + pollLimit s := by
    rw [pollLimit, SimulationSettings.polls]
    omega
  have hquiet : s.Quiet axes (reasons cancel polls tick) 0 := by
    intro earlier h1 hle
    omega
  obtain ⟨last, ending, after, hends, he⟩ :=
    pollCycle_ends hb cancel polls tick (pollLimit s) (approaching_start hr hb hs s) polls_pos hlimit hquiet
  exact ⟨last, hends.le_polls, ending, after, hends, he⟩

/-- A machine with belts for X and Y, and the default tolerances. -/
noncomputable def exactBeltMachine : MachineDescription ℝ :=
  { (default : MachineDescription ℝ) with kinematics := .coreXY 1.0 }

theorem create_exactBeltMachine : KinematicsCatalog.builtin.create exactBeltMachine =
    .ok ⟨CoreXY.kinematics 1.0 ⟨exactBeltMachine.softLimits⟩, ⟨3, .none, by decide⟩⟩ := by
  have hp : isPositive (1.0 : ℝ) = true := by norm_num [isPositive]
  have hv : CoreXY.validate (1.0 : ℝ) ⟨exactBeltMachine.softLimits⟩ ⟨3, .none, by decide⟩ = .ok () :=
    CoreXY.validate_eq_ok.mpr ⟨by decide, hp, rfl, rfl⟩
  exact KinematicsCatalog.create_eq_ok.mpr ⟨rfl, rfl, rfl, hv⟩

theorem exists_plan_exactBeltMachine : ∃ c plan, Controller.ofMachine .builtin exactBeltMachine = .ok c ∧
    (c.startHoming ⟨0b001⟩ {}).1 = .ok (.plan plan) :=
  ⟨_, _, ofMachine_builtIn create_exactBeltMachine MotionSettings.validate_default (fun _ _ => nofun), rfl⟩

/-- X is homed at the second of four polls. That the switch of Y has tripped before does not matter. -/
theorem x_homed_at_second_poll : ∃ c plan, Reachable .builtin exactBeltMachine c ∧
    (∀ name params, exactBeltMachine.kinematics ≠ .custom name params) ∧
    (c.startHoming ⟨0b001⟩ {}).1 = .ok (.plan plan) ∧
    let s : SimulationSettings ℝ := { ticksPerApproach := 4, tripAt := [some 0.5, some 0.25] }
    let run := runCycle s {} (fun _ _ => none) 0 0 ⟨0b001⟩ c
    s.period ≠ 0 ∧ run.result = .ok (.homed ⟨0b001⟩) ∧ run.polls = 2 ∧ run.tick = 1 := by
  have hb : ∀ name params, exactBeltMachine.kinematics ≠ .custom name params := fun _ _ => nofun
  obtain ⟨c, plan, hc, hs⟩ := exists_plan_exactBeltMachine
  refine ⟨c, plan, .start hc, hb, hs, ?_⟩
  intro s run
  have hp : s.period ≠ 0 := by decide
  obtain ⟨poll, -, ending, after, hends, he⟩ := (runCycle_ends (.start hc) hb hs s (fun _ _ => none) 0 0).1 hp
  have hrun : run = ⟨.ok ending, 0 + poll, 0 + (poll - 1), after⟩ := he
  have hmet : 2 ∈ s.metPolls ⟨0b001⟩ := by
    refine ⟨by decide, by decide, fun axis ha => ?_⟩
    obtain rfl : axis = 0 := by simpa [AxisMask.contains] using ha
    refine ⟨0.5, rfl, ?_⟩
    norm_num [polls, s]
  have hfirst : 1 ∉ s.metPolls ⟨0b001⟩ := by
    rintro ⟨-, -, hm⟩
    obtain ⟨part, hp, hle⟩ := hm 0 rfl
    cases hp
    norm_num [polls, s] at hle
  cases hends with
  | cancelled _ seen => cases seen
  | homed first =>
    have hle := first.2 hmet
    have hge := first.1.1
    have hne : poll ≠ 1 := fun he => hfirst (he ▸ first.1)
    obtain rfl : poll = 2 := by omega
    rw [hrun]
    exact ⟨hp, rfl, rfl, rfl⟩
  | failed never => exact absurd hmet (never ▸ Set.notMem_empty 2)

end Simulation

end MotionControl
