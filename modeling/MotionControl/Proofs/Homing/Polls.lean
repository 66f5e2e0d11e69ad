import MotionControl.Scalar.Binary64
import MotionControl.Proofs.Homing.Calls
import MotionControl.Proofs.Homing.SwitchCycles

/-! The answers to the polls of a cycle. They depend on the union of the reports so far and on the
last poll, whatever the order, the repetition and the number of the reports. -/
namespace MotionControl.HomingSequence
variable {α : Type} [Scalar α]

/-- All motors reported by some polls. -/
def reported : List HomingPoll → MotorMask
  | [] => .none
  | poll :: polls => poll.limited ||| reported polls

/-- What a cycle with this plan answers to a poll, when the given motors have been reported up to it.
A cancel comes first, and the switches come before the end of the approach. -/
def answer (settings : KinematicsSettings α) (layout : AxisLayout) (axes : AxisMask)
    (motors seen : MotorMask) (poll : HomingPoll) : HomingStep :=
  match poll.cancel with
  | some reason => .aborted reason
  | none =>
    if (layout.motorsFor axes - seen).isEmpty then .done ⟨axes, motors⟩
    else if poll.motionDone then .aborted .approachFailed
    else .continue (settings.moving axes motors seen)

/-- The sequence after polls that were all answered with more motion. -/
def continued (h : HomingSequence α) (model : MachineModel α) : List HomingPoll → Option (HomingSequence α)
  | [] => some h
  | poll :: polls =>
    match h.step model poll with
    | .ok (.continue _, h) => h.continued model polls
    | _ => none

variable {settings : KinematicsSettings α} {model : MachineModel α} {h h' : HomingSequence α}
  {axes : AxisMask} {seen : MotorMask}

/-- One poll answers by the law and leaves a cycle that has counted its report. -/
theorem step_cycleAfter (sw : SwitchHoming settings model) (ha : axes ⊆ model.layout.allAxes)
    (hc : h.active = some (model.cycleAfter axes seen))
    (hw : (model.layout.motorsFor axes - seen).isEmpty = false) (poll : HomingPoll) :
    ∃ h', h.step model poll =
        .ok (answer settings model.layout axes (model.homingMotors axes) (seen ||| poll.limited) poll, h') ∧
      ∀ motors, answer settings model.layout axes (model.homingMotors axes) (seen ||| poll.limited) poll =
        .continue motors → h'.active = some (model.cycleAfter axes (seen ||| poll.limited)) ∧
          (model.layout.motorsFor axes - (seen ||| poll.limited)).isEmpty = false := by
  have hm (seen : MotorMask) : (model.cycleAfter axes seen).motors =
      settings.moving axes (model.homingMotors axes) seen := sw.moves axes seen ha
  rw [answer]
  cases hr : poll.cancel with
  | some reason => exact ⟨_, step_of_cancel hc hr, fun _ hn => by cases hn⟩
  | none =>
    cases hl : poll.limited.isEmpty with
    | true =>
      rw [MotorMask.eq_none_of_isEmpty hl, MotorMask.or_none, step_of_no_report hc hr hl, hw, hm]
      cases poll.motionDone with
      | true => exact ⟨_, rfl, fun _ hn => by cases hn⟩
      | false => exact ⟨_, rfl, fun _ _ => ⟨hc, rfl⟩⟩
    | false =>
      rw [step_of_report hc hr hl rfl]
      generalize ho : model.kinematics.limitReached (model.cycleAfter axes seen).pending
        (model.cycleAfter axes seen).motors poll.limited = outcome
      obtain ⟨hcy, hst⟩ := sw.limitReached_cycleAfter seen poll.limited ho
      have hom : outcome.motors = settings.moving axes (model.homingMotors axes) (seen ||| poll.limited) :=
        (congrArg ActiveCycle.motors hcy).trans (hm _)
      rw [hst, sw.pending_cycleAfter_isEmpty ha, ← hom]
      cases hs : (model.layout.motorsFor axes - (seen ||| poll.limited)).isEmpty with
      | true =>
        have hd : (h.complete model (model.cycleAfter axes seen).axes).1 =
            ⟨axes, model.homingMotors axes⟩ := congrArg (HomingOutcome.mk axes) (sw.releases axes ha)
        rw [hd]
        exact ⟨_, rfl, fun _ hn => by cases hn⟩
      | false =>
        cases poll.motionDone with
        | true => exact ⟨_, rfl, fun _ hn => by cases hn⟩
        | false => exact ⟨_, rfl, fun _ _ => ⟨congrArg some hcy, rfl⟩⟩

theorem active_of_continued (sw : SwitchHoming settings model) (ha : axes ⊆ model.layout.allAxes)
    (hc : h.active = some (model.cycleAfter axes seen))
    (hw : (model.layout.motorsFor axes - seen).isEmpty = false) {polls : List HomingPoll}
    (hp : h.continued model polls = some h') :
    h'.active = some (model.cycleAfter axes (seen ||| reported polls)) ∧
      (model.layout.motorsFor axes - (seen ||| reported polls)).isEmpty = false := by
  induction polls generalizing h seen with
  | nil =>
    cases hp
    rw [reported, MotorMask.or_none]
    exact ⟨hc, hw⟩
  | cons poll polls ih =>
    obtain ⟨middle, hs, hk⟩ := step_cycleAfter sw ha hc hw poll
    rw [continued, hs] at hp
    split at hp
    · rename_i motors next heq
      simp only [Except.ok.injEq, Prod.mk.injEq] at heq
      obtain ⟨hn, rfl⟩ := heq
      obtain ⟨hc', hw'⟩ := hk motors hn
      rw [reported, ← MotorMask.or_assoc]
      exact ih hc' hw' hp
    · cases hp

private theorem reported_append (polls : List HomingPoll) (poll : HomingPoll) :
    reported (polls ++ [poll]) = reported polls ||| poll.limited := by
  induction polls with
  | nil => rw [List.nil_append, reported, reported, reported, MotorMask.or_none, MotorMask.none_or]
  | cons first polls ih => rw [List.cons_append, reported, reported, ih, MotorMask.or_assoc]

private theorem motorsFor_isEmpty (ha : axes ⊆ model.layout.allAxes) (hn : axes.isEmpty = false) :
    (model.layout.motorsFor axes - .none).isEmpty = false := by
  obtain ⟨axis, hc⟩ := (AxisMask.isEmpty_eq_false_iff _).mp hn
  rw [MotorMask.sub_none]
  exact MotorMask.isEmpty_eq_false_of_axes _ (AxisLayout.contains_axes_motorsFor ha axis hc)

/-- The axes of a cycle that passes its gate are axes of the model. -/
theorem subset_allAxes_of_gate {c : KinematicsCatalog α} {machine : MachineDescription α}
    (hm : c.create machine = .ok model) (hg : h.groups = .ofMachine machine) {safety : SafetyInputs}
    (passes : h.gate model axes safety = .ok ()) : axes ⊆ model.layout.allAxes := by
  obtain ⟨-, -, ⟨-, hcon⟩, -⟩ := gate_eq_ok.mp passes
  rw [AxisMask.containsAll_iff, hg] at hcon
  exact fun axis hc => KinematicsCatalog.configured_subset hm axis (hcon axis hc)

/-- For every machine with built-in kinematics, every cycle that its sequence plans and every list of
polls answered with more motion, the next poll is answered by the law for the union of all reports. -/
theorem step_eq_answer {c : KinematicsCatalog α} {machine : MachineDescription α}
    (hm : c.create machine = .ok model) (hb : ∀ name params, machine.kinematics ≠ .custom name params)
    (hg : h.groups = .ofMachine machine) {safety : SafetyInputs} {plan : HomingPlan α}
    (hs : h.start model axes safety = (.ok (.plan plan), h')) {earlier : List HomingPoll}
    {current : HomingSequence α} (hp : h'.continued model earlier = some current) (poll : HomingPoll) :
    ∃ next, current.step model poll = .ok (answer machine.kinematics model.layout axes plan.motors
      (reported (earlier ++ [poll])) poll, next) := by
  have sw := KinematicsCatalog.switchHoming hm hb
  have hperform : h.perform model (.start axes safety) = .ok (.planned plan, h') := by rw [perform, hs]
  cases perform_transition hperform with
  | planned passes =>
    obtain ⟨-, -, ⟨hn, hcon⟩, -⟩ := gate_eq_ok.mp passes
    rw [AxisMask.containsAll_iff, hg] at hcon
    have ha : axes ⊆ model.layout.allAxes := fun axis hc =>
      KinematicsCatalog.configured_subset hm axis (hcon axis hc)
    obtain ⟨hc, hw⟩ := active_of_continued sw ha (congrArg some (sw.cycleAfter_none ha).symm)
      (motorsFor_isEmpty ha hn) hp
    rw [MotorMask.none_or] at hc hw
    obtain ⟨next, hstep, -⟩ := step_cycleAfter sw ha hc hw poll
    exact ⟨next, by rw [reported_append, hstep]⟩

/-- A machine with belts for X and Y. -/
def beltMachine : MachineDescription Float := { (default : MachineDescription Float) with kinematics := .coreXY 1.0 }

/-- X and Y are homed together. The switch of X trips twice and once with that of Z, the belts run on,
and Y ends the cycle although its report comes with the end of the approach. -/
theorem done_with_end_of_approach : ∃ model, KinematicsCatalog.builtin.create beltMachine = .ok model ∧
    (∀ name params, beltMachine.kinematics ≠ .custom name params) ∧
    ∃ h, ofMachine beltMachine = .ok h ∧ h.groups = .ofMachine beltMachine ∧
    ∃ plan h', h.start model ⟨0b011⟩ {} = (.ok (.plan plan), h') ∧
    ∃ current, h'.continued model [{ limited := ⟨0b101⟩ }, { limited := ⟨0b001⟩ }] = some current ∧
    ∃ next, current.step model { limited := ⟨0b010⟩, motionDone := true } =
      .ok (.done ⟨⟨0b011⟩, ⟨0b011⟩⟩, next) := by
  have hb : ∀ name params, beltMachine.kinematics ≠ .custom name params := fun _ _ => nofun
  have hg := (of_ofMachine (rfl : ofMachine beltMachine = .ok _)).1
  have ht := @step_eq_answer Float _ _ _ _ ⟨0b011⟩ .builtin beltMachine rfl hb hg {} _ rfl
    [{ limited := ⟨0b101⟩ }, { limited := ⟨0b001⟩ }] _ rfl { limited := ⟨0b010⟩, motionDone := true }
  exact ⟨_, rfl, hb, _, rfl, hg, _, _, rfl, _, rfl, ht⟩

end MotionControl.HomingSequence
