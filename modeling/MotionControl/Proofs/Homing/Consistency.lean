import MotionControl.Scalar.Binary64
import MotionControl.Proofs.Homing.Polls

/-! The shared phase and the cycle in progress of a homing sequence agree, whatever calls are made.
A cycle in progress always has axes to wait for and motors to move. -/
namespace MotionControl
open HomingSequence
variable {α : Type} [Scalar α] {machine : MachineDescription α} {model : MachineModel α}
  {h h' : HomingSequence α} {cycle : ActiveCycle}

/-- A cycle that the phase of a sequence tells of. -/
structure CycleInProgress (machine : MachineDescription α) (model : MachineModel α)
    (status : HomingStatus) (cycle : ActiveCycle) : Prop where
  phase_eq : status.phase = .cycleActive cycle.axes
  axes_isEmpty : cycle.axes.isEmpty = false
  axes_subset : cycle.axes ⊆ (HomingGroups.ofMachine machine).configured
  pending_isEmpty : cycle.pending.isEmpty = false
  pending_subset : cycle.pending ⊆ cycle.axes
  motors_isEmpty : cycle.motors.isEmpty = false
  motors_subset : cycle.motors ⊆ model.homingMotors cycle.axes
  unmarked : ∀ axis, cycle.axes.contains axis = true → status.homed.contains axis = false

/-- The phase says what the sequence does. -/
structure ConsistentSequence (machine : MachineDescription α) (model : MachineModel α)
    (h : HomingSequence α) : Prop where
  phase_iff : ∀ axes,
    h.status.phase = .cycleActive axes ↔ ∃ cycle, h.active = some cycle ∧ cycle.axes = axes
  in_progress : ∀ cycle, h.active = some cycle → CycleInProgress machine model h.status cycle
  done_homed : ∀ axes, h.status.phase = .done axes → h.status.isHomed axes = true

/-- What every call preserves. Beyond consistency, the cycle in progress is the one that the reports
so far lead to. -/
structure ReachedSequence (machine : MachineDescription α) (model : MachineModel α)
    (h : HomingSequence α) : Prop extends ConsistentSequence machine model h where
  groups_eq : h.groups = .ofMachine machine
  counted : ∀ cycle, h.active = some cycle → ∃ seen, cycle = model.cycleAfter cycle.axes seen

namespace ReachedSequence

private theorem of_idle (hg : h.groups = .ofMachine machine) (ha : h.active = none)
    (hi : ∀ axes, h.status.phase ≠ .cycleActive axes)
    (hd : ∀ axes, h.status.phase = .done axes → h.status.isHomed axes = true) :
    ReachedSequence machine model h where
  phase_iff axes := by simp [ha, hi axes]
  in_progress := by simp [ha]
  done_homed := hd
  groups_eq := hg
  counted := by simp [ha]

theorem of_fresh (hf : ofMachine machine = .ok h) : ReachedSequence machine model h := by
  obtain ⟨hg, hs, ha⟩ := of_ofMachine hf
  exact of_idle hg ha (by simp [hs]) (by simp [hs])

private theorem of_abort (hr : ReachedSequence machine model h) (axes : AxisMask) :
    ReachedSequence machine model { h with status := h.status.abort axes, active := none } :=
  of_idle hr.groups_eq rfl nofun nofun

private theorem of_complete (hr : ReachedSequence machine model h) (status : HomingStatus)
    (axes : AxisMask) :
    ReachedSequence machine model { h with status := status.complete axes, active := none } := by
  refine of_idle hr.groups_eq rfl nofun fun axes' hp => ?_
  cases hp
  rw [HomingStatus.isHomed, AxisMask.containsAll_iff]
  intro axis hc
  simp [HomingStatus.complete, hc]

private theorem of_unlock (hr : ReachedSequence machine model h) (hi : h.active = none)
    (axes : AxisMask) : ReachedSequence machine model { h with status := h.status.markHomed axes } := by
  refine of_idle hr.groups_eq hi (fun axes' hp => ?_) fun axes' hp => ?_
  · obtain ⟨cycle, hc, -⟩ := (hr.phase_iff axes').mp hp
    simp [hi] at hc
  · have hd := hr.done_homed axes' hp
    rw [HomingStatus.isHomed, AxisMask.containsAll_iff] at hd ⊢
    intro axis hx
    simp [HomingStatus.markHomed, hd axis hx]

end ReachedSequence

namespace SwitchHoming
variable {settings : KinematicsSettings α} (sw : SwitchHoming settings model)
  (hc : (HomingGroups.ofMachine machine).configured ⊆ model.layout.allAxes)
include sw hc

/-- The cycle that some reports lead to, as long as an axis waits. -/
private theorem cycleInProgress {status : HomingStatus} {axes : AxisMask} {seen : MotorMask}
    (hp : status.phase = .cycleActive axes) (hn : axes.isEmpty = false)
    (ha : axes ⊆ (HomingGroups.ofMachine machine).configured)
    (hw : (model.cycleAfter axes seen).pending.isEmpty = false)
    (hu : ∀ axis, axes.contains axis = true → status.homed.contains axis = false) :
    CycleInProgress machine model status (model.cycleAfter axes seen) where
  phase_eq := hp
  axes_isEmpty := hn
  axes_subset := ha
  pending_isEmpty := hw
  pending_subset := sw.axes_subset axes _ seen
  motors_isEmpty := sw.keeps_moving axes seen (fun axis h => hc axis (ha axis h)) hw
  motors_subset := sw.motors_subset axes _ seen
  unmarked := hu

private theorem reached_planned (hr : ReachedSequence machine model h) {axes : AxisMask}
    (hn : axes.isEmpty = false) (ha : axes ⊆ (HomingGroups.ofMachine machine).configured) :
    ReachedSequence machine model
      { h with status := h.status.begin axes, active := some ⟨axes, axes, model.homingMotors axes⟩ } where
  phase_iff axes' := by simp [HomingStatus.begin]
  in_progress cycle hq := by
    have hs := sw.cycleAfter_none fun axis h => hc axis (ha axis h)
    cases hq
    rw [← hs]
    apply sw.cycleInProgress hc rfl hn ha
    · rw [hs]
      exact hn
    · intro axis hx
      simp [HomingStatus.begin, hx]
  done_homed := nofun
  groups_eq := hr.groups_eq
  counted cycle hq := by
    cases hq
    exact ⟨.none, (sw.cycleAfter_none fun axis h => hc axis (ha axis h)).symm⟩

private theorem reached_reported (hr : ReachedSequence machine model h) (ha : h.active = some cycle)
    {limited : MotorMask} {outcome : LimitOutcome}
    (ho : model.kinematics.limitReached cycle.pending cycle.motors limited = outcome)
    (hw : outcome.stop = false) :
    ReachedSequence machine model
      { h with active := some ⟨cycle.axes, outcome.axes, outcome.motors⟩ } := by
  have hp := hr.in_progress cycle ha
  obtain ⟨seen, hs⟩ := hr.counted cycle ha
  rw [hs] at ho
  obtain ⟨hn, hst⟩ := sw.limitReached_cycleAfter seen limited ho
  rw [hn]
  have hw' := hst.symm.trans hw
  refine ⟨⟨fun axes => ?_, fun next hq => ?_, hr.done_homed⟩, hr.groups_eq, fun next hq => ?_⟩
  · simp [hp.phase_eq, MachineModel.cycleAfter]
  · cases hq
    exact sw.cycleInProgress hc hp.phase_eq hp.axes_isEmpty hp.axes_subset hw' hp.unmarked
  · cases hq
    exact ⟨_, rfl⟩

/-- Every call preserves what the calls before it have reached. -/
theorem reached_transition {call : HomingCall} {reply : HomingReply α}
    (hr : ReachedSequence machine model h) (ht : Transition model h call reply h') :
    ReachedSequence machine model h' := by
  cases ht with
  | refused => exact hr
  | planned passes =>
    obtain ⟨-, -, ⟨hn, ha⟩, -⟩ := gate_eq_ok.mp passes
    rw [AxisMask.containsAll_iff, hr.groups_eq] at ha
    exact sw.reached_planned hc hr hn ha
  | completed => exact hr.of_complete ..
  | waited => exact hr
  | reported active _ report waits => exact sw.reached_reported hc hr active report waits
  | done => exact hr.of_complete ..
  | aborted => exact hr.of_abort _
  | abort => exact hr.of_abort _
  | unlocked idle axes => exact hr.of_unlock idle axes
  | reset => exact .of_idle hr.groups_eq rfl nofun nofun

omit hc in
theorem exists_perform (h : HomingSequence α) (call : HomingCall) :
    ∃ reply h', h.perform model call = .ok (reply, h') := by
  cases call with
  | start axes safety =>
    obtain ⟨approach, ha⟩ := sw.approach axes (h.seekDirections axes)
    rw [perform, start]
    cases h.gate model axes safety with
    | error e => exact ⟨_, _, rfl⟩
    | ok =>
      simp only [sw.needs_motion, Bool.false_eq_true, if_false]
      have hd : { h with status := h.status.begin axes }.seekDirections axes = h.seekDirections axes := rfl
      rw [hd, ha]
      exact ⟨_, _, rfl⟩
  | step poll =>
    rw [perform]
    cases h.step model poll <;> exact ⟨_, _, rfl⟩
  | abort =>
    rw [perform]
    cases h.abort <;> exact ⟨_, _, rfl⟩
  | unlock axes =>
    rw [perform]
    cases h.unlock model axes <;> exact ⟨_, _, rfl⟩
  | reset => exact ⟨_, _, rfl⟩

/-- A history runs to its end and preserves what was reached before it. -/
theorem reached_replay (hr : ReachedSequence machine model h) (calls : List HomingCall) :
    ∃ events h', h.replay model calls = .ok (events, h') ∧ ReachedSequence machine model h' := by
  induction calls generalizing h with
  | nil => exact ⟨_, h, rfl, hr⟩
  | cons call calls ih =>
    obtain ⟨reply, middle, hp⟩ := sw.exists_perform h call
    obtain ⟨rest, last, hl, hr'⟩ := ih (sw.reached_transition hc hr (perform_transition hp))
    exact ⟨_, last, replay_cons.mpr ⟨reply, middle, rest, hp, hl, rfl⟩, hr'⟩

end SwitchHoming

/-- Any calls leave the sequence of a machine with built-in kinematics consistent. -/
theorem HomingSequence.replay_consistent {c : KinematicsCatalog α} (hm : c.create machine = .ok model)
    (hb : ∀ name params, machine.kinematics ≠ .custom name params) {fresh : HomingSequence α}
    (hf : ofMachine machine = .ok fresh) (calls : List HomingCall) :
    ∃ events h, fresh.replay model calls = .ok (events, h) ∧ ConsistentSequence machine model h := by
  have sw := KinematicsCatalog.switchHoming hm hb
  have hc := KinematicsCatalog.configured_subset hm
  obtain ⟨events, h, hp, hr⟩ := sw.reached_replay hc (.of_fresh hf) calls
  exact ⟨events, h, hp, hr.toConsistentSequence⟩

/-- The switch of X has tripped in a cycle of X and Y, after which an unlock is refused. -/
theorem HomingSequence.belts_in_progress_consistent :
    ∃ model, KinematicsCatalog.builtin.create beltMachine = .ok model ∧
      ∃ fresh, ofMachine beltMachine = .ok fresh ∧
        ∃ events h, fresh.replay model
            [.start ⟨0b011⟩ {}, .step { limited := ⟨0b001⟩ }, .unlock ⟨0b100⟩] = .ok (events, h) ∧
          h.active = some ⟨⟨0b011⟩, ⟨0b010⟩, ⟨0b011⟩⟩ ∧ ConsistentSequence beltMachine model h := by
  have hb : ∀ name params, beltMachine.kinematics ≠ .custom name params := fun _ _ => nofun
  obtain ⟨events, h, hr, hs⟩ := @replay_consistent Float _ beltMachine _ .builtin rfl hb _ rfl
    [.start ⟨0b011⟩ {}, .step { limited := ⟨0b001⟩ }, .unlock ⟨0b100⟩]
  cases hr
  exact ⟨_, rfl, _, rfl, _, _, rfl, rfl, hs⟩

end MotionControl
