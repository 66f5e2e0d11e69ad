import MotionControl.Kinematics.Cartesian
import MotionControl.Scalar.Binary64
import MotionControl.Proofs.Axes.Masks
import MotionControl.Proofs.Homing.Calls

/-! An axis has a reference exactly as long as its last confirmation stands. -/
namespace MotionControl.HomingSequence
variable {α : Type} [Scalar α] {model : MachineModel α} {h h' : HomingSequence α}
  {call : HomingCall} {reply : HomingReply α}

theorem idle_of_gate {axes : AxisMask} {safety : SafetyInputs}
    (hg : h.gate model axes safety = .ok ()) : h.active = none := by
  cases ha : h.active with
  | none => rfl
  | some cycle =>
    rw [gate, ha] at hg
    cases hg

theorem Transition.contains_homed (ht : Transition model h call reply h') (axis : Nat) :
    h'.status.homed.contains axis = true ↔ HomingEvent.confirms axis ⟨call, reply⟩ ∨
      h.status.homed.contains axis = true ∧ ¬ HomingEvent.clears axis ⟨call, reply⟩ := by
  cases ht with
  | refused => cases call <;> simp [HomingEvent.confirms, HomingEvent.clears]
  | planned => simp [HomingStatus.begin, HomingEvent.confirms, HomingEvent.clears]
  | completed =>
    simp [HomingStatus.begin, HomingStatus.complete, HomingEvent.confirms, HomingEvent.clears, or_comm]
  | waited => simp [HomingEvent.confirms, HomingEvent.clears]
  | reported => simp [HomingEvent.confirms, HomingEvent.clears]
  | done => simp [complete, HomingStatus.complete, HomingEvent.confirms, HomingEvent.clears, or_comm]
  | aborted => simp [HomingStatus.abort, HomingEvent.confirms, HomingEvent.clears]
  | abort => simp [HomingStatus.abort, HomingEvent.confirms, HomingEvent.clears]
  | unlocked => simp [HomingStatus.markHomed, HomingEvent.confirms, HomingEvent.clears, or_comm]
  | reset => simp [HomingSequence.reset, HomingEvent.confirms, HomingEvent.clears]

/-- Marks at the end of a history come from its events or from before it. -/
theorem contains_homed_of_replay {calls : List HomingCall} {events : List (HomingEvent α)}
    (hr : h.replay model calls = .ok (events, h')) (axis : Nat) :
    h'.status.homed.contains axis = true ↔ HomingEvent.Confirmed axis events ∨
      h.status.homed.contains axis = true ∧ ∀ event ∈ events, ¬ event.clears axis := by
  induction calls generalizing h events with
  | nil =>
    cases hr
    simp [HomingEvent.not_confirmed_nil]
  | cons call calls ih =>
    obtain ⟨reply, middle, rest, hp, hm, rfl⟩ := replay_cons.mp hr
    rw [ih hm, (perform_transition hp).contains_homed, HomingEvent.confirmed_cons]
    simp only [List.forall_mem_cons]
    grind

/-- As long as no event ends the cycle in progress, it keeps its axes, and no mark changes. -/
theorem Transition.keeps_cycle {cycle : ActiveCycle} (ha : h.active = some cycle)
    (ht : Transition model h call reply h') (he : ¬ HomingEvent.ends ⟨call, reply⟩) :
    h'.status = h.status ∧ ∃ cycle', h'.active = some cycle' ∧ cycle'.axes = cycle.axes := by
  cases ht with
  | refused => exact ⟨rfl, cycle, ha, rfl⟩
  | planned passes => simp [idle_of_gate passes] at ha
  | completed passes => simp [idle_of_gate passes] at ha
  | waited => exact ⟨rfl, cycle, ha, rfl⟩
  | reported active =>
    rw [ha] at active
    cases active
    exact ⟨rfl, _, rfl, rfl⟩
  | done => exact absurd trivial he
  | aborted => exact absurd trivial he
  | abort => exact absurd trivial he
  | unlocked idle => simp [idle] at ha
  | reset => exact absurd trivial he

theorem Transition.homed_of_aborts (ht : Transition model h call reply h')
    (ha : HomingEvent.aborts ⟨call, reply⟩) : h'.status.homed = h.status.homed := by
  cases ht with
  | refused => rfl
  | planned => exact ha.elim
  | completed => exact ha.elim
  | waited => rfl
  | reported => rfl
  | done => exact ha.elim
  | aborted => rfl
  | abort => rfl
  | unlocked => exact ha.elim
  | reset => exact ha.elim

/-- A cycle that is aborted leaves every mark as it was when the cycle had begun. -/
theorem homed_of_aborted_replay {cycle : ActiveCycle} (ha : h.active = some cycle)
    {calls : List HomingCall} {during : List (HomingEvent α)} {ending : HomingEvent α}
    (hr : h.replay model calls = .ok (during ++ [ending], h')) (hd : ∀ event ∈ during, ¬ event.ends)
    (he : ending.aborts) : h'.status.homed = h.status.homed := by
  induction during generalizing h cycle calls with
  | nil =>
    cases calls with
    | nil => cases hr
    | cons call calls =>
      obtain ⟨reply, middle, rest, hp, hm, hc⟩ := replay_cons.mp hr
      cases hc
      cases calls with
      | nil =>
        cases hm
        exact (perform_transition hp).homed_of_aborts he
      | cons next calls =>
        obtain ⟨_, _, _, _, _, hc⟩ := replay_cons.mp hm
        cases hc
  | cons event during ih =>
    cases calls with
    | nil => cases hr
    | cons call calls =>
      obtain ⟨reply, middle, rest, hp, hm, hc⟩ := replay_cons.mp hr
      cases hc
      obtain ⟨hs, cycle', ha', -⟩ := (perform_transition hp).keeps_cycle ha (hd _ (.head _))
      rw [ih ha' hm fun event hm => hd event (.tail _ hm), hs]

/-- After any history of a new sequence an axis is marked exactly when some event confirms it and no
later one clears it. A cycle that is aborted unmarks its own axes and no others. -/
theorem homed_iff_confirmed {machine : MachineDescription α} {fresh : HomingSequence α}
    (hf : ofMachine machine = .ok fresh) (model : MachineModel α) {calls : List HomingCall}
    {events : List (HomingEvent α)} (hr : fresh.replay model calls = .ok (events, h)) (axis : Nat) :
    (h.status.homed.contains axis = true ↔ HomingEvent.Confirmed axis events) ∧
      ∀ {axes : AxisMask} {safety : SafetyInputs} {plan : HomingPlan α} {calls : List HomingCall}
        {during : List (HomingEvent α)} {ending : HomingEvent α} {h' : HomingSequence α},
        h.replay model calls =
            .ok (⟨.start axes safety, .planned plan⟩ :: during ++ [ending], h') →
          (∀ event ∈ during, ¬ event.ends) → ending.aborts →
          (h'.status.homed.contains axis = true ↔
            h.status.homed.contains axis = true ∧ axes.contains axis = false) := by
  have hn : fresh.status.homed.contains axis = false := by simp [(of_ofMachine hf).2.1]
  constructor
  · rw [contains_homed_of_replay hr, hn]
    simp
  · intro axes safety plan calls during ending h' hr hd he
    cases calls with
    | nil => cases hr
    | cons call calls =>
      obtain ⟨reply, middle, rest, hp, hm, hc⟩ := replay_cons.mp hr
      cases hc
      cases perform_transition hp with
      | planned =>
        rw [homed_of_aborted_replay rfl hm hd he]
        simp [HomingStatus.begin]

/-- Three axes without travel ranges, a motor on each. -/
def plainModel : MachineModel Float := ⟨Cartesian.kinematics .none, ⟨3, .none, by decide⟩⟩

/-- Z meets its switch, and X is unlocked. A cycle of X and Y then meets the switch of X only and is
cancelled, so that Z alone keeps its mark. -/
theorem homed_z_after_cancelled_xy :
    ∃ fresh, ofMachine default = .ok fresh ∧
      ∃ first h, fresh.replay plainModel
          [.start ⟨0b100⟩ {}, .step { limited := ⟨0b100⟩ }, .unlock ⟨0b001⟩] = .ok (first, h) ∧
        HomingEvent.Confirmed 0 first ∧
        ∃ plan h', h.replay plainModel
            [.start ⟨0b011⟩ {}, .step { limited := ⟨0b001⟩ }, .step { cancel := some .cancelled }] =
              .ok (⟨.start ⟨0b011⟩ {}, .planned plan⟩ ::
                [⟨.step { limited := ⟨0b001⟩ }, .stepped (.continue ⟨0b010⟩)⟩] ++
                [⟨.step { cancel := some .cancelled }, .stepped (.aborted .cancelled)⟩], h') ∧
          h'.status.homed.contains 0 = false ∧ h'.status.homed = ⟨0b100⟩ := by
  have hc := @homed_iff_confirmed Float _ _ default _ rfl plainModel
    [.start ⟨0b100⟩ {}, .step { limited := ⟨0b100⟩ }, .unlock ⟨0b001⟩] _ rfl 0
  have hx := @hc.2 ⟨0b011⟩ {} _ [.start ⟨0b011⟩ {}, .step { limited := ⟨0b001⟩ },
      .step { cancel := some .cancelled }]
    [⟨.step { limited := ⟨0b001⟩ }, .stepped (.continue ⟨0b010⟩)⟩]
    ⟨.step { cancel := some .cancelled }, .stepped (.aborted .cancelled)⟩ _ rfl
    (by simp [HomingEvent.ends]) trivial
  exact ⟨_, rfl, _, _, rfl, hc.1.mp rfl, _, _, rfl,
    Bool.eq_false_iff.mpr fun hm => absurd (hx.mp hm).2 (by decide), rfl⟩

end MotionControl.HomingSequence
