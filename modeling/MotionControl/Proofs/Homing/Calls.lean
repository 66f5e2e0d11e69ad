import MotionControl.Homing.Sequence

/-! Histories of a homing sequence. A history is a list of calls with their replies. A call that
breaks off with a fault has no reply, so a history ends before it. -/
namespace MotionControl
variable {α : Type}

/-- A call of a homing sequence. -/
inductive HomingCall where
  | start (axes : AxisMask) (safety : SafetyInputs)
  | step (poll : HomingPoll)
  | abort
  | unlock (axes : AxisMask)
  | reset
  deriving DecidableEq, Repr

inductive HomingReply (α : Type) where
  | refused (error : HomingError)
  | planned (plan : HomingPlan α)
  /-- A start that homed its axes without motion. -/
  | completed (outcome : HomingOutcome)
  | stepped (step : HomingStep)
  | unlocked (released : MotorMask)
  /-- An abort or a reset. -/
  | acknowledged

structure HomingEvent (α : Type) where
  call : HomingCall
  reply : HomingReply α

namespace HomingEvent

/-- Whether the event gives an axis its reference. -/
def confirms (axis : Nat) : HomingEvent α → Prop
  | ⟨.step _, .stepped (.done outcome)⟩ => outcome.homed.contains axis = true
  | ⟨.start axes _, .completed _⟩ => axes.contains axis = true
  | ⟨.unlock axes, .unlocked _⟩ => axes.contains axis = true
  | _ => False

/-- Whether the event takes the reference of an axis away. -/
def clears (axis : Nat) : HomingEvent α → Prop
  | ⟨.reset, .acknowledged⟩ => True
  | ⟨.start axes _, .planned _⟩ => axes.contains axis = true
  | ⟨.start axes _, .completed _⟩ => axes.contains axis = true
  | _ => False

/-- Whether the event ends a cycle without homing its axes. -/
def aborts : HomingEvent α → Prop
  | ⟨.step _, .stepped (.aborted _)⟩ => True
  | ⟨.abort, .acknowledged⟩ => True
  | _ => False

/-- Whether the event leaves no cycle in progress. -/
def ends : HomingEvent α → Prop
  | ⟨.step _, .stepped (.done _)⟩ => True
  | ⟨.step _, .stepped (.aborted _)⟩ => True
  | ⟨.abort, .acknowledged⟩ => True
  | ⟨.reset, .acknowledged⟩ => True
  | _ => False

/-- Some event confirms the axis, and none after it clears the axis again. -/
def Confirmed (axis : Nat) (events : List (HomingEvent α)) : Prop :=
  ∃ before event after, events = before ++ event :: after ∧ event.confirms axis ∧
    ∀ later ∈ after, ¬ later.clears axis

theorem not_confirmed_nil (axis : Nat) : ¬ Confirmed axis ([] : List (HomingEvent α)) := by
  rintro ⟨before, event, after, he, -⟩
  simp at he

theorem confirmed_cons (axis : Nat) (event : HomingEvent α) (events : List (HomingEvent α)) :
    Confirmed axis (event :: events) ↔
      Confirmed axis events ∨ event.confirms axis ∧ ∀ later ∈ events, ¬ later.clears axis := by
  constructor
  · rintro ⟨before, confirming, after, he, hc, hl⟩
    cases before with
    | nil =>
      cases he
      exact .inr ⟨hc, hl⟩
    | cons first rest =>
      cases he
      exact .inl ⟨rest, confirming, after, rfl, hc, hl⟩
  · rintro (⟨before, confirming, after, rfl, hc, hl⟩ | ⟨hc, hl⟩)
    · exact ⟨event :: before, confirming, after, rfl, hc, hl⟩
    · exact ⟨[], event, events, rfl, hc, hl⟩

end HomingEvent

namespace HomingSequence
variable [Scalar α]

/-- The reply to a call and the sequence after it. -/
def perform (h : HomingSequence α) (model : MachineModel α) :
    HomingCall → Checked (HomingReply α × HomingSequence α)
  | .start axes safety =>
    match h.start model axes safety with
    | (.ok (.plan plan), h) => .ok (.planned plan, h)
    | (.ok (.done outcome), h) => .ok (.completed outcome, h)
    | (.error (.refused e), h) => .ok (.refused e, h)
    | (.error (.fault fault), _) => .error fault
  | .step poll =>
    match h.step model poll with
    | .ok (step, h) => .ok (.stepped step, h)
    | .error e => .ok (.refused e, h)
  | .abort =>
    match h.abort with
    | .ok h => .ok (.acknowledged, h)
    | .error e => .ok (.refused e, h)
  | .unlock axes =>
    match h.unlock model axes with
    | .ok (released, h) => .ok (.unlocked released, h)
    | .error e => .ok (.refused e, h)
  | .reset => .ok (.acknowledged, h.reset)

/-- The events of some calls and the sequence after them. -/
def replay (h : HomingSequence α) (model : MachineModel α) :
    List HomingCall → Checked (List (HomingEvent α) × HomingSequence α)
  | [] => .ok ([], h)
  | call :: calls => do
    let (reply, h) ← h.perform model call
    let (events, h) ← h.replay model calls
    return (⟨call, reply⟩ :: events, h)

/-- The calls that do not break off, with their replies and the sequences they lead to. -/
inductive Transition (model : MachineModel α) (h : HomingSequence α) :
    HomingCall → HomingReply α → HomingSequence α → Prop where
  | refused (call : HomingCall) (error : HomingError) : Transition model h call (.refused error) h
  | planned {axes : AxisMask} {safety : SafetyInputs} {approach : MotorPosition α}
      (passes : h.gate model axes safety = .ok ()) :
      Transition model h (.start axes safety) (.planned ⟨axes, model.homingMotors axes, approach⟩)
        { h with status := h.status.begin axes, active := some ⟨axes, axes, model.homingMotors axes⟩ }
  | completed {axes : AxisMask} {safety : SafetyInputs} (passes : h.gate model axes safety = .ok ())
      (itself : model.kinematics.homesItself axes = true) :
      Transition model h (.start axes safety) (.completed (h.complete model axes).1)
        { h with status := (h.status.begin axes).complete axes, active := none }
  | waited {cycle : ActiveCycle} (active : h.active = some cycle) (poll : HomingPoll) :
      Transition model h (.step poll) (.stepped (.continue cycle.motors)) h
  | reported {cycle : ActiveCycle} {outcome : LimitOutcome} (active : h.active = some cycle)
      (poll : HomingPoll)
      (report : model.kinematics.limitReached cycle.pending cycle.motors poll.limited = outcome)
      (waits : outcome.stop = false) :
      Transition model h (.step poll) (.stepped (.continue outcome.motors))
        { h with active := some ⟨cycle.axes, outcome.axes, outcome.motors⟩ }
  | done {cycle : ActiveCycle} (active : h.active = some cycle) (poll : HomingPoll) :
      Transition model h (.step poll) (.stepped (.done (h.complete model cycle.axes).1))
        (h.complete model cycle.axes).2
  | aborted {cycle : ActiveCycle} (active : h.active = some cycle) (poll : HomingPoll)
      (reason : AbortReason) : Transition model h (.step poll) (.stepped (.aborted reason))
        { h with status := h.status.abort cycle.axes, active := none }
  | abort {cycle : ActiveCycle} (active : h.active = some cycle) :
      Transition model h .abort .acknowledged
        { h with status := h.status.abort cycle.axes, active := none }
  | unlocked (idle : h.active = none) (axes : AxisMask) :
      Transition model h (.unlock axes)
        (.unlocked (model.kinematics.releaseMotors axes model.layout.allMotors))
        { h with status := h.status.markHomed axes }
  | reset : Transition model h .reset .acknowledged h.reset

variable {h h' : HomingSequence α} {model : MachineModel α}

theorem gate_eq_ok {axes : AxisMask} {safety : SafetyInputs} :
    h.gate model axes safety = .ok () ↔ h.active = none ∧ h.groups.isEnabled = true ∧
      (axes.isEmpty = false ∧ h.groups.configured.containsAll axes = true) ∧
      h.groups.checkSingleAxis axes = .ok () ∧ safety.check = .ok () ∧
      model.kinematics.canHome axes = true := by
  rw [gate]
  cases h.active with
  | some cycle => simp [throw, throwThe, MonadExceptOf.throw, bind, Except.bind]
  | none =>
    cases h.groups.isEnabled <;> cases axes.isEmpty <;> cases h.groups.configured.containsAll axes <;>
      cases h.groups.checkSingleAxis axes <;> cases safety.check <;>
      cases model.kinematics.canHome axes <;>
      simp [throw, throwThe, MonadExceptOf.throw, bind, Except.bind, pure, Except.pure]

private theorem start_transition {axes : AxisMask} {safety : SafetyInputs} {reply : HomingReply α}
    (hp : h.perform model (.start axes safety) = .ok (reply, h')) :
    Transition model h (.start axes safety) reply h' := by
  rw [perform, start] at hp
  cases hg : h.gate model axes safety with
  | error e =>
    rw [hg] at hp
    cases hp
    exact .refused _ e
  | ok =>
    rw [hg] at hp
    cases hi : model.kinematics.homesItself axes with
    | true =>
      simp only [hi, if_true] at hp
      cases hp
      exact .completed hg hi
    | false =>
      simp only [hi, Bool.false_eq_true, if_false] at hp
      split at hp
      all_goals rename_i heq
      all_goals split at heq
      all_goals cases heq
      all_goals cases hp
      exact .planned hg

variable {cycle : ActiveCycle} {poll : HomingPoll}

theorem step_of_cancel (ha : h.active = some cycle) {reason : AbortReason}
    (hc : poll.cancel = some reason) :
    h.step model poll = .ok (.aborted reason,
      { h with status := h.status.abort cycle.axes, active := none }) := by
  simp only [step, ha, hc]

theorem step_of_no_report (ha : h.active = some cycle) (hc : poll.cancel = none)
    (hl : poll.limited.isEmpty = true) :
    h.step model poll = .ok (if poll.motionDone then (.aborted .approachFailed,
      { h with status := h.status.abort cycle.axes, active := none }) else (.continue cycle.motors, h)) := by
  simp only [step, ha, hc, hl, if_true]

theorem step_of_report (ha : h.active = some cycle) (hc : poll.cancel = none)
    (hl : poll.limited.isEmpty = false) {outcome : LimitOutcome}
    (ho : model.kinematics.limitReached cycle.pending cycle.motors poll.limited = outcome) :
    h.step model poll = .ok (
      if outcome.stop then
        (.done (h.complete model cycle.axes).1, (h.complete model cycle.axes).2)
      else if poll.motionDone then (.aborted .approachFailed,
        { h with status := h.status.abort cycle.axes, active := none })
      else (.continue outcome.motors,
        { h with active := some ⟨cycle.axes, outcome.axes, outcome.motors⟩ })) := by
  simp only [step, ha, hc, hl, ho, Bool.false_eq_true, if_false]
  split
  · rfl
  · split <;> rfl

private theorem step_transition {reply : HomingReply α}
    (hp : h.perform model (.step poll) = .ok (reply, h')) :
    Transition model h (.step poll) reply h' := by
  rw [perform] at hp
  cases ha : h.active with
  | none =>
    rw [step, ha] at hp
    cases hp
    exact .refused _ _
  | some cycle =>
    cases hc : poll.cancel with
    | some reason =>
      rw [step_of_cancel ha hc] at hp
      cases hp
      exact .aborted ha poll reason
    | none =>
      cases hl : poll.limited.isEmpty with
      | true =>
        rw [step_of_no_report ha hc hl] at hp
        cases hd : poll.motionDone with
        | true =>
          rw [hd] at hp
          cases hp
          exact .aborted ha poll .approachFailed
        | false =>
          rw [hd] at hp
          cases hp
          exact .waited ha poll
      | false =>
        rw [step_of_report ha hc hl rfl] at hp
        generalize ho : model.kinematics.limitReached cycle.pending cycle.motors poll.limited = outcome at hp
        cases hs : outcome.stop with
        | true =>
          rw [hs] at hp
          cases hp
          exact .done ha poll
        | false =>
          rw [hs] at hp
          cases hd : poll.motionDone with
          | true =>
            rw [hd] at hp
            cases hp
            exact .aborted ha poll .approachFailed
          | false =>
            rw [hd] at hp
            cases hp
            exact .reported ha poll ho hs

/-- Every reply that is given, and what it leaves. -/
theorem perform_transition {call : HomingCall} {reply : HomingReply α}
    (hp : h.perform model call = .ok (reply, h')) : Transition model h call reply h' := by
  cases call with
  | start axes safety => exact start_transition hp
  | step poll => exact step_transition hp
  | abort =>
    rw [perform, abort] at hp
    cases ha : h.active with
    | none =>
      rw [ha] at hp
      cases hp
      exact .refused _ _
    | some cycle =>
      rw [ha] at hp
      cases hp
      exact .abort ha
  | unlock axes =>
    rw [perform, unlock] at hp
    cases ha : h.active with
    | none =>
      have ht : Transition model h (.unlock axes) _ _ := .unlocked ha axes
      rw [ha] at hp ht
      cases hp
      exact ht
    | some cycle =>
      rw [ha] at hp
      cases hp
      exact .refused _ _
  | reset =>
    cases hp
    exact .reset

theorem Transition.groups {call : HomingCall} {reply : HomingReply α}
    (ht : Transition model h call reply h') : h'.groups = h.groups := by
  cases ht <;> rfl

theorem Transition.home {call : HomingCall} {reply : HomingReply α}
    (ht : Transition model h call reply h') : h'.home = h.home := by
  cases ht <;> rfl

/-- A start gives a reply, or breaks off once its cycle has begun. -/
theorem of_start (h : HomingSequence α) (model : MachineModel α) (axes : AxisMask) (safety : SafetyInputs) :
    (∃ reply, Transition model h (.start axes safety) reply (h.start model axes safety).2) ∨
      (h.start model axes safety).2 = { h with status := h.status.begin axes } := by
  obtain ⟨answer, after, hs⟩ : ∃ answer after, h.start model axes safety = (answer, after) := ⟨_, _, rfl⟩
  have hp (reply : HomingReply α) (hr : h.perform model (.start axes safety) = .ok (reply, after)) :
      ∃ reply, Transition model h (.start axes safety) reply after := ⟨reply, start_transition hr⟩
  rw [hs]
  cases answer with
  | ok answer =>
    cases answer with
    | plan plan => exact .inl (hp (.planned plan) (by rw [perform, hs]))
    | done outcome => exact .inl (hp (.completed outcome) (by rw [perform, hs]))
  | error failure =>
    cases failure with
    | refused e => exact .inl (hp (.refused e) (by rw [perform, hs]))
    | fault fault =>
      rw [start] at hs
      split at hs
      · cases hs
      · dsimp only at hs
        split at hs
        · cases hs
        · split at hs
          · cases hs
            exact .inr rfl
          · cases hs

theorem of_ofMachine {machine : MachineDescription α} (hf : ofMachine machine = .ok h) :
    h.groups = .ofMachine machine ∧ h.status = {} ∧ h.active = none := by
  rw [ofMachine] at hf
  cases hs : (AxisPosition.new (machine.axes.map seekDistance) : Checked (AxisPosition α)) with
  | error fault =>
    rw [hs] at hf
    cases hf
  | ok seek =>
    rw [hs] at hf
    cases hp : (AxisPosition.new (machine.axes.map homePosition) : Checked (AxisPosition α)) with
    | error fault =>
      rw [hp] at hf
      cases hf
    | ok home =>
      rw [hp] at hf
      cases hf
      exact ⟨rfl, rfl, rfl⟩

theorem replay_cons {call : HomingCall} {calls : List HomingCall} {events : List (HomingEvent α)} :
    h.replay model (call :: calls) = .ok (events, h') ↔
      ∃ reply middle rest, h.perform model call = .ok (reply, middle) ∧
        middle.replay model calls = .ok (rest, h') ∧ events = ⟨call, reply⟩ :: rest := by
  rw [replay]
  cases hp : h.perform model call with
  | error fault => simp [bind, Except.bind]
  | ok first =>
    obtain ⟨reply, middle⟩ := first
    cases hr : middle.replay model calls with
    | error fault => simp [bind, Except.bind, hr]
    | ok last =>
      simp only [bind, Except.bind, pure, Except.pure, hr, Except.ok.injEq, Prod.mk.injEq]
      grind

end HomingSequence

end MotionControl
