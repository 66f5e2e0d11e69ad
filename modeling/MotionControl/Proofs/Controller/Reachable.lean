import MotionControl.Proofs.Controller.Offers
import MotionControl.Proofs.Homing.Calls
import MotionControl.Proofs.Kinematics.ValueCounts

/-! What the controller of a machine can become. Its model stays the one that was created for the
machine, and so do the groups that its axes are homed in and the positions that they are homed at. -/
namespace MotionControl.Controller
variable {α σ : Type} [Scalar α]

/-- One call of a controller that was not refused, or that changes the controller even then. -/
inductive Step (c : Controller α) : Controller α → Prop where
  | perform {σ : Type} (planner : Planner α σ) (state : σ) (command : MotionCommand α) :
      Step c (c.perform planner state command).controller
  | sync {c' : Controller α} {motors : MotorPosition α} (accepted : c.sync motors = .ok c') : Step c c'
  | cancelJog : Step c c.cancelJog
  | startHoming (axes : AxisMask) (safety : SafetyInputs) : Step c (c.startHoming axes safety).2
  | homingStep (poll : HomingPoll) : Step c (c.homingStep poll).2
  | finishHoming {c' : Controller α} {axes : AxisMask} (accepted : c.finishHoming axes = .ok c') : Step c c'
  | abortHoming {c' : Controller α} (accepted : c.abortHoming = .ok c') : Step c c'
  | unlock {c' : Controller α} {axes : AxisMask} {released : MotorMask}
      (accepted : c.unlock axes = .ok (released, c')) : Step c c'
  | reset : Step c c.reset

/-- The controller of a machine after any number of calls. -/
inductive Reachable (catalog : KinematicsCatalog α) (machine : MachineDescription α) :
    Controller α → Prop where
  | start {c : Controller α} {logged : Bool} (created : ofMachine catalog machine logged = .ok c) :
      Reachable catalog machine c
  | step {c c' : Controller α} (earlier : Reachable catalog machine c) (step : Step c c') :
      Reachable catalog machine c'

variable {c c' : Controller α} {catalog : KinematicsCatalog α} {machine : MachineDescription α} {logged : Bool}

theorem exists_offer_eq (planner : Planner α σ) (move : Move α) (ticket : Option JogTicket) (accepted : Nat)
    (segments : List (MotorSegment α)) (c : Controller α) (state : σ) :
    ∃ jog motors, (offer planner move ticket accepted segments c state).controller = { c with jog, motors } := by
  induction segments generalizing accepted c state with
  | nil => exact ⟨c.jog, c.motors, rfl⟩
  | cons segment rest ih =>
    rw [offer]
    split
    · exact ⟨c.jog, c.motors, rfl⟩
    · dsimp only
      split
      · exact ⟨_, c.motors, rfl⟩
      · exact ih _ _ _

theorem exists_begun_eq (c : Controller α) (command : MotionCommand α) : ∃ jog, c.begun command = { c with jog } := by
  cases command with
  | line move =>
    rw [begun, ticket]
    split
    · exact ⟨_, rfl⟩
    · exact ⟨c.jog, rfl⟩
  | arc move arc => exact ⟨c.jog, rfl⟩

theorem exists_perform_eq (c : Controller α) (planner : Planner α σ) (state : σ) (command : MotionCommand α) :
    ∃ jog motors, (c.perform planner state command).controller = { c with jog, motors } := by
  obtain ⟨jog, hb⟩ := c.exists_begun_eq command
  rw [perform_eq]
  cases c.motorSegments command with
  | error e => exact ⟨jog, c.motors, hb⟩
  | ok line =>
    obtain ⟨jog', motors, ho⟩ :=
      exists_offer_eq planner line.1 (c.commandTicket command) 0 line.2 (c.begun command) state
    exact ⟨jog', motors, by rw [ho, hb]⟩

theorem model_perform (c : Controller α) (planner : Planner α σ) (state : σ) (command : MotionCommand α) :
    (c.perform planner state command).controller.model = c.model := by
  obtain ⟨jog, motors, h⟩ := c.exists_perform_eq planner state command
  rw [h]

theorem sync_eq_ok {motors : MotorPosition α} :
    c.sync motors = .ok c' ↔ motors.length = c.model.axisCount ∧ c' = { c with motors } := by
  rw [Controller.sync]
  split
  · rename_i hn
    exact iff_of_false nofun fun h => hn h.1
  · rename_i hl
    rw [Except.ok.injEq, eq_comm, and_iff_right (Decidable.not_not.mp hl)]

theorem finishHoming_eq_ok {axes : AxisMask} : c.finishHoming axes = .ok c' ↔
    ∃ motors, c.model.kinematics.homedPosition axes c.motors c.homing.home = .ok motors ∧
      c' = { c with motors } := by
  rw [finishHoming, Outcome.bind_eq_ok]
  simp only [Outcome.pure_eq_ok, eq_comm (b := c')]

/-- What a poll leaves. One that gets an answer from the sequence moves it on, and at the end of a cycle the
tracked motors are put to the home pose, if there is one. -/
theorem homingStep_cases (c : Controller α) (poll : HomingPoll) :
    (c.homingStep poll).2 = c ∨
    ∃ step homing, c.homing.step c.model poll = .ok (step, homing) ∧
      ((c.homingStep poll).2 = { c with homing } ∨ ∃ axes motors,
        c.model.kinematics.homedPosition axes c.motors homing.home = .ok motors ∧
          (c.homingStep poll).2 = { c with homing, motors }) := by
  rw [homingStep]
  cases hs : c.homing.step c.model poll with
  | error e => exact .inl rfl
  | ok answer =>
    obtain ⟨step, homing⟩ := answer
    refine .inr ⟨step, homing, rfl, ?_⟩
    dsimp only
    split
    · split
      · rename_i hf
        obtain ⟨motors, hm, hc⟩ := finishHoming_eq_ok.mp (Outcome.mapReason_eq_ok.mp hf)
        exact .inr ⟨_, motors, hm, hc⟩
      · exact .inl rfl
    · exact .inl rfl

theorem model_homingStep (c : Controller α) (poll : HomingPoll) : (c.homingStep poll).2.model = c.model := by
  obtain h | ⟨step, homing, -, h | ⟨axes, motors, -, h⟩⟩ := c.homingStep_cases poll
  · rw [h]
  · rw [h]
  · rw [h]

theorem homing_homingStep (c : Controller α) (poll : HomingPoll) :
    (c.homingStep poll).2.homing = c.homing ∨
      ∃ step, c.homing.step c.model poll = .ok (step, (c.homingStep poll).2.homing) := by
  obtain h | ⟨step, homing, hs, h | ⟨axes, motors, -, h⟩⟩ := c.homingStep_cases poll
  · exact .inl (by rw [h])
  · exact .inr ⟨step, by rw [h, hs]⟩
  · exact .inr ⟨step, by rw [h, hs]⟩

theorem Step.model (h : Step c c') : c'.model = c.model := by
  cases h with
  | perform planner state command => exact model_perform c planner state command
  | sync accepted =>
    obtain ⟨-, rfl⟩ := sync_eq_ok.mp accepted
    rfl
  | cancelJog => rfl
  | startHoming => rfl
  | homingStep poll => exact model_homingStep c poll
  | finishHoming accepted =>
    obtain ⟨motors, -, rfl⟩ := finishHoming_eq_ok.mp accepted
    rfl
  | abortHoming accepted =>
    obtain ⟨homing, -, rfl⟩ := Outcome.map_eq_ok.mp accepted
    rfl
  | unlock accepted =>
    obtain ⟨unlocked, -, h⟩ := Outcome.map_eq_ok.mp accepted
    cases h
    rfl
  | reset => rfl

/-- What a call can do to the homing sequence. A start that breaks off has begun its cycle. -/
theorem Step.homing (h : Step c c') : c'.homing = c.homing ∨
    (∃ call reply, HomingSequence.Transition c.model c.homing call reply c'.homing) ∨
    ∃ axes, c'.homing = { c.homing with status := c.homing.status.begin axes } := by
  cases h with
  | perform planner state command =>
    obtain ⟨jog, motors, hp⟩ := c.exists_perform_eq planner state command
    exact .inl (by rw [hp])
  | sync accepted =>
    obtain ⟨-, rfl⟩ := sync_eq_ok.mp accepted
    exact .inl rfl
  | cancelJog => exact .inl rfl
  | startHoming axes safety =>
    obtain ⟨reply, ht⟩ | hb := c.homing.of_start c.model axes safety
    · exact .inr (.inl ⟨_, reply, ht⟩)
    · exact .inr (.inr ⟨axes, hb⟩)
  | homingStep poll =>
    obtain hk | ⟨step, hs⟩ := c.homing_homingStep poll
    · exact .inl hk
    · have hp : c.homing.perform c.model (.step poll) = .ok (.stepped step, (c.homingStep poll).2.homing) := by
        rw [HomingSequence.perform, hs]
      exact .inr (.inl ⟨_, _, HomingSequence.perform_transition hp⟩)
  | finishHoming accepted =>
    obtain ⟨motors, -, rfl⟩ := finishHoming_eq_ok.mp accepted
    exact .inl rfl
  | abortHoming accepted =>
    obtain ⟨homing, ha, rfl⟩ := Outcome.map_eq_ok.mp accepted
    have hp : c.homing.perform c.model .abort = .ok (.acknowledged, homing) := by
      rw [HomingSequence.perform, ha]
    exact .inr (.inl ⟨_, _, HomingSequence.perform_transition hp⟩)
  | @unlock _ axes released accepted =>
    obtain ⟨⟨_, homing⟩, hu, h⟩ := Outcome.map_eq_ok.mp accepted
    cases h
    have hp : c.homing.perform c.model (.unlock axes) = .ok (.unlocked released, homing) := by
      rw [HomingSequence.perform, hu]
    exact .inr (.inl ⟨_, _, HomingSequence.perform_transition hp⟩)
  | reset => exact .inr (.inl ⟨_, _, .reset⟩)

theorem of_ofMachine (h : ofMachine catalog machine logged = .ok c) :
    catalog.create machine = .ok c.model ∧ c.motors = c.model.initPosition := by
  obtain ⟨model, hm, h⟩ := Outcome.bind_eq_ok.mp h
  obtain ⟨subdivision, -, h⟩ := Outcome.bind_eq_ok.mp h
  obtain ⟨-, h⟩ := Outcome.guard_eq_ok.mp h
  obtain ⟨-, -, h⟩ := Outcome.bind_eq_ok.mp h
  obtain ⟨homing, -, h⟩ := Outcome.bind_eq_ok.mp h
  cases h
  exact ⟨Outcome.ofExcept_eq_ok.mp hm, rfl⟩

theorem Reachable.create (h : Reachable catalog machine c) : catalog.create machine = .ok c.model := by
  induction h with
  | start created => exact (of_ofMachine created).1
  | step _ step ih => rw [ih, step.model]

theorem homing_ofMachine (h : ofMachine catalog machine logged = .ok c) :
    HomingSequence.ofMachine machine = .ok c.homing := by
  obtain ⟨model, -, h⟩ := Outcome.bind_eq_ok.mp h
  obtain ⟨subdivision, -, h⟩ := Outcome.bind_eq_ok.mp h
  obtain ⟨-, h⟩ := Outcome.guard_eq_ok.mp h
  obtain ⟨-, -, h⟩ := Outcome.bind_eq_ok.mp h
  obtain ⟨homing, hh, h⟩ := Outcome.bind_eq_ok.mp h
  cases h
  exact Outcome.lift_eq_ok.mp hh

/-- The sequence homes axes of its machine, each at its own position. -/
structure HomesAxesOf (machine : MachineDescription α) (h : HomingSequence α) : Prop where
  groups : h.groups = .ofMachine machine
  home : h.home = ⟨machine.axes.map HomingSequence.homePosition⟩
  configured : ∀ cycle, h.active = some cycle → cycle.axes ⊆ (HomingGroups.ofMachine machine).configured

namespace HomesAxesOf
variable {h h' : HomingSequence α} {model : MachineModel α}

theorem of_fresh (hf : HomingSequence.ofMachine machine = .ok h) : HomesAxesOf machine h := by
  obtain ⟨seek, -, hf⟩ := Outcome.bind_eq_ok.mp hf
  obtain ⟨home, hp, hf⟩ := Outcome.bind_eq_ok.mp hf
  cases hf
  exact ⟨rfl, AxisPosition.eq_of_new hp, nofun⟩

theorem transition {call : HomingCall} {reply : HomingReply α} (hh : HomesAxesOf machine h)
    (ht : HomingSequence.Transition model h call reply h') : HomesAxesOf machine h' := by
  refine ⟨ht.groups.trans hh.groups, ht.home.trans hh.home, ?_⟩
  intro cycle ha
  cases ht with
  | refused => exact hh.configured cycle ha
  | planned passes =>
    obtain ⟨-, -, ⟨-, hc⟩, -⟩ := HomingSequence.gate_eq_ok.mp passes
    rw [AxisMask.containsAll_iff, hh.groups] at hc
    cases ha
    exact hc
  | completed => cases ha
  | waited => exact hh.configured cycle ha
  | @reported before _ active =>
    cases ha
    exact hh.configured before active
  | done => cases ha
  | aborted => cases ha
  | abort => cases ha
  | unlocked => exact hh.configured cycle ha
  | reset => cases ha

theorem step (hh : HomesAxesOf machine c.homing) (hs : Step c c') : HomesAxesOf machine c'.homing := by
  obtain hk | ⟨call, reply, ht⟩ | ⟨axes, hb⟩ := hs.homing
  · rwa [hk]
  · exact hh.transition ht
  · rw [hb]
    exact ⟨hh.groups, hh.home, hh.configured⟩

end HomesAxesOf

theorem Reachable.homesAxesOf (h : Reachable catalog machine c) : HomesAxesOf machine c.homing := by
  induction h with
  | start created => exact .of_fresh (homing_ofMachine created)
  | step _ step ih => exact ih.step step

theorem Reachable.groups (h : Reachable catalog machine c) : c.homing.groups = .ofMachine machine :=
  h.homesAxesOf.groups

end MotionControl.Controller
