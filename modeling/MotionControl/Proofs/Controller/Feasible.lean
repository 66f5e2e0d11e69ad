import MotionControl.Proofs.Controller.Reachable
import MotionControl.Proofs.Kinematics.Workspaces
import MotionControl.Proofs.Machine.Models
import MotionControl.Proofs.Scalar.Doubles
import MotionControl.Proofs.Subdivision.Waypoints

/-! Whatever a planner is offered can be executed by the machine. A line, a clipped jog, the pieces of a
subdivided line and the chords of an arc come with different checks, and each of these suffices. -/
namespace MotionControl
variable {α σ : Type} [Scalar α]

/-- The motors stand where the inverse transform puts them, which is within reach: the axes of the linear
kinematics are in their travel ranges where these are enforced, and the cranks of the delta in theirs. -/
structure Feasible (machine : MachineDescription α) (model : MachineModel α) (segment : PlannerSegment α) :
    Prop where
  solved : model.inverse segment.target = .ok segment.motors
  within : match machine.kinematics with
    | .parallelDelta geometry => ∃ θ1 θ2 θ3 rest, segment.motors = ⟨θ1 :: θ2 :: θ3 :: rest⟩ ∧
        ∀ θ ∈ [θ1, θ2, θ3], geometry.minAngle ≤ θ ∧ θ ≤ geometry.maxAngle
    | _ => ∀ axis settings, machine.axes[axis]? = some settings → settings.softLimits = true →
        settings.travelRange.1 ≤ segment.target.axis axis ∧
          segment.target.axis axis ≤ settings.travelRange.2

namespace Controller
variable {c : Controller α} {move guarded : Move α} {arc : Arc α} {current : AxisPosition α}

/-- A waypoint that every route to the planner ends at: it is solved, and where lines need no subdivision
it has passed the check of the target of a line. -/
def Passed (model : MachineModel α) (w : Waypoint α) : Prop :=
  w.Solved model ∧ (model.kinematics.isLinear = true → model.invalidLine w.target = false)

theorem passed_of_segment {segments : List (MotorSegment α)}
    (h : c.subdivision.segment c.model current move = .ok segments)
    (hv : c.model.invalidLine move.target = false) {segment : MotorSegment α} (hm : segment ∈ segments) :
    Passed c.model segment.waypoint := by
  obtain ⟨hs, ht⟩ := Subdivision.mem_segment h hm
  exact ⟨hs, fun hl => (congrArg c.model.invalidLine (ht hl)).trans hv⟩

theorem passed_of_lineSegments {segments : List (MotorSegment α)}
    (h : c.lineSegments move = .ok (guarded, segments)) {segment : MotorSegment α} (hm : segment ∈ segments) :
    Passed c.model segment.waypoint := by
  rw [lineSegments] at h
  obtain ⟨current, -, h⟩ := Outcome.bind_eq_ok.mp h
  obtain ⟨move, -, h⟩ := Outcome.bind_eq_ok.mp h
  obtain ⟨hv, h⟩ := Outcome.guard_eq_ok.mp h
  obtain ⟨line, hs, h⟩ := Outcome.bind_eq_ok.mp h
  cases h
  exact passed_of_segment (Outcome.mapReason_eq_ok.mp hs) (Bool.eq_false_iff.mpr hv) hm

theorem passed_of_chordSegments {start : AxisPosition α} {points : List (AxisPosition α)}
    {segments : List (MotorSegment α)} (h : c.chordSegments move start points = .ok segments)
    {segment : MotorSegment α} (hm : segment ∈ segments) : Passed c.model segment.waypoint := by
  induction points generalizing start segments with
  | nil =>
    cases h
    cases hm
  | cons point points ih =>
    rw [chordSegments] at h
    obtain ⟨hv, h⟩ := Outcome.guard_eq_ok.mp h
    obtain ⟨chord, hs, h⟩ := Outcome.bind_eq_ok.mp h
    obtain ⟨rest, hr, h⟩ := Outcome.bind_eq_ok.mp h
    cases h
    obtain hm | hm := List.mem_append.mp hm
    · exact passed_of_segment (Outcome.mapReason_eq_ok.mp hs) (Bool.eq_false_iff.mpr hv) hm
    · exact ih hr hm

theorem passed_of_arcSegments {segments : List (MotorSegment α)} (h : c.arcSegments move arc = .ok segments)
    {segment : MotorSegment α} (hm : segment ∈ segments) : Passed c.model segment.waypoint := by
  obtain ⟨current, -, h⟩ := Outcome.bind_eq_ok.mp h
  obtain ⟨-, h⟩ := Outcome.guard_eq_ok.mp h
  obtain ⟨-, h⟩ := Outcome.guard_eq_ok.mp h
  obtain ⟨leaves, -, h⟩ := Outcome.bind_eq_ok.mp h
  obtain ⟨-, h⟩ := Outcome.guard_eq_ok.mp h
  obtain ⟨points, -, h⟩ := Outcome.bind_eq_ok.mp h
  exact passed_of_chordSegments h hm

theorem passed_of_planned {command : MotionCommand α} {segment : PlannerSegment α}
    (hm : segment ∈ c.planned command) : Passed c.model ⟨segment.target, segment.motors⟩ := by
  rw [planned, prepare_eq] at hm
  cases hs : c.motorSegments command with
  | error e =>
    rw [hs] at hm
    cases hm
  | ok line =>
    rw [hs] at hm
    obtain ⟨segment, hl, rfl⟩ := List.mem_map.mp hm
    cases command with
    | line move => exact passed_of_lineSegments hs hl
    | arc move arc =>
      obtain ⟨chords, hc, ⟨⟩⟩ := Outcome.bind_eq_ok.mp hs
      exact passed_of_arcSegments hc hl

theorem Offered.mem {motors : MotorPosition α} {ticket : Option JogTicket}
    {segments : List (PlannerSegment α)} {record : OfferRecord α} {result : Outcome MotionError Nat}
    {after : Controller α} {count : Nat} (ho : Offered motors ticket segments record result after count)
    {offer : PlannerSegment α × Except PlannerError Unit} (hm : offer ∈ record) : offer.1 ∈ segments := by
  have hall : offer ∈ allAccepted (segments.take count) → offer.1 ∈ segments := by
    intro h
    obtain ⟨segment, hs, rfl⟩ := List.mem_map.mp h
    exact List.mem_of_mem_take hs
  cases result with
  | ok n => exact hall ((ho.ok n rfl).2.1 ▸ hm)
  | error e =>
    by_cases hr : ∃ i reason, e = .refused (.plannerRejected i reason)
    · obtain ⟨i, reason, rfl⟩ := hr
      obtain ⟨-, next, hn, rfl⟩ := ho.rejected i reason rfl
      obtain hm | hm := List.mem_append.mp hm
      · exact hall hm
      · rw [List.mem_singleton.mp hm]
        exact List.mem_of_getElem? hn
    · obtain ⟨-, rfl⟩ := ho.failed e rfl fun i reason he => hr ⟨i, reason, he⟩
      cases hm

end Controller

/-- A position that the travel ranges of a machine let through is in those that are enforced. -/
theorem MachineDescription.mem_travelRange {machine : MachineDescription α} {p : AxisPosition α}
    (h : SoftLimits.contains ⟨machine.softLimits⟩ p = true) {axis : Nat} {settings : AxisSettings α}
    (hs : machine.axes[axis]? = some settings) (hl : settings.softLimits = true) :
    settings.travelRange.1 ≤ p.axis axis ∧ p.axis axis ≤ settings.travelRange.2 := by
  have hr : machine.softLimits[axis]? = some (some settings.travelRange) := by simp [softLimits, hs, hl]
  exact SoftLimits.contains_iff.mp h axis _ _ hr

variable {catalog : KinematicsCatalog α} {machine : MachineDescription α} {model : MachineModel α}

/-- Linear kinematics that check the target of a line against travel ranges. -/
private theorem contains_of_passed {w : Waypoint α} (hp : Controller.Passed model w)
    (hl : model.kinematics.isLinear = true) {limits : SoftLimits α}
    (hi : model.kinematics.invalidLine w.target = !limits.contains w.target) :
    limits.contains w.target = true := by
  have hv := (Bool.or_eq_false_iff.mp (hp.2 hl)).2
  rw [hi] at hv
  simpa using hv

theorem feasible_of_passed [OrderedScalar α] (hc : catalog.create machine = .ok model)
    (hb : ∀ name params, machine.kinematics ≠ .custom name params) {segment : PlannerSegment α}
    (hp : Controller.Passed model ⟨segment.target, segment.motors⟩) : Feasible machine model segment where
  solved := hp.1
  within := by
    cases KinematicsCatalog.builtInModel hc hb with
    | cartesian selected =>
      rw [selected]
      exact fun _ _ => MachineDescription.mem_travelRange (contains_of_passed hp rfl rfl)
    | coreXY selected =>
      rw [selected]
      exact fun _ _ => MachineDescription.mem_travelRange (contains_of_passed hp rfl rfl)
    | parallelDelta selected =>
      rw [selected]
      obtain ⟨_, _, _, θ1, θ2, θ3, rest, -, hm, -, -, ha⟩ :=
        RotaryDelta.angles_of_inverse (MachineModel.inverse_eq_ok.mp hp.1).2
      exact ⟨θ1, θ2, θ3, rest, hm, ha⟩

/-- For every machine with built-in kinematics, every state that its controller can reach and every
command, whatever the planner is offered is feasible. -/
theorem Controller.offered_feasible [OrderedScalar α] {c : Controller α} (hr : Reachable catalog machine c)
    (hb : ∀ name params, machine.kinematics ≠ .custom name params) (planner : Planner α σ) (state : σ)
    (command : MotionCommand α) :
    ∀ offer ∈ (c.perform planner.recorded (state, []) command).planner.2, Feasible machine c.model offer.1 := by
  obtain ⟨result, after, last, record, count, hp, ho⟩ := c.recorded_offered planner state command
  rw [hp]
  intro offer hm
  exact feasible_of_passed hr.create hb (Controller.passed_of_planned (ho.mem hm))

/-- Two axes, X confined to its travel of 300 millimetres below zero. -/
def confinedMachine : MachineDescription Float :=
  { (default : MachineDescription Float) with
    axes := [{ AxisSettings.homedIn "X" 300.0 2 with softLimits := true }, .homedIn "Y" 300.0 2] }

/-- A jog to beyond the end of the travel of X is offered as one segment that stays in it. -/
theorem clipped_jog_feasible : ∃ c, Controller.ofMachine .builtin confinedMachine = .ok c ∧
    (∀ name params, confinedMachine.kinematics ≠ .custom name params) ∧
    ∃ offer, (c.perform SegmentQueue.planner.recorded ({ capacity := 4 }, [])
        (.line (.jog ⟨[-400.0, 10.0]⟩ 600.0))).planner.2 = [offer] ∧
      Feasible confinedMachine c.model offer.1 := by
  have hb : ∀ name params, confinedMachine.kinematics ≠ .custom name params := fun _ _ => nofun
  obtain ⟨c, hc⟩ : ∃ c, Controller.ofMachine .builtin confinedMachine = .ok c := ⟨_, rfl⟩
  have hl : (c.perform SegmentQueue.planner.recorded ({ capacity := 4 }, [])
      (.line (.jog ⟨[-400.0, 10.0]⟩ 600.0))).planner.2.length = 1 := by
    cases hc
    decide +kernel
  obtain ⟨offer, ho⟩ := List.length_eq_one_iff.mp hl
  exact ⟨c, hc, hb, offer, ho, Controller.offered_feasible (.start hc) hb SegmentQueue.planner
    { capacity := 4 } (.line (.jog ⟨[-400.0, 10.0]⟩ 600.0)) offer (ho ▸ List.mem_singleton_self offer)⟩

end MotionControl
