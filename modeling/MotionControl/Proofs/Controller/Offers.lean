import MotionControl.Controller
import MotionControl.Proofs.Outcomes

/-! What a planner is offered in the course of a move. A record is kept of the segments it is asked to
take and of its verdicts. -/
namespace MotionControl
variable {α σ β : Type}

/-- A segment that a planner was offered, and its verdict. -/
abbrev OfferRecord (α : Type) := List (PlannerSegment α × Except PlannerError Unit)

/-- A planner beside the record of what it was offered. -/
def Planner.recorded (planner : Planner α σ) : Planner α (σ × OfferRecord α) :=
  fun (state, record) segment =>
    let reply := planner state segment
    ⟨reply.verdict, (reply.state, record ++ [(segment, reply.verdict)]), reply.jogCancels⟩

/-- A report without the record of what the planner was offered. -/
def MoveReport.unrecorded [Scalar α] (report : MoveReport α (σ × OfferRecord α)) : MoveReport α σ :=
  { report with planner := report.planner.1 }

/-- The record of segments that were all accepted. -/
def allAccepted (segments : List (PlannerSegment α)) : OfferRecord α := segments.map (·, .ok ())

/-- A commanded line or arc. -/
inductive MotionCommand (α : Type) where
  | line (move : Move α)
  | arc (move : Move α) (arc : Arc α)

/-- The position of the motors after some segments. -/
def motorsAfter (motors : MotorPosition α) (segments : List (PlannerSegment α)) : MotorPosition α :=
  (segments.getLast?.map PlannerSegment.motors).getD motors

theorem motorsAfter_append (motors : MotorPosition α) (segments : List (PlannerSegment α))
    (segment : PlannerSegment α) : motorsAfter motors (segments ++ [segment]) = segment.motors := by
  simp [motorsAfter]

namespace Controller
variable [Scalar α]

/-- Carries out a command with a planner. -/
def perform (c : Controller α) (planner : Planner α σ) (state : σ) : MotionCommand α → MoveReport α σ
  | .line move => c.moveTo planner state move
  | .arc move arc => c.arcTo planner state move arc

/-- The segments of a command, which no planner has a part in. -/
def prepare (c : Controller α) : MotionCommand α → Outcome MotionError (List (PlannerSegment α))
  | .line move => do
    let (move, segments) ← c.lineSegments move
    return segments.map (plannerSegment move)
  | .arc move arc => do return (← c.arcSegments move arc).map (plannerSegment move)

/-- The segments that a command has for a planner, none if the command is refused. -/
def planned (c : Controller α) (command : MotionCommand α) : List (PlannerSegment α) :=
  (c.prepare command).toOption.getD []

/-- The ticket that a command is carried out under, which only the line of a jog has. -/
def commandTicket (c : Controller α) : MotionCommand α → Option JogTicket
  | .line move => (c.ticket move).1
  | .arc _ _ => none

/-- The controller once a command has its ticket. -/
def begun (c : Controller α) : MotionCommand α → Controller α
  | .line move => (c.ticket move).2
  | .arc _ _ => c

/-- The segments of a command for the motors, with the move that they carry out. -/
def motorSegments (c : Controller α) : MotionCommand α → Outcome MotionError (Move α × List (MotorSegment α))
  | .line move => c.lineSegments move
  | .arc move arc => do return (move, ← c.arcSegments move arc)

/-- The planner accepted the first `count` segments, and the motors are tracked to the last of them. If
it was offered another one, it rejected it. It was offered all, unless a jog was superseded. -/
structure Offered (motors : MotorPosition α) (ticket : Option JogTicket)
    (segments : List (PlannerSegment α)) (record : OfferRecord α) (result : Outcome MotionError Nat)
    (after : Controller α) (count : Nat) : Prop where
  count_le : count ≤ segments.length
  motors : after.motors = motorsAfter motors (segments.take count)
  ok : ∀ n, result = .ok n → n = count ∧ record = allAccepted (segments.take count) ∧
    (count < segments.length → ∃ jog, ticket = some jog ∧ after.jog.isCurrent jog = false)
  rejected : ∀ i e, result = refuse (.plannerRejected i e) → i = count ∧
    ∃ next, segments[i]? = some next ∧ record = allAccepted (segments.take count) ++ [(next, .error e)]
  failed : ∀ e, result = .error e → (∀ i reason, e ≠ .refused (.plannerRejected i reason)) →
    count = 0 ∧ record = []

theorem prepare_eq (c : Controller α) (command : MotionCommand α) : c.prepare command = do
    let (move, segments) ← c.motorSegments command
    return segments.map (plannerSegment move) := by
  cases command with
  | line move => rfl
  | arc move arc =>
    rw [prepare, motorSegments]
    cases c.arcSegments move arc <;> rfl

/-- Lines and arcs are worked out each in their own way, and then offered in the same. -/
theorem perform_eq (c : Controller α) (planner : Planner α σ) (state : σ) (command : MotionCommand α) :
    c.perform planner state command = match c.motorSegments command with
      | .error e => ⟨.error e, c.begun command, state⟩
      | .ok line => offer planner line.1 (c.commandTicket command) 0 line.2 (c.begun command) state := by
  cases command with
  | line move =>
    rw [perform, moveTo, motorSegments]
    cases c.lineSegments move <;> rfl
  | arc move arc =>
    rw [perform, arcTo, motorSegments]
    cases c.arcSegments move arc <;> rfl

variable {move : Move α} {ticket : Option JogTicket} {motors : MotorPosition α} {c : Controller α}
  {before rest : List (PlannerSegment α)}

private theorem offered_ok (hm : c.motors = motorsAfter motors before)
    (hs : rest ≠ [] → ∃ jog, ticket = some jog ∧ c.jog.isCurrent jog = false) :
    Offered motors ticket (before ++ rest) (allAccepted before) (.ok before.length) c before.length where
  count_le := by simp
  motors := by rw [List.take_left, hm]
  ok := by
    rintro _ ⟨⟩
    rw [List.take_left]
    refine ⟨rfl, rfl, ?_⟩
    intro hl
    apply hs
    rintro rfl
    simp at hl
  rejected := by
    rintro _ _ ⟨⟩
  failed := by
    rintro _ ⟨⟩

private theorem offered_rejected (hm : c.motors = motorsAfter motors before) (next : PlannerSegment α)
    (e : PlannerError) : Offered motors ticket (before ++ next :: rest)
      (allAccepted before ++ [(next, .error e)]) (refuse (.plannerRejected before.length e)) c
      before.length where
  count_le := by simp
  motors := by rw [List.take_left, hm]
  ok := by
    rintro _ ⟨⟩
  rejected := by
    rintro _ _ ⟨⟩
    exact ⟨rfl, next, by simp, by rw [List.take_left]⟩
  failed := by
    rintro _ ⟨⟩ hr
    exact absurd rfl (hr _ _)

private theorem offered_failed (hm : c.motors = motors) {e : Failure MotionError}
    (hp : ∀ i reason, e ≠ .refused (.plannerRejected i reason)) :
    Offered motors ticket [] [] (.error e) c 0 where
  count_le := Nat.le_refl 0
  motors := hm
  ok := by
    rintro _ ⟨⟩
  rejected := by
    rintro i reason h
    exact absurd (Except.error.inj h) (hp i reason)
  failed := fun _ _ _ => ⟨rfl, rfl⟩

theorem unrecorded_offer (planner : Planner α σ) (move : Move α) (ticket : Option JogTicket) (accepted : Nat)
    (segments : List (MotorSegment α)) (c : Controller α) (state : σ) (record : OfferRecord α) :
    (offer planner.recorded move ticket accepted segments c (state, record)).unrecorded =
      offer planner move ticket accepted segments c state := by
  induction segments generalizing accepted c state record with
  | nil => rfl
  | cons segment rest ih =>
    rw [offer, offer]
    split
    · rfl
    · simp only [Planner.recorded]
      cases (planner state (plannerSegment move segment)).verdict with
      | error e => rfl
      | ok => exact ih _ _ _ _

theorem offer_offered (planner : Planner α σ) (move : Move α) (ticket : Option JogTicket)
    (motors : MotorPosition α) (before : List (PlannerSegment α)) (rest : List (MotorSegment α))
    (c : Controller α) (state : σ) (hm : c.motors = motorsAfter motors before) :
    ∃ result after last record count,
      offer planner.recorded move ticket before.length rest c (state, allAccepted before) =
        ⟨result, after, (last, record)⟩ ∧
      Offered motors ticket (before ++ rest.map (plannerSegment move)) record result after count := by
  -- on the segments still to be offered; those in `before` have been accepted
  induction rest generalizing before c state with
  | nil => exact ⟨_, _, _, _, _, rfl, offered_ok hm (absurd rfl)⟩
  | cons segment rest ih =>
    rw [offer, List.map_cons]
    by_cases hs : ticket.any (fun ticket => !c.jog.isCurrent ticket) = true
    · rw [if_pos hs]
      obtain ⟨jog, rfl, hj⟩ := Option.any_eq_true .. |>.mp hs
      exact ⟨_, _, _, _, _, rfl, offered_ok hm fun _ => ⟨jog, rfl, by simpa using hj⟩⟩
    · rw [if_neg hs]
      simp only [Planner.recorded]
      obtain ⟨verdict, next, cancels⟩ := planner state (plannerSegment move segment)
      cases verdict with
      | error e =>
        have hr : ({ c with jog := c.jog.cancelTimes cancels } : Controller α).motors =
          motorsAfter motors before := hm
        exact ⟨_, _, _, _, _, rfl, offered_rejected hr _ e⟩
      | ok =>
        have ha := motorsAfter_append motors before (plannerSegment move segment)
        obtain ⟨result, after, last, record, count, hr, ho⟩ :=
          ih (before ++ [plannerSegment move segment])
            { c with jog := c.jog.cancelTimes cancels, motors := segment.motors } next ha.symm
        rw [List.length_append, allAccepted, List.map_append] at hr
        rw [List.append_assoc] at ho
        exact ⟨result, after, last, record, count, hr, ho⟩

/-- The planner has no part in a calculation. -/
def Planless (x : Outcome MotionError β) : Prop := ∀ i e, x ≠ refuse (.plannerRejected i e)

theorem planless_bind {x : Outcome MotionError β} {f : β → Outcome MotionError σ} (hx : Planless x)
    (hf : ∀ b, Planless (f b)) : Planless (x >>= f) := by
  intro i e h
  obtain h | ⟨b, -, h⟩ := Outcome.bind_eq_error.mp h
  · exact hx i e h
  · exact hf b i e h

theorem planless_pure (b : β) : Planless (pure b) := fun _ _ => nofun

theorem planless_lift (x : Checked β) : Planless x.lift := fun _ _ => Outcome.lift_ne_refused

theorem planless_kinematics (x : Outcome KinematicsError β) : Planless (x.mapReason .kinematics) := by
  intro i e h
  obtain ⟨_, _, he⟩ := Outcome.mapReason_eq_refused.mp h
  cases he

theorem planless_guard {p : Prop} [Decidable p] {reason : MotionError} {rest : Unit → Outcome MotionError β}
    (hr : ∀ i e, reason ≠ .plannerRejected i e) (hrest : Planless (rest ())) :
    Planless (if p then refuse reason >>= rest else rest ()) := by
  intro i e h
  split at h
  · cases h
    exact hr i e rfl
  · exact hrest i e h

theorem planless_lineSegments (c : Controller α) (move : Move α) : Planless (c.lineSegments move) := by
  rw [lineSegments]
  refine planless_bind (planless_lift _) fun current => planless_bind (planless_lift _) fun move => ?_
  refine planless_guard (fun _ _ => nofun) ?_
  exact planless_bind (planless_kinematics _) fun segments => planless_pure (move, segments)

theorem planless_chordSegments (c : Controller α) (move : Move α) (start : AxisPosition α)
    (points : List (AxisPosition α)) : Planless (c.chordSegments move start points) := by
  induction points generalizing start with
  | nil => exact planless_pure []
  | cons point points ih =>
    rw [chordSegments]
    refine planless_guard (fun _ _ => nofun) (planless_bind (planless_kinematics _) fun chord => ?_)
    exact planless_bind (ih point) fun rest => planless_pure (chord ++ rest)

theorem planless_arcSegments (c : Controller α) (move : Move α) (arc : Arc α) :
    Planless (c.arcSegments move arc) := by
  refine planless_bind (planless_lift _) fun current => ?_
  refine planless_guard (fun _ _ => nofun) (planless_guard (fun _ _ => nofun) ?_)
  refine planless_bind (planless_lift _) fun leaves => planless_guard (fun _ _ => nofun) ?_
  exact planless_bind (planless_lift _) fun points => planless_chordSegments c move current points

theorem planless_motorSegments (c : Controller α) (command : MotionCommand α) :
    Planless (c.motorSegments command) := by
  cases command with
  | line move => exact planless_lineSegments c move
  | arc move arc => exact planless_bind (planless_arcSegments c move arc) fun _ => planless_pure _

theorem motors_ticket (c : Controller α) (move : Move α) : (c.ticket move).2.motors = c.motors := by
  rw [ticket]
  split <;> rfl

/-- A jog is not superseded by its own start. -/
theorem ticket_isCurrent (c : Controller α) (move : Move α) :
    (c.ticket move).1.any (fun ticket => !(c.ticket move).2.jog.isCurrent ticket) = false := by
  rw [ticket]
  split <;> simp [JogCounter.begin, JogCounter.isCurrent]

theorem motors_begun (c : Controller α) (command : MotionCommand α) : (c.begun command).motors = c.motors := by
  cases command with
  | line move => exact motors_ticket c move
  | arc move arc => rfl

theorem commandTicket_isCurrent (c : Controller α) (command : MotionCommand α) :
    (c.commandTicket command).any (fun ticket => !(c.begun command).jog.isCurrent ticket) = false := by
  cases command with
  | line move => exact ticket_isCurrent c move
  | arc move arc => rfl

theorem unrecorded_perform (c : Controller α) (planner : Planner α σ) (state : σ) (command : MotionCommand α) :
    (c.perform planner.recorded (state, []) command).unrecorded = c.perform planner state command := by
  rw [perform_eq, perform_eq]
  cases c.motorSegments command with
  | error e => rfl
  | ok line => exact unrecorded_offer ..

theorem perform_of_prepare_eq_error {command : MotionCommand α} {e : Failure MotionError}
    (h : c.prepare command = .error e) (planner : Planner α σ) (state : σ) :
    (c.perform planner state command).result = .error e := by
  rw [prepare_eq] at h
  obtain hs | ⟨line, -, ⟨⟩⟩ := Outcome.bind_eq_error.mp h
  rw [perform_eq, hs]

/-- A planner is offered a beginning of the segments of a command. -/
theorem recorded_offered (c : Controller α) (planner : Planner α σ) (state : σ) (command : MotionCommand α) :
    ∃ result after last record count,
      c.perform planner.recorded (state, []) command = ⟨result, after, (last, record)⟩ ∧
      Offered c.motors (c.commandTicket command) (c.planned command) record result after count := by
  have hm := c.motors_begun command
  have hp := c.planless_motorSegments command
  rw [planned, prepare_eq, perform_eq]
  cases hs : c.motorSegments command with
  | error e =>
    rw [hs] at hp
    exact ⟨_, _, _, _, 0, rfl, offered_failed hm fun i reason he => hp i reason (congrArg _ he)⟩
  | ok line => exact offer_offered planner line.1 (c.commandTicket command) c.motors [] line.2 _ state hm

/-- Every command has a list of segments that no planner has a part in, or a reason why there is none. Any
planner is offered a beginning of the list. -/
theorem perform_offered (c : Controller α) (planner : Planner α σ) (state : σ) (command : MotionCommand α) :
    ∃ result after last record count,
      c.perform planner.recorded (state, []) command = ⟨result, after, (last, record)⟩ ∧
      c.perform planner state command = ⟨result, after, last⟩ ∧
      (∀ e, c.prepare command = .error e → result = .error e) ∧
      Offered c.motors (c.commandTicket command) (c.planned command) record result after count := by
  obtain ⟨result, after, last, record, count, hr, ho⟩ := c.recorded_offered planner state command
  have hp : c.perform planner state command = ⟨result, after, last⟩ := by
    rw [← unrecorded_perform, hr]
    rfl
  refine ⟨result, after, last, record, count, hr, hp, ?_, ho⟩
  intro e he
  rw [← perform_of_prepare_eq_error he planner state, hp]

end Controller

end MotionControl
