import MotionControl.Kinematics.Model
import MotionControl.Machine.Description

/-! The rotary delta. Three cranks swing on the sides of the base triangle, and arms join their
tips to the effector, which works below the base. Channels hold crank angles, from horizontal
and positive downward. The crank of the first arm swings in the YZ plane on the negative side,
the others are a third of a turn away. -/
namespace MotionControl.RotaryDelta
open Scalar
variable {α : Type} [Scalar α]

def armCount : Nat := 3

def armAxes : AxisMask := .all armCount

def sqrt3 : α := sqrt 3.0
def tan30 : α := 1.0 / sqrt3
def tan60 : α := sqrt3
def sin30 : α := 0.5
def sin120 : α := sqrt3 / 2.0
def cos120 : α := -0.5

/-- Bisections of a jog that leaves the workspace. -/
def jogBisections : Nat := 64

/-- Points of an arc that are checked in every quarter turn. -/
def samplesPerQuadrant : Nat := 16

/-- Round-off forgiven at the ends of the crank angle range. -/
def angleTolerance : α := 1e-6

/-- The seek of a homing cycle as a multiple of the crank angle range. -/
def seekScaler : α := 1.1

/-- An upper bound on the distance of the effector from the axis of the machine. -/
def maxReach (g : DeltaSettings α) : α :=
  (g.baseTriangle - g.effectorTriangle) * tan30 / 2.0 + g.crank + g.arm

/-- The angle of the crank in the YZ plane, if its arm reaches the effector. Of the two elbows
that fit, the outward one is taken. -/
def crankAngle (g : DeltaSettings α) (x0 y0 z0 : α) : Option α :=
  let rf := g.crank
  let re := g.arm
  let y1 := -0.5 * tan30 * g.baseTriangle
  let y0 := y0 - 0.5 * tan30 * g.effectorTriangle
  let a := (x0 * x0 + y0 * y0 + z0 * z0 + rf * rf - re * re - y1 * y1) / (2.0 * z0)
  let b := (y1 - y0) / z0
  let d := -(a + b * y1) * (a + b * y1) + rf * (b * b * rf + rf)
  if d < 0.0 then none
  else
    let yj := (y1 - a * b - sqrt d) / (b * b + 1.0)
    let zj := a + b * yj
    let theta := slopeAngle (-zj) (y1 - yj) + if y1 < yj then pi else 0.0
    if isFinite theta then some theta else none

/-- A point below the base. -/
structure Point (α : Type) where
  x : α
  y : α
  z : α

/-- The tip of each crank, shifted by the effector so that the arms end in its center. -/
def crankTips (g : DeltaSettings α) (theta1 theta2 theta3 : α) : Point α × Point α × Point α :=
  let rf := g.crank
  let t := (g.baseTriangle - g.effectorTriangle) * tan30 / 2.0
  let y1 := -(t + rf * cos theta1)
  let z1 := -rf * sin theta1
  let y2 := (t + rf * cos theta2) * sin30
  let x2 := y2 * tan60
  let z2 := -rf * sin theta2
  let y3 := (t + rf * cos theta3) * sin30
  let x3 := -y3 * tan60
  let z3 := -rf * sin theta3
  (⟨0.0, y1, z1⟩, ⟨x2, y2, z2⟩, ⟨x3, y3, z3⟩)

/-- The effector position of three crank angles, the lower point at arm length from the tips,
and whether there is such a point. -/
def effectorPosition (g : DeltaSettings α) (theta1 theta2 theta3 : α) : Point α × Bool :=
  let re := g.arm
  let (⟨_, y1, z1⟩, ⟨x2, y2, z2⟩, ⟨x3, y3, z3⟩) := crankTips g theta1 theta2 theta3
  let dnm := (y2 - y1) * x3 - (y3 - y1) * x2
  if Scalar.abs dnm < epsilon then (⟨0.0, 0.0, z1⟩, false)
  else
    let w1 := y1 * y1 + z1 * z1
    let w2 := x2 * x2 + y2 * y2 + z2 * z2
    let w3 := x3 * x3 + y3 * y3 + z3 * z3
    let a1 := (z2 - z1) * (y3 - y1) - (z3 - z1) * (y2 - y1)
    let b1 := -((w2 - w1) * (y3 - y1) - (w3 - w1) * (y2 - y1)) / 2.0
    let a2 := -(z2 - z1) * x3 + (z3 - z1) * x2
    let b2 := ((w2 - w1) * x3 - (w3 - w1) * x2) / 2.0
    let a := a1 * a1 + a2 * a2 + dnm * dnm
    let b := 2.0 * (a1 * b1 + a2 * (b2 - y1 * dnm) - z1 * dnm * dnm)
    let c := (b2 - y1 * dnm) * (b2 - y1 * dnm) + b1 * b1 + dnm * dnm * (z1 * z1 - re * re)
    let d := b * b - 4.0 * a * c
    let z0 := -0.5 * (b + sqrt (larger d 0.0)) / a
    (⟨(a1 * z0 + b1) / dnm, (a2 * z0 + b2) / dnm, z0⟩, decide (0.0 ≤ d))

/-- Lengths are positive, the crank is shorter than the arm, the angle range is not empty and
holds the homing angle, and the arms meet with all cranks horizontal. -/
def validate (g : DeltaSettings α) (layout : AxisLayout) : Except ConfigurationError Unit := do
  if layout.axisCount < armCount then
    throw (.tooFewAxes "parallel_delta" armCount layout.axisCount)
  [("crank_mm", g.crank), ("base_triangle_mm", g.baseTriangle), ("arm_mm", g.arm),
    ("effector_triangle_mm", g.effectorTriangle)].forM fun (param, value) =>
      if isPositive value then pure () else throw (.invalidGeometry param "must be > 0")
  if g.arm ≤ g.crank then
    throw (.invalidGeometry "crank_mm" "must be shorter than arm_mm")
  if ¬ (-pi < g.minAngle ∧ g.maxAngle < pi ∧ g.minAngle < g.maxAngle) then
    throw (.invalidGeometry "max_negative_angle_rad"
      "angle range must be non-empty and within ±π")
  if ¬ (g.minAngle ≤ g.homingAngle ∧ g.homingAngle ≤ g.maxAngle) then
    throw (.invalidGeometry "homing_angle_rad" "must lie within the crank angle range")
  if !(effectorPosition g 0.0 0.0 0.0).2 then
    throw (.invalidGeometry "arm_mm" "arms cannot meet the effector with horizontal cranks")

def infeasible (target : AxisPosition α) (reason : String) :
    Outcome KinematicsError (MotorPosition α) :=
  refuse (.infeasible "parallel_delta" target.text reason)

/-- The angle of one crank for a target, brought into its range from within the tolerance. -/
def armAngle (g : DeltaSettings α) (target : AxisPosition α) (arm : Nat) (x y z : α) :
    Outcome KinematicsError α :=
  match crankAngle g x y z with
  | none => refuse (.infeasible "parallel_delta" target.text s!"arm {arm} out of reach")
  | some theta =>
    if theta < g.minAngle - angleTolerance ∨ g.maxAngle + angleTolerance < theta then
      refuse (.infeasible "parallel_delta" target.text
        s!"arm {arm} angle {fixed 4 theta} outside [{text g.minAngle}, {text g.maxAngle}]")
    else Checked.lift (Coordinates.clamp g.minAngle g.maxAngle theta)

def inverse (g : DeltaSettings α) (target : AxisPosition α) :
    Outcome KinematicsError (MotorPosition α) :=
  match target.values with
  | x :: y :: z :: rest =>
    if Scalar.abs z < 1e-9 then refuse (.singularity "parallel_delta" target.text)
    else if 0.0 < z then infeasible target "above the base plane"
    else do
      let theta1 ← armAngle g target 1 x y z
      let theta2 ← armAngle g target 2 (x * cos120 + y * sin120) (y * cos120 - x * sin120) z
      let theta3 ← armAngle g target 3 (x * cos120 - y * sin120) (y * cos120 + x * sin120) z
      return ⟨theta1 :: theta2 :: theta3 :: rest⟩
  | _ => refuse (.axisCountMismatch armCount target.length)

def forward (g : DeltaSettings α) (motors : MotorPosition α) (axisCount : Nat) :
    Checked (AxisPosition α) :=
  let values := match Coordinates.resize motors.values (max axisCount armCount) with
    | theta1 :: theta2 :: theta3 :: rest =>
      let p := (effectorPosition g theta1 theta2 theta3).1
      p.x :: p.y :: p.z :: rest
    | values => values
  AxisPosition.new (values.take axisCount)

/-- Outside the half-space below the base or the cylinder of the reach. -/
def invalidLine (g : DeltaSettings α) (target : AxisPosition α) : Bool :=
  match target.values with
  | x :: y :: z :: _ => decide (0.0 ≤ z) || decide (maxReach g < hypot x y)
  | _ => true

/-- Whether the effector can be at a position. -/
def reachable (g : DeltaSettings α) (p : AxisPosition α) : Checked Bool :=
  if invalidLine g p then .ok false
  else match inverse g p with
    | .ok _ => .ok true
    | .error (.refused _) => .ok false
    | .error (.fault fault) => .error fault

/-- The last reachable part of a jog, between a reachable part and one that is not. -/
def bisect (g : DeltaSettings α) (current target : AxisPosition α) : Nat → α → α → Checked α
  | 0, low, _ => .ok low
  | steps + 1, low, high => do
    let middle := 0.5 * (low + high)
    if ← reachable g (current.lerp target middle) then bisect g current target steps middle high
    else bisect g current target steps low middle

/-- A jog that leaves the workspace is cut at its boundary, unless it starts outside. -/
def constrainJog (g : DeltaSettings α) (move : Move α) (current : AxisPosition α) :
    Checked (Move α) := do
  if ← reachable g move.target then return move
  if !(← reachable g current) then return move
  let part ← bisect g current move.target jogBisections 0.0 1.0
  return { move with target := current.lerp move.target part }

/-- Whether an arc has a degenerate radius or a checked point out of reach. -/
def invalidArc (g : DeltaSettings α) (start target : AxisPosition α) (arc : Arc α) :
    Checked Bool := do
  if !isPositive arc.radius then return true
  let sweep := arc.sweep start target
  let quadrants := max 1 (ceilNat (Scalar.abs sweep / (pi / 2.0)))
  let samples := quadrants * samplesPerQuadrant
  (List.range samples).anyM fun i => do
    let point ← arc.pointAt start target sweep (ofNat (i + 1) / ofNat samples)
    return !(← reachable g point)

/-- The cranks settle together: none of their axes is satisfied before all are. -/
def limitReached (axes : AxisMask) (motors limited : MotorMask) : LimitOutcome :=
  let outcome := LimitOutcome.requireAll axes motors limited
  if outcome.axes.intersects armAxes then
    let pending := outcome.axes ||| (axes &&& armAxes)
    ⟨pending, outcome.motors, axes - pending, false⟩
  else outcome

/-- Cranks are homed upward, all of them or none. -/
def homingApproach (g : DeltaSettings α) (axes : AxisMask) (directions : AxisPosition α) :
    MotorPosition α :=
  let seek := (g.maxAngle - g.minAngle) * seekScaler
  let crank := if axes.intersects armAxes then -seek else 0.0
  ⟨directions.values.mapIdx fun channel value => if channel < armCount then crank else value⟩

/-- Homed cranks stand at the homing angle, other homed channels at their home position. -/
def homedPosition (g : DeltaSettings α) (axes : AxisMask) (current : MotorPosition α)
    (home : AxisPosition α) : MotorPosition α :=
  ⟨current.values.mapIdx fun axis value =>
    if axis < maxAxes && axes.contains axis then
      if axis < armCount then g.homingAngle else home.axis axis
    else value⟩

def canHome (axes : AxisMask) : Bool :=
  (axes &&& armAxes).isEmpty || axes &&& armAxes == armAxes

def kinematics (g : DeltaSettings α) : Kinematics α where
  name := "parallel_delta"
  validate := validate g
  inverse := inverse g
  forward := forward g
  constrainJog := constrainJog g
  invalidLine := invalidLine g
  invalidArc := invalidArc g
  canHome := canHome
  limitReached := limitReached
  homingApproach axes directions := .ok (homingApproach g axes directions)
  homedPosition axes current home := .ok (homedPosition g axes current home)

end MotionControl.RotaryDelta
