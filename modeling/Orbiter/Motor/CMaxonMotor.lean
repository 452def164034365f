import Orbiter.Cxx.Strings
import Orbiter.Machine.Run

/-!
# `CMaxonMotor`

The motor controller of `cmaxonmotor.cpp`, over the `VCS_*` functions of the EPOS
library.  Every call is appended to `calls` together with its reply, and `Epos` decides
the replies: which calls fail, which handle is opened, what the out-parameters hold.

* `CMaxonMotor.switchDevice`: `EnableDevice` and `DisableDevice`.
* `CMaxonMotor.initializeDevice`: close, open again, set the parameters.
* `machine`: the operations in any order, from the constructor on.
-/

namespace Orbiter.Motor

open Cxx

/-- A `void*` that stands for an opened device, 0 for the null pointer. -/
abbrev KeyHandle := Nat

inductive Vcs
  | openDevice (deviceName protocolStackName interfaceName portName : String)
  | closeDevice (keyHandle : KeyHandle)
  | closeAllDevices
  | setProtocolStackSettings (keyHandle : KeyHandle) (baudrate timeout : Nat)
  | getFaultState (keyHandle : KeyHandle) (nodeID : Nat)
  | clearFault (keyHandle : KeyHandle) (nodeID : Nat)
  | getEnableState (keyHandle : KeyHandle) (nodeID : Nat)
  | setEnableState (keyHandle : KeyHandle) (nodeID : Nat)
  | setDisableState (keyHandle : KeyHandle) (nodeID : Nat)
  | resetPositionMarkerCounter (keyHandle : KeyHandle) (nodeID : Nat)
  | setMaxFollowingError (keyHandle : KeyHandle) (nodeID maxFollowingError : Nat)
  | getPositionProfile (keyHandle : KeyHandle) (nodeID : Nat)
  | setPositionProfile (keyHandle : KeyHandle)
      (nodeID profileVelocity profileAcceleration profileDeceleration : Nat)
  | getDcMotorParameter (keyHandle : KeyHandle) (nodeID : Nat)
  | setDcMotorParameter (keyHandle : KeyHandle)
      (nodeID nominalCurrent maxOutputCurrent thermalTimeConstant : Nat)
  | activateProfilePositionMode (keyHandle : KeyHandle) (nodeID : Nat)
  | getPositionIs (keyHandle : KeyHandle) (nodeID : Nat)
  | moveToPosition (keyHandle : KeyHandle) (nodeID : Nat) (targetPosition : Int)
      (absolute immediately : Bool)
  | haltPositionMovement (keyHandle : KeyHandle) (nodeID : Nat)
  | getMovementState (keyHandle : KeyHandle) (nodeID : Nat)
  | getNbOfDeviceError (keyHandle : KeyHandle) (nodeID : Nat)
  | getCurrentIs (keyHandle : KeyHandle) (nodeID : Nat)
  | getAnalogInput (keyHandle : KeyHandle) (nodeID inputNumber : Nat)
  deriving DecidableEq

/-- The profile velocity, acceleration and deceleration of a drive. -/
structure Profile where
  velocity : Nat
  acceleration : Nat
  deceleration : Nat
  deriving DecidableEq

/-- The result of a call, and what its out-parameters hold behind it: whatever they
held before when the call leaves them alone. -/
structure Reply where
  ok : Bool
  keyHandle : KeyHandle
  value : Int
  profile : Profile
  errorCode : Nat
  deriving DecidableEq

/-- The EPOS library behind one program: the reply to the next call. -/
abbrev Epos := List (Vcs × Reply) → Reply

/-- The members the methods use, and the calls so far. -/
structure CMaxonMotor where
  portName : String
  nodeID : Nat
  keyHandle : KeyHandle
  errorCode : Nat
  calls : List (Vcs × Reply)

/-- `CMaxonMotor(char*, unsigned short)`, which leaves `keyHandle` as it is. -/
def construct (keyHandle : KeyHandle) (portNamestr : String) (inputNodeId : Nat) : CMaxonMotor where
  portName := portNamestr
  nodeID := inputNodeId
  keyHandle := keyHandle
  errorCode := 0
  calls := []

namespace CMaxonMotor

variable (epos : Epos) (m : CMaxonMotor)

/-! ### Calls -/

def reply : Reply := epos m.calls

/-- A call, whose reply is `m.reply epos`. -/
def call (c : Vcs) : CMaxonMotor := { m with calls := m.calls ++ [(c, m.reply epos)] }

def callWithErrorCode (c : Vcs) : CMaxonMotor :=
  { m.call epos c with errorCode := (m.reply epos).errorCode }

/-! ### Opening and closing -/

/-- A fault is cleared if there is one.  The flag says that the state of the drive stays
unknown or faulty. -/
def clearFault : Bool × CMaxonMotor :=
  let fault := m.reply epos
  let m := m.call epos (.getFaultState m.keyHandle m.nodeID)
  if fault.ok then
    if fault.value = 0 then (false, m)
    else (!(m.reply epos).ok, m.call epos (.clearFault m.keyHandle m.nodeID))
  else (true, m)

/-- `EnableDevice` and `DisableDevice`: behind the fault check the drive is switched
unless it is as it should be. -/
def switchDevice (enable : Bool) (setState : Vcs) : CMaxonMotor :=
  let (failed, m) := m.clearFault epos
  if failed then m
  else
    let isEnabled := m.reply epos
    let m := m.call epos (.getEnableState m.keyHandle m.nodeID)
    if isEnabled.ok && decide (isEnabled.value ≠ 0) != enable then m.call epos setState else m

def enableDevice : CMaxonMotor :=
  m.switchDevice epos true (.setEnableState m.keyHandle m.nodeID)

def disableDevice : CMaxonMotor :=
  m.switchDevice epos false (.setDisableState m.keyHandle m.nodeID)

def closeDevice : CMaxonMotor :=
  let m := m.disableDevice epos
  let m := if m.keyHandle ≠ 0 then m.call epos (.closeDevice m.keyHandle) else m
  m.call epos .closeAllDevices

def openDevice : CMaxonMotor :=
  { m.call epos (.openDevice "EPOS2" "MAXON SERIAL V2" "USB" m.portName) with
    keyHandle := (m.reply epos).keyHandle }

/-- Neither a failed open nor a failed protocol setup ends the method. -/
def activateDevice : CMaxonMotor :=
  let m := m.openDevice epos
  let settings := m.reply epos
  let m := m.call epos (.setProtocolStackSettings m.keyHandle 1000000 500)
  let m := if settings.ok then m else m.closeDevice epos
  let m := m.enableDevice epos
  m.call epos (.resetPositionMarkerCounter m.keyHandle m.nodeID)

def setPosModeParameter : CMaxonMotor :=
  let m := m.callWithErrorCode epos (.setMaxFollowingError m.keyHandle m.nodeID 20000)
  let m := m.callWithErrorCode epos (.getPositionProfile m.keyHandle m.nodeID)
  let m := m.callWithErrorCode epos (.setPositionProfile m.keyHandle m.nodeID 10000 1000 2000)
  let m := m.callWithErrorCode epos (.getDcMotorParameter m.keyHandle m.nodeID)
  m.callWithErrorCode epos (.setDcMotorParameter m.keyHandle m.nodeID 1800 2000 40)

def initializeDevice : CMaxonMotor :=
  ((m.closeDevice epos).activateDevice epos).setPosModeParameter epos

/-! ### The drive in use -/

def reachedTarget : Bool × CMaxonMotor :=
  ((m.reply epos).value ≠ 0, m.call epos (.getMovementState m.keyHandle m.nodeID))

def getCurrentPosition : Int × CMaxonMotor :=
  ((m.reply epos).value, m.call epos (.getPositionIs m.keyHandle m.nodeID))

def move (targetPosition : Int) : CMaxonMotor :=
  let mode := m.reply epos
  let m := m.call epos (.activateProfilePositionMode m.keyHandle m.nodeID)
  let m := if mode.ok then
      (m.call epos (.getPositionIs m.keyHandle m.nodeID)).call epos
        (.moveToPosition m.keyHandle m.nodeID targetPosition false true)
    else m
  (m.getCurrentPosition epos).2

def halt : CMaxonMotor := m.call epos (.haltPositionMovement m.keyHandle m.nodeID)

def errorNbr : Int × CMaxonMotor :=
  ((m.reply epos).value, m.call epos (.getNbOfDeviceError m.keyHandle m.nodeID))

/-- The velocity is replaced in the profile read before.  The product is exact here, and a
negative one becomes 0, as the conversion of the ARM has it. -/
def setSpeed (speed : ℚ) : CMaxonMotor :=
  let profile := (m.reply epos).profile
  let m := m.callWithErrorCode epos (.getPositionProfile m.keyHandle m.nodeID)
  let m := m.callWithErrorCode epos (.setPositionProfile m.keyHandle m.nodeID
    (truncate (200 * speed)).toNat profile.acceleration profile.deceleration)
  m.call epos (.activateProfilePositionMode m.keyHandle m.nodeID)

def getSupply : (Int × Int) × CMaxonMotor :=
  let piCurrent := (m.reply epos).value
  let m := m.callWithErrorCode epos (.getCurrentIs m.keyHandle m.nodeID)
  (((m.reply epos).value, piCurrent),
    m.callWithErrorCode epos (.getAnalogInput m.keyHandle m.nodeID 1))

/-- `IdleFunc` of `main.cpp`: a drive with an error is initialised again. -/
def idleFunc : CMaxonMotor :=
  let m := (m.getCurrentPosition epos).2
  let (cErrorNbr, m) := m.errorNbr epos
  let m := if m.errorCode = 0x34000007 then m.initializeDevice epos else m
  if cErrorNbr ≠ 0 then m.initializeDevice epos else m

end CMaxonMotor

/-! ### Any sequence of operations -/

inductive Op
  | initializeDevice
  | setSpeed (speed : ℚ)
  | move (targetPosition : Int)
  | halt
  | reachedTarget
  | getCurrentPosition
  | errorNbr
  | getSupply
  | closeDevice
  deriving DecidableEq

def step (epos : Epos) (m : CMaxonMotor) : Op → CMaxonMotor
  | .initializeDevice => m.initializeDevice epos
  | .setSpeed speed => m.setSpeed epos speed
  | .move targetPosition => m.move epos targetPosition
  | .halt => m.halt epos
  | .reachedTarget => (m.reachedTarget epos).2
  | .getCurrentPosition => (m.getCurrentPosition epos).2
  | .errorNbr => (m.errorNbr epos).2
  | .getSupply => (m.getSupply epos).2
  | .closeDevice => m.closeDevice epos

def machine (epos : Epos) (m : CMaxonMotor) : Machine CMaxonMotor Op where
  init := m
  step := step epos

end Orbiter.Motor
