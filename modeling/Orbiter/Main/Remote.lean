import Orbiter.Cxx.Strings

/-!
# The remote control and the target position

The globals of `main.cpp` that the infrared keys share with the network movements:
the angle, the target position and the digit buffer.  A tick looks for key names in
the code line it got and acts when the key has changed.
-/

namespace Orbiter.Main

open Cxx

/-- The keys, under the names of `eTasten`; no key is `none`. -/
inductive Taste
  | key1 | key2 | key3 | key4 | key5 | key6 | key7 | key8 | key9 | key0
  | play | stop | next | back | prev | sub10
  | keyVolumeup | keyVolumedown | keyForward | keyBackward | check
  deriving DecidableEq

/-- What the program tells the motor, and where it writes into the digit buffer. -/
inductive MotorCall
  | setSpeed (speed : ℚ)
  | move (targetPosition : Int)
  | halt
  | cNumb (index : Nat)
  deriving DecidableEq

structure Remote where
  iTargetPosition : Int
  iNumbOffs : Nat
  iAngle : Int
  cNumb : List Nat
  cTaste : Option Taste
  oldCTaste : Option Taste
  szTxt2 : Str
  calls : List MotorCall

def wheelperi : ℚ := 0.029 * 3.1415
def railperi : ℚ := 2.2 * 3.1415

/-- The searches, in the order of the source; the last one that is found wins. -/
def keyNames : List (Str × Option Taste) :=
  [("KEY_PLAY".toList, some .play), ("check".toList, some .check), ("KEY_STOP".toList, some .stop),
    ("KEY_PREVIOUS".toList, some .prev), ("KEY_NEXT".toList, some .next),
    ("KEY_1".toList, some .key1), ("KEY_2".toList, some .key2), ("KEY_3".toList, some .key3),
    ("KEY_4".toList, some .key4), ("KEY_5".toList, some .key5), ("KEY_6".toList, some .key6),
    ("KEY_7".toList, some .key7), ("KEY_8".toList, some .key8), ("KEY_9".toList, some .key9),
    ("KEY_0".toList, some .key0), (">10".toList, some .sub10),
    ("KEY_VOLUMEUP".toList, some .keyVolumeup), ("KEY_VOLUMEDOWN".toList, some .keyVolumedown),
    ("KEY_BACK".toList, some .keyBackward), ("KEY_FORWARD".toList, some .keyForward),
    ("xx".toList, none)]

def Taste.digit : Taste → Option Nat
  | .key1 => some 1
  | .key2 => some 2
  | .key3 => some 3
  | .key4 => some 4
  | .key5 => some 5
  | .key6 => some 6
  | .key7 => some 7
  | .key8 => some 8
  | .key9 => some 9
  | .key0 => some 0
  | _ => none

namespace Remote

variable (r : Remote)

def init : Remote := ⟨0, 0, 0, [0, 0, 0], none, none, [], []⟩

def log (cs : List MotorCall) : Remote := { r with calls := r.calls ++ cs }

def calcTargetPosition : Remote :=
  { r with
    iTargetPosition := truncate (65536 * r.iAngle / 360 * railperi / wheelperi)
    iNumbOffs := if r.iNumbOffs < 2 then r.iNumbOffs + 1 else 0 }

/-- `cNumb[index] = value`; behind the buffer nothing of the model changes. -/
def setCNumb (index value : Nat) : Remote :=
  { r with cNumb := r.cNumb.set index value, calls := r.calls ++ [.cNumb index] }

/-- The loop of the PLAY and STOP keys, whose last index is 3. -/
def clearCNumb : Remote :=
  (((r.setCNumb 0 0).setCNumb 1 0).setCNumb 2 0).setCNumb 3 0

/-- What a key does when it was not down in the tick before. -/
def act (key : Taste) : Remote :=
  match key with
  | .play => { (r.log [.move r.iTargetPosition]).clearCNumb with iNumbOffs := 0 }
  | .stop => (r.log [.halt]).clearCNumb
  | .prev => { r with iAngle := r.iAngle - 15 }.calcTargetPosition
  | .next => { r with iAngle := r.iAngle + 15 }.calcTargetPosition
  | .sub10 => { r with iTargetPosition := r.iTargetPosition + 100000 }
  | key =>
    match key.digit with
    | some digit => (r.setCNumb r.iNumbOffs digit).calcTargetPosition
    | none => r

def recognise (s : Str) : Option Taste :=
  keyNames.foldl (fun cTaste name => if contains s name.1 then name.2 else cTaste) r.cTaste

/-- The infrared part of `TimerFunc`, with its debouncing. -/
def processInfrared (s : Str) : Remote :=
  let r := { r with szTxt2 := s, cTaste := r.recognise s }
  if r.oldCTaste ≠ r.cTaste then
    { r.cTaste.elim r r.act with oldCTaste := r.cTaste }
  else r

end Remote

end Orbiter.Main
