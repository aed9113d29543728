/-
  Normalised input (`kvm-core/src/events.rs`): what is captured on the server's machine, and what
  an injection backend performs on a client's.
-/
import SelfKvm.Proto.Message

namespace SelfKvm

/-- What happened to a key. -/
inductive KeyAction where
  | down
  | up
  /-- Auto-repeat with a repeat count. -/
  | autoRepeat (count : UInt16)
  deriving DecidableEq, Repr

/-- An input event observed on the server's machine. -/
inductive LocalEvent where
  | motionAbs (x y : Int32)
  | motionRel (dx dy : Int32)
  | button (button : Int8) (pressed : Bool)
  | key (id : KeyId) (mask : KeyModifierMask) (button : KeyButton) (action : KeyAction)
  | wheel (x y : Int16)
  deriving DecidableEq, Repr

/-- A concrete action for an injection backend. -/
inductive InputCommand where
  | mouseMoveAbs (x y : Int32)
  | mouseMoveRel (dx dy : Int32)
  | mouseButton (button : Int8) (pressed : Bool)
  | mouseWheel (x y : Int16)
  | key (id : KeyId) (mask : KeyModifierMask) (button : KeyButton) (action : KeyAction)
  deriving DecidableEq, Repr

end SelfKvm
