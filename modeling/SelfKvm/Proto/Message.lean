/-
  The protocol's data: key codes and messages (`kvm-proto/src/keys.rs`, `message.rs`).

  Machine integers keep the widths of the source (`i16` is `Int16`, `u32` is `UInt32`, and so on),
  so every value of `Message` is one the program can build, and a `match` on it meets exactly the
  variants the program meets.  A `Vec<u8>` is a `List UInt8`.
-/

namespace SelfKvm

/-! ## Keys -/

/-- Virtual key: what the press produces.  May differ between a press and its release. -/
abbrev KeyId := UInt16
/-- Physical key: what a receiver must track held keys by. -/
abbrev KeyButton := UInt16
/-- Modifier bits active at the moment of the event. -/
abbrev KeyModifierMask := UInt16

namespace Modifier

def shift : KeyModifierMask := 0x0001
def control : KeyModifierMask := 0x0002
def alt : KeyModifierMask := 0x0004
def «meta» : KeyModifierMask := 0x0008
def super : KeyModifierMask := 0x0010
def altGr : KeyModifierMask := 0x0020

end Modifier

namespace Key

def backspace : KeyId := 0xEF08
def tab : KeyId := 0xEF09
def «return» : KeyId := 0xEF0D
def escape : KeyId := 0xEF1B
def delete : KeyId := 0xEFFF
def home : KeyId := 0xEF50
def left : KeyId := 0xEF51
def up : KeyId := 0xEF52
def right : KeyId := 0xEF53
def down : KeyId := 0xEF54
def pageUp : KeyId := 0xEF55
def pageDown : KeyId := 0xEF56
def «end» : KeyId := 0xEF57
def insert : KeyId := 0xEF63
def f1 : KeyId := 0xEFBE

/-- The function keys are contiguous; `n` counts from 1. -/
def f (n : UInt8) : KeyId := f1 + n.toUInt16 - 1

def capsLock : KeyId := 0xEFE5
def shiftL : KeyId := 0xEFE1
def shiftR : KeyId := 0xEFE2
def controlL : KeyId := 0xEFE3
def controlR : KeyId := 0xEFE4
def metaL : KeyId := 0xEFE7
def metaR : KeyId := 0xEFE8
def altL : KeyId := 0xEFE9
def altR : KeyId := 0xEFEA
def superL : KeyId := 0xEFEB
def superR : KeyId := 0xEFEC

end Key

/-! ## Messages -/

/-- A single protocol message. -/
inductive Message where
  /-- Server greeting. -/
  | hello (major minor : Int16)
  /-- Client reply to the greeting. -/
  | helloBack (major minor : Int16) (name : String)
  /-- Server asks the client for its screen geometry. -/
  | queryInfo
  /-- Client screen geometry: origin, size, warp zone, current cursor. -/
  | deviceInfo (x y w h warp mx my : Int16)
  /-- Server acknowledges `deviceInfo`; until then the client ignores moves. -/
  | infoAck
  | resetOptions
  /-- Options as `(id, value)` pairs flattened into one vector. -/
  | setOptions (opts : List Int32)
  | keepAlive
  | noOp
  | close
  | screenSaver (on : Bool)
  /-- The cursor entered this client's screen at `(x, y)`. -/
  | enter (x y : Int16) (seq : UInt32) (modifiers : KeyModifierMask)
  /-- The cursor left this client's screen. -/
  | leave
  | keyDown (id : KeyId) (mask : KeyModifierMask) (button : KeyButton)
  | keyUp (id : KeyId) (mask : KeyModifierMask) (button : KeyButton)
  | keyRepeat (id : KeyId) (mask : KeyModifierMask) (count : UInt16) (button : KeyButton)
  | mouseDown (button : Int8)
  | mouseUp (button : Int8)
  /-- Absolute move in the client's screen coordinates. -/
  | mouseMove (x y : Int16)
  | mouseRelMove (dx dy : Int16)
  | mouseWheel (x y : Int16)
  | clipboardGrab (id : Int8) (seq : UInt32)
  | clipboardData (id : Int8) (seq : UInt32) (mark : Int8) (data : List UInt8)
  /-- Announces a file; `name` is untrusted, `size` is the total byte length. -/
  | fileOffer (id : UInt32) (name : String) (size : UInt64)
  /-- One ordered chunk; `seq` is its 0-based index. -/
  | fileChunk (id seq : UInt32) (data : List UInt8)
  /-- The file is complete; `count` is the number of chunks sent. -/
  | fileEnd (id count : UInt32)
  | fileAccept (id : UInt32) (accept : Bool)
  | errIncompatible (major minor : Int16)
  | errBusy
  | errUnknown
  | errBad
  deriving DecidableEq, Repr

namespace Message

/-- Input-forwarding messages, which only flow while the cursor is on a remote screen. -/
def isInput : Message → Bool
  | keyDown .. => true
  | keyUp .. => true
  | keyRepeat .. => true
  | mouseDown .. => true
  | mouseUp .. => true
  | mouseMove .. => true
  | mouseRelMove .. => true
  | mouseWheel .. => true
  | _ => false

end Message

def protocolMajor : Int16 := 1
def protocolMinor : Int16 := 9

end SelfKvm
