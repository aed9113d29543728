/-
  The client-side state machine (`kvm-core/src/client.rs`).

  `ClientMachine` takes the server's messages and answers with input commands for the injection
  backend and replies.  The table of its answers is `handle`; everything but the warp of an `Enter`
  goes through `inject_if_active`, gated by the bits `entered` and `acked`.
-/
import SelfKvm.Core.Events
import SelfKvm.Core.Layout

namespace SelfKvm

inductive DisconnectReason where
  | serverClosed
  | incompatibleVersion (major minor : Int16)
  | nameInUse
  | unknownToServer
  | protocolViolation
  deriving DecidableEq, Repr

inductive ClientAction where
  /-- Inject this command on the local machine. -/
  | inject (cmd : InputCommand)
  /-- Send this message back to the server. -/
  | reply (msg : Message)
  | connected
  /-- The cursor entered this screen. -/
  | entered
  /-- The cursor left this screen. -/
  | left
  | disconnect (reason : DisconnectReason)
  deriving DecidableEq, Repr

def ClientAction.said : ClientAction → Option Message
  | .reply msg => some msg
  | _ => none

structure ClientMachine where
  name : String
  screen : ScreenSize
  /-- True once the server has acknowledged the geometry; until then moves are dropped. -/
  acked : Bool
  /-- True while the cursor is on this screen. -/
  entered : Bool
  /-- Sequence number of the most recent `Enter`. -/
  lastSeq : UInt32
  deriving DecidableEq, Repr

namespace ClientMachine

def new (name : String) (screen : ScreenSize) : ClientMachine :=
  { name, screen, acked := false, entered := false, lastSeq := 0 }

def isEntered (c : ClientMachine) : Bool := c.entered

/-- Moves need an acknowledgement and an active screen, everything else only the latter. -/
def injectIfActive (c : ClientMachine) (cmd : InputCommand) : List ClientAction :=
  let gated := match cmd with
    | .mouseMoveAbs _ _ => true
    | .mouseMoveRel _ _ => true
    | _ => false
  if c.entered && (c.acked || !gated) then [.inject cmd] else []

/-- Drive the machine with one message from the server. -/
def handle (c : ClientMachine) : Message → ClientMachine × List ClientAction
  | .hello _ _ => (c, [.reply (.helloBack protocolMajor protocolMinor c.name)])
  | .queryInfo =>
    (c, [.reply (.deviceInfo 0 0 c.screen.w.toInt16 c.screen.h.toInt16 0
      (c.screen.w / 2).toInt16 (c.screen.h / 2).toInt16)])
  | .infoAck => ({ c with acked := true }, [.connected])
  | .resetOptions => (c, [])
  | .setOptions _ => (c, [])
  | .keepAlive => (c, [.reply .keepAlive])
  | .noOp => (c, [])
  | .enter x y seq _ =>
    ({ c with entered := true, lastSeq := seq },
      [.entered, .inject (.mouseMoveAbs x.toInt32 y.toInt32)])
  | .leave => ({ c with entered := false }, [.left])
  | .mouseMove x y => (c, c.injectIfActive (.mouseMoveAbs x.toInt32 y.toInt32))
  | .mouseRelMove dx dy => (c, c.injectIfActive (.mouseMoveRel dx.toInt32 dy.toInt32))
  | .mouseDown button => (c, c.injectIfActive (.mouseButton button true))
  | .mouseUp button => (c, c.injectIfActive (.mouseButton button false))
  | .mouseWheel x y => (c, c.injectIfActive (.mouseWheel x y))
  | .keyDown id mask button => (c, c.injectIfActive (.key id mask button .down))
  | .keyUp id mask button => (c, c.injectIfActive (.key id mask button .up))
  | .keyRepeat id mask count button =>
    (c, c.injectIfActive (.key id mask button (.autoRepeat count)))
  | .close => (c, [.disconnect .serverClosed])
  | .errIncompatible major minor => (c, [.disconnect (.incompatibleVersion major minor)])
  | .errBusy => (c, [.disconnect .nameInUse])
  | .errUnknown => (c, [.disconnect .unknownToServer])
  | .errBad => (c, [.disconnect .protocolViolation])
  | .helloBack .. => (c, [])
  | .deviceInfo .. => (c, [])
  | .screenSaver .. => (c, [])
  | .clipboardGrab .. => (c, [])
  | .clipboardData .. => (c, [])
  | .fileOffer .. => (c, [])
  | .fileChunk .. => (c, [])
  | .fileEnd .. => (c, [])
  | .fileAccept .. => (c, [])

/-- The commands among the actions, in order. -/
def injected (acts : List ClientAction) : List InputCommand :=
  acts.filterMap fun
    | .inject cmd => some cmd
    | _ => none

theorem injected_append (as bs : List ClientAction) :
    injected (as ++ bs) = injected as ++ injected bs := List.filterMap_append

/-- A client that has been acknowledged and not entered. -/
def acknowledged (name : String) (screen : ScreenSize) : ClientMachine :=
  ((new name screen).handle .infoAck).1

end ClientMachine

end SelfKvm
