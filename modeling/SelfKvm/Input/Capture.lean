/-
  The capture layer (`kvm-input/src/rdev_backend.rs`): what it reports of keys, buttons and the wheel.

  Every press and every release of a key is reported by itself, with an empty modifier mask; whoever
  wants to know which modifiers are down has to add them up.  Keys the table does not name are not
  reported at all.
-/
import SelfKvm.Core.Events

namespace SelfKvm

/-- The physical keys; `other` stands for every key that the table below does not name. -/
inductive RKey where
  | keyA | keyB | keyC | keyD | keyE | keyF | keyG | keyH | keyI | keyJ | keyK | keyL | keyM
  | keyN | keyO | keyP | keyQ | keyR | keyS | keyT | keyU | keyV | keyW | keyX | keyY | keyZ
  | num0 | num1 | num2 | num3 | num4 | num5 | num6 | num7 | num8 | num9
  | space | «return» | tab | backspace | escape | delete | insert | home | «end» | pageUp
  | pageDown
  | upArrow | downArrow | leftArrow | rightArrow
  | shiftLeft | shiftRight | controlLeft | controlRight | alt | altGr | metaLeft | metaRight
  | capsLock
  | f1 | f2 | f3 | f4 | f5 | f6 | f7 | f8 | f9 | f10 | f11 | f12
  | minus | equal | leftBracket | rightBracket | semiColon | quote | backSlash | comma | dot
  | slash | backQuote
  | other (code : Nat)
  deriving DecidableEq, Repr

inductive RButton where
  | left
  | middle
  | right
  | unknown (n : UInt8)
  deriving DecidableEq, Repr

/-- What the grab reports, mouse moves apart. -/
inductive EventType where
  | keyPress (k : RKey)
  | keyRelease (k : RKey)
  | buttonPress (b : RButton)
  | buttonRelease (b : RButton)
  | wheel (deltaX deltaY : Int64)
  deriving DecidableEq, Repr

/-- The code point of an ASCII character as a key id. -/
def asciiKey (c : Char) : KeyId := UInt16.ofNat c.toNat

/-- The protocol's id of a physical key.  Letters and digits have their unshifted code point: the
    shift arrives as a key of its own. -/
def mapKey : RKey → Option KeyId
  | .keyA => some (asciiKey 'a')
  | .keyB => some (asciiKey 'b')
  | .keyC => some (asciiKey 'c')
  | .keyD => some (asciiKey 'd')
  | .keyE => some (asciiKey 'e')
  | .keyF => some (asciiKey 'f')
  | .keyG => some (asciiKey 'g')
  | .keyH => some (asciiKey 'h')
  | .keyI => some (asciiKey 'i')
  | .keyJ => some (asciiKey 'j')
  | .keyK => some (asciiKey 'k')
  | .keyL => some (asciiKey 'l')
  | .keyM => some (asciiKey 'm')
  | .keyN => some (asciiKey 'n')
  | .keyO => some (asciiKey 'o')
  | .keyP => some (asciiKey 'p')
  | .keyQ => some (asciiKey 'q')
  | .keyR => some (asciiKey 'r')
  | .keyS => some (asciiKey 's')
  | .keyT => some (asciiKey 't')
  | .keyU => some (asciiKey 'u')
  | .keyV => some (asciiKey 'v')
  | .keyW => some (asciiKey 'w')
  | .keyX => some (asciiKey 'x')
  | .keyY => some (asciiKey 'y')
  | .keyZ => some (asciiKey 'z')
  | .num0 => some (asciiKey '0')
  | .num1 => some (asciiKey '1')
  | .num2 => some (asciiKey '2')
  | .num3 => some (asciiKey '3')
  | .num4 => some (asciiKey '4')
  | .num5 => some (asciiKey '5')
  | .num6 => some (asciiKey '6')
  | .num7 => some (asciiKey '7')
  | .num8 => some (asciiKey '8')
  | .num9 => some (asciiKey '9')
  | .space => some (asciiKey ' ')
  | .«return» => some Key.«return»
  | .tab => some Key.tab
  | .backspace => some Key.backspace
  | .escape => some Key.escape
  | .delete => some Key.delete
  | .insert => some Key.insert
  | .home => some Key.home
  | .«end» => some Key.«end»
  | .pageUp => some Key.pageUp
  | .pageDown => some Key.pageDown
  | .upArrow => some Key.up
  | .downArrow => some Key.down
  | .leftArrow => some Key.left
  | .rightArrow => some Key.right
  | .shiftLeft => some Key.shiftL
  | .shiftRight => some Key.shiftR
  | .controlLeft => some Key.controlL
  | .controlRight => some Key.controlR
  | .alt => some Key.altL
  | .altGr => some Key.altR
  | .metaLeft => some Key.superL
  | .metaRight => some Key.superR
  | .capsLock => some Key.capsLock
  | .f1 => some (Key.f 1)
  | .f2 => some (Key.f 2)
  | .f3 => some (Key.f 3)
  | .f4 => some (Key.f 4)
  | .f5 => some (Key.f 5)
  | .f6 => some (Key.f 6)
  | .f7 => some (Key.f 7)
  | .f8 => some (Key.f 8)
  | .f9 => some (Key.f 9)
  | .f10 => some (Key.f 10)
  | .f11 => some (Key.f 11)
  | .f12 => some (Key.f 12)
  | .minus => some (asciiKey '-')
  | .equal => some (asciiKey '=')
  | .leftBracket => some (asciiKey '[')
  | .rightBracket => some (asciiKey ']')
  | .semiColon => some (asciiKey ';')
  | .quote => some 39
  | .backSlash => some 92
  | .comma => some (asciiKey ',')
  | .dot => some (asciiKey '.')
  | .slash => some (asciiKey '/')
  | .backQuote => some 96
  | .other _ => none

def mapButton : RButton → Int8
  | .left => 1
  | .middle => 2
  | .right => 3
  | .unknown n => n.toInt8

/-- What is reported of an event, if anything. -/
def translate : EventType → Option LocalEvent
  | .buttonPress b => some (.button (mapButton b) true)
  | .buttonRelease b => some (.button (mapButton b) false)
  | .wheel deltaX deltaY => some (.wheel deltaX.toInt16 deltaY.toInt16)
  | .keyPress k => (mapKey k).map fun id => .key id 0 id .down
  | .keyRelease k => (mapKey k).map fun id => .key id 0 id .up

end SelfKvm
