/-
  Messages on the console.

  A `Message` has a kind, which decides about the mark in front of it and its
  color. `Message.print` is the line that is printed, with or without colors.
-/
import ThemeProps.Text.Basic

namespace ThemeProps

/-- The kinds of messages. -/
inductive MessageKind where
  | header
  | info
  | detail
  | success
  | warning
  | error
deriving DecidableEq

namespace MessageKind

/-- The control sequence that selects a display mode of the terminal. -/
def displayMode (code : Text) : Text := '\x1b' :: '[' :: code ++ "m"

/-- The control sequences for the color of a kind. -/
def color : MessageKind → Text
  | header => displayMode "95" ++ displayMode "1"
  | info => displayMode "96"
  | detail => displayMode "2"
  | success => displayMode "92"
  | warning => displayMode "93"
  | error => displayMode "91"

/-- The mark in front of a message. -/
def mark : MessageKind → Text
  | success => "✓ "
  | warning => "⚠️  "
  | error => "❌ "
  | _ => []

end MessageKind

/-- A message. -/
structure Message where
  kind : MessageKind
  content : Text
deriving DecidableEq

namespace Message

/-- A warning. -/
def warn (content : Text) : Message := ⟨.warning, content⟩

/-- The line that is printed for a message. -/
def print (colors : Bool) (m : Message) : Text :=
  let plain := m.kind.mark ++ m.content
  (if colors then m.kind.color ++ plain ++ MessageKind.displayMode "0" else plain) ++ "\n"

/-- The lines that are printed for some messages. -/
def printAll (colors : Bool) (ms : List Message) : Text := ms.flatMap (print colors)

end Message
end ThemeProps
