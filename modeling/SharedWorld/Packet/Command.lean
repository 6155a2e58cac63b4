import SharedWorld.Packet
import SharedWorld.Text.Blank

/-! The packet that carries a line typed by a player. -/
namespace SharedWorld

open Wire

structure Command where
  command : String := ""
  arguments : String := ""
deriving DecidableEq

def Command.argumentList (c : Command) : List String :=
  (Text.Blank.words c.arguments.toList).map String.ofList

def Layout.command : Layout Command :=
  (Layout.text.both Layout.text).as (fun (command, arguments) => { command, arguments })
    (fun c => (c.command, c.arguments))

instance : Packet Command := ⟨.command, .reliableSequenced, .high, Layout.command⟩

end SharedWorld
