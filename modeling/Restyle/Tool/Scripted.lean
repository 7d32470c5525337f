import Restyle.Text.Part
import Restyle.Tool.Reply

/-! # Scripted tools

A tool that answers from a list of rules.  The first rule that fits a call gives the reply.
-/
namespace Restyle

/-- A rule; without a part it fits every call, else those with an argument that contains the part. -/
structure ScriptedRule where
  part : Option String := none
  reply : Reply

namespace ScriptedRule

def fits (r : ScriptedRule) (c : Call) : Bool :=
  r.part.all fun part => c.invocation.args.any fun a => Text.hasPart a.toList part.toList

def tool (rules : List ScriptedRule) : Tool := fun _ _ call =>
  match rules.find? (·.fits call) with
  | some r => r.reply
  | none => ⟨.error (.process "No rule"), false, true⟩

end ScriptedRule
end Restyle
