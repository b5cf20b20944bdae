import ReplicaRouting.Cli.Report
import ReplicaRouting.Config.Directory
/-!
The whole program, from its arguments to its exit. All that it asks for is what the path of its command leads
to.
-/

namespace ReplicaRouting.Cli

def usageText : String :=
  "Usage: replica-router check-config [--config PATH]\n" ++
  "       replica-router explain [--config PATH] [--primary ADDRESS] [--attached]\n"

def Usage.exit : Usage → Exit
  | .version => ⟨0, versionLine, ""⟩
  | usage => if usage.code = 0 then ⟨0, usageText, ""⟩ else ⟨usage.code, "", usageText⟩

def program {m : Type → Type} [Monad m] (readFile : String → m FileState) (args : List String) : m Exit :=
  match Command.ofArguments args with
  | .error usage => return usage.exit
  | .ok command => return command.run (← readFile command.path)

/-- The exit of the program where it finds these files. -/
def exitIn (d : Directory) (args : List String) : Exit := program (m := Id) d.open? args

end ReplicaRouting.Cli
