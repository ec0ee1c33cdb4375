import EvoSched.Document.Flow
import EvoSched.Shell

set_option autoImplicit false

namespace EvoSched

/-- What commands start from before any file is loaded. -/
def Workspace.empty : Workspace := .new Flow.read

/-- How a command ended: its exit code, the shell it left, and the fault that it reported. -/
structure Ending where
  exitCode : Nat
  shell : Shell
  fault : Option Fault

def Ending.saying (exitCode : Nat) (shell : Shell) (text : String) : Ending :=
  ⟨exitCode, { shell with output := shell.output ++ text }, none⟩

/-- Ends a command with the report of a fault. -/
def Ending.failing (shell : Shell) (fault : Fault) (before after : String) : Ending :=
  ⟨1, { shell with output := shell.output ++ before ++ fault.message ++ after }, some fault⟩

end EvoSched
