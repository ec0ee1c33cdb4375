import EvoSched.Workspace

set_option autoImplicit false

namespace EvoSched

structure Shell where
  files : Workspace
  output : String

/-- A step of a command. A fault leaves what was written and put out before it. -/
abbrev ShellM (β : Type) := EStateM Fault Shell β

namespace Shell

def start (files : Workspace) : Shell := ⟨files, ""⟩

def emit (text : String) : ShellM Unit :=
  modify fun shell => { shell with output := shell.output ++ text }

def say (line : String) : ShellM Unit := emit (line ++ "\n")

def sayEach : List String → ShellM Unit
  | [] => pure ()
  | line :: rest => do
    say line
    sayEach rest

def onFiles {β : Type} (act : FilesM β) : ShellM β := fun shell =>
  match act shell.files with
  | .ok x files => .ok x { shell with files }
  | .error fault files => .error fault { shell with files }

def read {β : Type} (reading : Workspace → Except Fault β) : ShellM β := fun shell =>
  match reading shell.files with
  | .ok x => .ok x shell
  | .error fault => .error fault shell

/-- A result that depends on nothing in the shell. -/
def lift {β : Type} (result : Except Fault β) : ShellM β := read fun _ => result

end Shell

end EvoSched
