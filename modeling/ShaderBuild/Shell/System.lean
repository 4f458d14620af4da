import ShaderBuild.Launch
import ShaderBuild.Shell.Run

namespace ShaderBuild.Shell

def searchPath : String := "/usr/local/sbin:/usr/local/bin:/usr/sbin:/usr/bin:/sbin:/bin"

def environment : List (String × String) :=
  [("PATH", searchPath), ("TMPDIR", "/tmp"), ("NO_COLOR", "1")]

/-- Depth to which the commands of a script may be nested. -/
def depth : Nat := 1000

/-- A process, with the files as they were when it was started. -/
structure Child where
  program : Program
  name : String
  arguments : List String
  number : Nat
  files : FileTree
  started : Nat

namespace Child

def initial (p : Child) (milliseconds : Nat) : State where
  files := p.files
  limit := 1000 * milliseconds
  process := p.number
  name := p.name
  arguments := []
  values := environment
  exported := environment.map (·.1)
  descriptors := [(1, .pipe 0), (2, .pipe 1)]
  pipes := #[[], []]

/-- How a process has ended after some milliseconds, if it has, and what it has done. -/
def after (p : Child) (milliseconds : Nat) : Option ExitStatus × State :=
  let self : Runner := Command.run depth
  let (result, s) := (self.program p.program p.name p.arguments).run.run (p.initial milliseconds)
  match result with
  | .ok _ => (some (.exited s.status), s)
  | .error (.exit n) | .error (.returned n) => (some (.exited n), s)
  | .error (.leave _) | .error (.again _) => (some (.exited s.status), s)
  | .error (.killed n) => (some (.signaled n), s)
  | .error .expired => (none, s)

def output (s : State) (pipe : Nat) : String := Text.Utf8.decodeLossy (s.drained pipe)

end Child

def start (number : Nat) (name : String) (arguments : List String) (now : Nat) (t : FileTree) :
    Except String Child :=
  if (name :: arguments).any (·.toList.contains '\x00') then
    .error "nul byte found in provided data"
  else
    match Program.find t searchPath name with
    | .ok program => .ok { program, name, arguments, number, files := t, started := now }
    | .error f => .error f.message

/-- Utilities and scripts, run on the tree of files by a build with a number of its own. A process
is run from its start whenever it is looked at. -/
def system (number : Nat) : System where
  Process := Child
  start name arguments now := do
    return (0, start (number + 1) name arguments now (← get))
  poll p now := do
    let (status, s) := p.after (now - p.started)
    set { s.files with home := (← get).home }
    return .ok (status.map fun status =>
      { status, stdout := Child.output s 0, stderr := Child.output s 1 })
  kill _ _ := pure ()

end ShaderBuild.Shell
