import ShaderBuild.Shell.Expansion
import ShaderBuild.Shell.Intrinsic
import ShaderBuild.Shell.Program

namespace ShaderBuild.Shell

abbrev Runner := Command → Session Unit

namespace Runner

def script (self : Runner) (text : List Char) : Session Unit := do
  match Command.parse text with
  | .ok c => self c
  | .error u => Session.abort u.line s!"Syntax error: {u.reason}"

def expander (self : Runner) (line : Nat) : Expander where
  line
  print text := Session.captured (Session.isolated (self.script text))

def connect (descriptor : Nat) (channel : Option Channel) : Session Unit :=
  modify fun s =>
    { s with
      descriptors :=
        (descriptor, channel.getD .nowhere) :: s.descriptors.filter (·.1 != descriptor) }

def openFault (creates : Bool) (path : String) (f : FileFault) : String :=
  let missing := f == .notFound || f == .notDirectory
  if creates then
    let reason := if missing then "Directory nonexistent" else f.reason
    s!"cannot create {path}: {reason}"
  else
    let reason := if missing then "No such file" else f.reason
    s!"cannot open {path}: {reason}"

def openOutput (line descriptor : Nat) (append : Bool) (path : String) : Session Bool := do
  let s ← get
  if path == "/dev/null" then
    connect descriptor none
    return true
  let opened : Except FileFault (FileTree × Location) := do
    let old := if append then (s.files.read path).toOption.getD [] else []
    let t ← s.files.write path old
    return (t, (← t.locate path).location)
  match opened with
  | .ok (t, l) =>
    set { s with files := t }
    connect descriptor (some (.file l))
    return true
  | .error f =>
    Session.complain line (openFault true path f)
    return false

def openInput (line : Nat) (path : String) : Session Bool := do
  let s ← get
  if path == "/dev/null" then
    set { s with input := [] }
    return true
  match s.files.read path with
  | .ok bytes =>
    set { s with input := bytes }
    return true
  | .error f =>
    Session.complain line (openFault false path f)
    return false

def redirect (e : Expander) (r : Redirection) : Session Bool := do
  match r with
  | .here _ lines =>
    let text ← e.single lines
    modify fun s => { s with input := Text.Utf8.encode text }
    return true
  | .open_ descriptor sign path =>
    let target ← e.single path
    match sign with
    | "<" => openInput e.line target
    | "<&" => return true
    | ">&" =>
      let from_ := descriptor.getD 1
      match Intrinsic.natural? target with
      | some n =>
        connect from_ ((← get).descriptors.lookup n)
        return true
      | none =>
        if target == "-" then
          connect from_ none
          return true
        else openOutput e.line from_ false target
    | ">>" => openOutput e.line (descriptor.getD 1) true target
    | _ => openOutput e.line (descriptor.getD 1) false target

def readsInput : Redirection → Bool
  | .here .. => true
  | .open_ _ sign _ => sign == "<"

def redirectAll (e : Expander) : List Redirection → Session Bool
  | [] => return true
  | r :: rs => do if ← redirect e r then redirectAll e rs else return false

/-- Do something with redirections, which are taken back afterwards. Where one fails, nothing is
done; that ends the script if the command is one of the shell's own. -/
def redirected (e : Expander) (rs : List Redirection) (own : Bool) (x : Session Unit) :
    Session Unit := do
  let before ← get
  let restore : Session Unit :=
    modify fun s =>
      { s with
        descriptors := before.descriptors
        input := if rs.any readsInput then before.input else s.input }
  if ← redirectAll e rs then
    try
      x
      restore
    catch stop =>
      restore
      throw stop
  else
    restore
    if own then throw (Stop.exit 2) else Session.setStatus 2

structure Start where
  strict : Bool := false
  inline_ : Bool := false
  rest : List String := []

def Start.parse : List String → Start
  | [] => {}
  | w :: r =>
    match w.toList with
    | ['-', '-'] => { rest := r }
    | '-' :: c :: cs =>
      let s := Start.parse r
      { s with
        strict := s.strict || (c :: cs).contains 'e'
        inline_ := s.inline_ || (c :: cs).contains 'c' }
    | _ => { rest := w :: r }

/-- Do something and then what is kept for the end; the status is that of the first. -/
def withEnding (self : Runner) (x : Session Unit) : Session Unit := do
  let status ← try
      x
      pure (← get).status
    catch
      | .exit n | .returned n => pure n
      | stop => throw stop
  match (← get).atExit with
  | none => pure ()
  | some text =>
    modify fun s => { s with atExit := none, status }
    self.script text.toList
  throw (Stop.exit status)

def introduce (strict : Bool) (name : String) (arguments : List String) : Session Unit :=
  modify fun s => { s with name, arguments, strict }

def start (self : Runner) (a : Start) : Session Unit := do
  match a.inline_, a.rest with
  | true, [] => Session.abort 0 "-c requires an argument"
  | true, [text] => self.script text.toList
  | true, text :: name :: r =>
    introduce a.strict name r
    self.script text.toList
  | false, [] =>
    let s ← get
    set { s with input := [] }
    self.script (Text.Utf8.decodeLossy s.input).toList
  | false, path :: r =>
    match (← get).files.read path with
    | .ok bytes =>
      introduce a.strict path r
      self.script (Text.Utf8.decodeLossy bytes).toList
    | .error f => Session.abort 0 (openFault false path f)

def shell (self : Runner) (name : String) (arguments : List String) : Session Unit := do
  let a := Start.parse arguments
  introduce a.strict name []
  self.withEnding (self.start a)

def program (self : Runner) (p : Program) (name : String) (arguments : List String) :
    Session Unit := do
  Session.spend Session.programTime
  match p with
  | .utility u front => Session.setStatus (← u.run (front ++ arguments))
  | .shell front => self.shell name (front ++ arguments)

/-- Run a program in a process of its own, which sees only what is exported. A signal ends that
process alone. -/
def process (self : Runner) (p : Program) (name : String) (arguments : List String) :
    Session Unit := do
  let before ← get
  try
    Session.isolated do
      set { before with
        process := before.process + 1, functions := [], status := 0, loops := 0, atExit := none
        values := before.values.filter fun v => before.exported.contains v.1
        strict := false, tested := false }
      self.program p name arguments
  catch
    | .killed n =>
      modify fun s => { before.settle s with status := 128 + n }
      let phrase := ((Signal.ofNumber? n).map (·.phrase)).getD ""
      if phrase != "" then Session.write 2 (phrase ++ "\n")
    | stop => throw stop

def searchPath : Session String := return ((← get).values.lookup "PATH").getD ""

def isRun (name : String) : Session Bool := do
  let t := (← get).files
  return name.toList.contains Path.separator ||
    ((← searchPath).splitOn ":").any fun d => t.isFile (Path.join (if d == "" then "." else d) name)

def named (self : Runner) (line : Nat) (name : String) (arguments : List String) :
    Session Unit := do
  match Program.find (← get).files (← searchPath) name with
  | .ok p => self.process p name arguments
  | .error .notExecutable => self.process (.shell [name]) name arguments
  | .error f =>
    if f == .notFound || f == .notDirectory then
      Session.complain line s!"{name}: not found"
      Session.setStatus 127
    else
      Session.complain line s!"{name}: {f.reason}"
      Session.setStatus (if ← isRun name then 126 else 127)

def function (self : Runner) (body : Command) (arguments : List String) : Session Unit := do
  let before ← get
  set { before with arguments, hidden := [] }
  let leave : Session Unit := do
    Session.reveal (← get).hidden
    modify fun s => { s with arguments := before.arguments, hidden := before.hidden }
  try
    self body
    leave
  catch stop =>
    leave
    match stop with
    | .returned n => Session.setStatus n
    | stop => throw stop

def source (self : Runner) (line : Nat) (path : String) : Session Unit := do
  match (← get).files.read path with
  | .ok bytes =>
    try self.script (Text.Utf8.decodeLossy bytes).toList
    catch
      | .returned n => Session.setStatus n
      | stop => throw stop
  | .error f =>
    let reason := openFault false path f
    if path.toList.contains Path.separator then Session.abort line s!".: {reason}"
    else Session.abort line s!".: {path}: not found"

/-- Commands of the shell whose settings stay and whose failure to open a file ends it. -/
def isSpecial (name : String) : Bool :=
  [":", ".", "break", "continue", "eval", "exec", "exit", "export", "readonly", "return", "set",
    "shift", "unset"].contains name

def describe (names : List String) : Session Unit := do
  let path ← searchPath
  for name in names do
    let s ← get
    let known := (Intrinsic.find? name).isSome || isSpecial name || s.functions.any (·.1 == name)
    if known then Session.write 1 (name ++ "\n")
    else
      match Program.find s.files path name with
      | .ok _ =>
        let shown := if name.toList.contains Path.separator then name else s!"/usr/bin/{name}"
        Session.write 1 (shown ++ "\n")
      | .error _ => Session.setStatus 127

def call (self : Runner) (line : Nat) (functions : Bool) (name : String)
    (arguments : List String) : Session Unit := do
  let s ← get
  match if functions then s.functions.lookup name else none with
  | some body => self.function body arguments
  | none =>
    match Intrinsic.find? name with
    | some action => Session.setStatus (← action line arguments)
    | none => self.named line name arguments

def invoke (self : Runner) (line : Nat) (name : String) (arguments : List String) :
    Session Unit := do
  match name, arguments with
  | "eval", _ => self.script (" ".intercalate arguments).toList
  | ".", path :: _ => self.source line path
  | "exec", program :: arguments =>
    self.named line program arguments
    throw (Stop.exit (← get).status)
  | "command", "-v" :: names =>
    Session.setStatus 0
    describe names
  | "command", program :: arguments => self.call line false program arguments
  | _, _ => self.call line true name arguments

def printsInto (w : Word) : Bool :=
  w.any fun
    | .output .. => true
    | _ => false

def settle (e : Expander) (settings : List (String × Word)) : Session Unit :=
  settings.forM fun (name, w) => do
    Session.setValue name (← e.single w)

def withSettings (e : Expander) (settings : List (String × Word)) (x : Session Unit) :
    Session Unit := do
  let before ← get
  let names := settings.map (·.1)
  settle e settings
  modify fun s => { s with exported := names ++ s.exported }
  x
  modify fun s =>
    { s with
      exported := before.exported
      values := before.values.filter (fun v => names.contains v.1) ++
        s.values.filter fun v => !names.contains v.1 }

def simple (self : Runner) (line : Nat) (settings : List (String × Word)) (words : List Word)
    (rs : List Redirection) : Session Unit := do
  let e := self.expander line
  match ← e.words words with
  | [] =>
    if !(words ++ settings.map (·.2)).any printsInto then
      redirected e rs false (do
        settle e settings
        Session.setStatus 0)
    else redirected e rs false (settle e settings)
  | ["exec"] => if !(← redirectAll e rs) then throw (Stop.exit 2)
  | name :: arguments =>
    let own := isSpecial name
    redirected e rs own
      (if own then do
        settle e settings
        self.invoke line name arguments
      else if settings.isEmpty then self.invoke line name arguments
      else withSettings e settings (self.invoke line name arguments))
  Session.checkStrict

/-- Commands each of which reads what the one before it prints. -/
def pipeline (self : Runner) : List Command → Session Unit
  | [] => pure ()
  | [c] => Session.isolated (self c)
  | c :: cs => do
    let bytes ← Session.captured (Session.isolated (self c))
    let before ← get
    set { before with input := bytes }
    self.pipeline cs
    modify fun s => { s with input := before.input }

def background (self : Runner) (c : Command) : Session Unit := do
  let before ← get
  Session.isolated (self c)
  modify fun s => { s with clock := before.clock, status := 0 }

def choose (self : Runner) (otherwise : Command) : List (Command × Command) → Session Unit
  | [] => self otherwise
  | (condition, body) :: r => do
    Session.testing (self condition)
    if (← get).status == 0 then self body else self.choose otherwise r

def steps : Session Nat := do
  let s ← get
  return s.limit - s.clock + 1

/-- A body again and again, as long as a condition holds or until it does. -/
def loop (self : Runner) (whileTrue : Bool) (condition body : Command) : Session Unit := do
  let before ← get
  let step (status : Nat) : Session (Nat × Bool) := do
    let goesOn ← Session.loopBody (Session.testing (self condition))
    if !goesOn || ((← get).status == 0) != whileTrue then return (status, false)
    let goesOn ← Session.loopBody (self body)
    return ((← get).status, goesOn)
  let status ← Session.iterate step (← steps) 0
  modify fun s => { s with status, tested := before.tested }

def each (self : Runner) (name : String) (body : Command) : List String → Session Unit
  | [] => pure ()
  | w :: ws => do
    Session.setValue name w
    if ← Session.loopBody (self body) then self.each name body ws

def fitsAny (e : Expander) (subject : List Char) : List Word → Session Bool
  | [] => return false
  | w :: ws => do
    if (← e.pattern w).fits subject then return true else fitsAny e subject ws

def select (self : Runner) (e : Expander) (subject : List Char) :
    List (List Word × Command) → Session Unit
  | [] => Session.setStatus 0
  | (patterns, body) :: r => do
    if ← fitsAny e subject patterns then self body else self.select e subject r

end Runner

namespace Command

/-- Run a command, with fuel for the commands within it. -/
def run : Nat → Command → Session Unit
  | 0, _ => throw Stop.expired
  | fuel + 1, c => do
    let self : Runner := run fuel
    let e := self.expander 0
    Session.spend Session.commandTime
    match c with
    | .simple line settings words rs => self.simple line settings words rs
    | .pipeline cs =>
      self.pipeline cs
      Session.checkStrict
    | .not c =>
      Session.testing (self c)
      Session.setStatus (if (← get).status == 0 then 1 else 0)
    | .and a b =>
      Session.testing (self a)
      if (← get).status == 0 then self b
    | .or a b =>
      Session.testing (self a)
      if (← get).status != 0 then self b
    | .sequence [] => Session.setStatus 0
    | .sequence cs => cs.forM self
    | .background c => self.background c
    | .choose branches otherwise => self.choose otherwise branches
    | .repeat_ whileTrue condition body => self.loop whileTrue condition body
    | .each name words body =>
      let ws ← match words with
        | some ws => e.words ws
        | none => pure (← get).arguments
      self.each name body ws
    | .select subject branches =>
      self.select e (← e.single subject).toList branches
    | .group false body rs => Runner.redirected e rs false (self body)
    | .group true body rs =>
      Session.isolated (Runner.redirected e rs false (self body))
      Session.checkStrict
    | .define name body =>
      modify fun s => { s with
        functions := (name, body) :: s.functions.filter (·.1 != name), status := 0 }

end Command

end ShaderBuild.Shell
