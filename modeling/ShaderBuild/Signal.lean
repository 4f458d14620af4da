namespace ShaderBuild

inductive SignalEffect
  | ends | stops | nothing
deriving DecidableEq, Repr, Inhabited

structure Signal where
  number : Nat
  name : String
  effect : SignalEffect
  phrase : String
deriving DecidableEq, Repr, Inhabited

namespace Signal

def all : List Signal :=
  [⟨1, "HUP", .ends, "Hangup"⟩, ⟨2, "INT", .ends, ""⟩, ⟨3, "QUIT", .ends, "Quit"⟩,
    ⟨4, "ILL", .ends, "Illegal instruction"⟩, ⟨5, "TRAP", .ends, "Trace/breakpoint trap"⟩,
    ⟨6, "ABRT", .ends, "Aborted"⟩, ⟨7, "BUS", .ends, "Bus error"⟩,
    ⟨8, "FPE", .ends, "Floating point exception"⟩, ⟨9, "KILL", .ends, "Killed"⟩,
    ⟨10, "USR1", .ends, "User defined signal 1"⟩, ⟨11, "SEGV", .ends, "Segmentation fault"⟩,
    ⟨12, "USR2", .ends, "User defined signal 2"⟩, ⟨13, "PIPE", .ends, ""⟩,
    ⟨14, "ALRM", .ends, "Alarm clock"⟩, ⟨15, "TERM", .ends, "Terminated"⟩,
    ⟨16, "STKFLT", .ends, "Stack fault"⟩, ⟨17, "CHLD", .nothing, ""⟩, ⟨18, "CONT", .nothing, ""⟩,
    ⟨19, "STOP", .stops, ""⟩, ⟨20, "TSTP", .stops, ""⟩, ⟨21, "TTIN", .stops, ""⟩,
    ⟨22, "TTOU", .stops, ""⟩, ⟨23, "URG", .nothing, ""⟩,
    ⟨24, "XCPU", .ends, "CPU time limit exceeded"⟩,
    ⟨25, "XFSZ", .ends, "File size limit exceeded"⟩,
    ⟨26, "VTALRM", .ends, "Virtual timer expired"⟩, ⟨27, "PROF", .ends, "Profiling timer expired"⟩,
    ⟨28, "WINCH", .nothing, ""⟩, ⟨29, "IO", .ends, "I/O possible"⟩,
    ⟨30, "PWR", .ends, "Power failure"⟩, ⟨31, "SYS", .ends, "Bad system call"⟩]

def ofNumber? (n : Nat) : Option Signal := all.find? (·.number == n)

def ofName? (s : String) : Option Signal :=
  all.find? fun x => x.name == s || "SIG" ++ x.name == s

end Signal

end ShaderBuild
