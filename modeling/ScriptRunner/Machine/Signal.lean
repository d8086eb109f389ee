/-!
# Signals

The signals that processes send one another, with the names and numbers that scripts know them by, and how a process
ends: with an exit code of its own or by a signal.
-/

namespace ScriptRunner

inductive Signal where
  | hangup
  | interrupt
  | quit
  | illegalInstruction
  | breakpoint
  | abort
  | busError
  | arithmetic
  | kill
  | user1
  | segment
  | user2
  | brokenPipe
  | alarm
  | terminate
  | child
  | proceed
  | urgent
  | cpuLimit
  | sizeLimit
  | virtualAlarm
  | profiling
  | window
  | ready
  | power
  | badCall
  deriving DecidableEq, Repr

namespace Signal

def all : List Signal :=
  [hangup, interrupt, quit, illegalInstruction, breakpoint, abort, busError, arithmetic, kill, user1, segment,
    user2, brokenPipe, alarm, terminate, child, proceed, urgent, cpuLimit, sizeLimit, virtualAlarm, profiling,
    window, ready, power, badCall]

def number : Signal → Nat
  | hangup => 1
  | interrupt => 2
  | quit => 3
  | illegalInstruction => 4
  | breakpoint => 5
  | abort => 6
  | busError => 7
  | arithmetic => 8
  | kill => 9
  | user1 => 10
  | segment => 11
  | user2 => 12
  | brokenPipe => 13
  | alarm => 14
  | terminate => 15
  | child => 17
  | proceed => 18
  | urgent => 23
  | cpuLimit => 24
  | sizeLimit => 25
  | virtualAlarm => 26
  | profiling => 27
  | window => 28
  | ready => 29
  | power => 30
  | badCall => 31

def name : Signal → String
  | hangup => "HUP"
  | interrupt => "INT"
  | quit => "QUIT"
  | illegalInstruction => "ILL"
  | breakpoint => "TRAP"
  | abort => "ABRT"
  | busError => "BUS"
  | arithmetic => "FPE"
  | kill => "KILL"
  | user1 => "USR1"
  | segment => "SEGV"
  | user2 => "USR2"
  | brokenPipe => "PIPE"
  | alarm => "ALRM"
  | terminate => "TERM"
  | child => "CHLD"
  | proceed => "CONT"
  | urgent => "URG"
  | cpuLimit => "XCPU"
  | sizeLimit => "XFSZ"
  | virtualAlarm => "VTALRM"
  | profiling => "PROF"
  | window => "WINCH"
  | ready => "POLL"
  | power => "PWR"
  | badCall => "SYS"

/-- What is said of a process that a signal has ended. -/
def description : Signal → String
  | hangup => "Hangup"
  | interrupt => "Interrupt"
  | quit => "Quit"
  | illegalInstruction => "Illegal instruction"
  | breakpoint => "Trace/breakpoint trap"
  | abort => "Aborted"
  | busError => "Bus error"
  | arithmetic => "Floating point exception"
  | kill => "Killed"
  | user1 => "User defined signal 1"
  | segment => "Segmentation fault"
  | user2 => "User defined signal 2"
  | brokenPipe => "Broken pipe"
  | alarm => "Alarm clock"
  | terminate => "Terminated"
  | child => "Child exited"
  | proceed => "Continued"
  | urgent => "Urgent I/O condition"
  | cpuLimit => "CPU time limit exceeded"
  | sizeLimit => "File size limit exceeded"
  | virtualAlarm => "Virtual timer expired"
  | profiling => "Profiling timer expired"
  | window => "Window changed"
  | ready => "I/O possible"
  | power => "Power failure"
  | badCall => "Bad system call"

/-- A process that has made no arrangements does not notice the signal. -/
def isHarmless (s : Signal) : Bool := [child, proceed, urgent, window].contains s

/-- The signal of a name, in letters of either case, or of a number. -/
def ofText? (text : String) : Option Signal :=
  all.find? fun s => s.name = text.toUpper || toString s.number = text

end Signal

/-- What a process does when a signal arrives. -/
inductive Disposition where
  /-- The signal ends the process. -/
  | standard
  | ignored
  /-- The process takes note and goes on. -/
  | caught
  deriving DecidableEq, Repr

/-- How a process has ended. -/
inductive Ending where
  | exit (code : Nat)
  | signal (s : Signal)
  deriving DecidableEq, Repr

namespace Ending

/-- The exit code, if the process chose one. -/
def exitCode? : Ending → Option Nat
  | exit code => some code
  | signal _ => none

/-- What a shell makes of an ending. -/
def status : Ending → Nat
  | exit code => code
  | signal s => 128 + s.number

end Ending

end ScriptRunner
