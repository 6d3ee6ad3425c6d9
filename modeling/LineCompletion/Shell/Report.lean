import LineCompletion.Files.Basic

/-!
# What scripts do

How the run of a script ends and what it leaves behind. What runs a script is a parameter of
everything that has commands run.
-/

namespace LineCompletion

namespace Signal

/-- The signals in order, beginning with the first. -/
def all : List String :=
  ["HUP", "INT", "QUIT", "ILL", "TRAP", "ABRT", "BUS", "FPE", "KILL", "USR1", "SEGV", "USR2",
    "PIPE", "ALRM", "TERM", "STKFLT", "CHLD", "CONT", "STOP", "TSTP", "TTIN", "TTOU", "URG",
    "XCPU", "XFSZ", "VTALRM", "PROF", "WINCH", "IO", "PWR", "SYS"]

def name? (n : Nat) : Option String :=
  if n == 0 then none else (all[n - 1]?).map ("SIG" ++ ·)

/-- The number of a signal that is named with or without its first three letters, or numbered. -/
def number? (name : String) : Option Nat :=
  match name.toNat? with
  | some n => if n ≤ 64 then some n else none
  | none =>
    let upper := name.toList.map Char.toUpper
    let short := if upper.take 3 == ['S', 'I', 'G'] then upper.drop 3 else upper
    (all.findIdx? fun s => s.toList == short).map (· + 1)

/-- Whether a process goes on if it gets a signal that it does nothing about. -/
def isHarmless (n : Nat) : Bool :=
  [0, 17, 18, 23, 28].contains n

/-- Whether a signal stops a process without ending it. -/
def isPause (n : Nat) : Bool :=
  [19, 20, 21, 22].contains n

end Signal

namespace Shell

inductive Ending where
  | exited (status : Nat)
  | killed (signal : Nat)
  | running
  deriving Repr, DecidableEq, BEq, Inhabited

/-- What a script has done. -/
structure Report where
  ending : Ending
  output : List UInt8
  errors : List UInt8
  milliseconds : Nat
  files : Files
  deriving Inhabited

end Shell

/-- What runs the scripts of commands. -/
class ScriptRunner where
  execute (files : Files) (script : String) : Shell.Report

end LineCompletion
