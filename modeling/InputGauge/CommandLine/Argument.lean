import InputGauge.Text.Utf8

/-!
# Arguments

What an argument of a command line is by its spelling alone, where options are still allowed. An
option begins with two dashes; its name ends at the first `=`. The name has to be text, whatever
the bytes after the `=` are: what is not text cannot name an option of any program.
-/

namespace InputGauge.CommandLine

/-- What an argument is by its spelling. -/
inductive Argument where
  /-- The end of the options. -/
  | endOfOptions
  /-- `--name` or `--name=value`. -/
  | option (name : Bytes) (given : Option Bytes)
  /-- What is no option, `-` included. -/
  | plain (bytes : Bytes)
  /-- Anything else that begins with `-`: there are no one-letter options. -/
  | unknown
  deriving DecidableEq, Repr

namespace Argument

/-- What an argument is. -/
def of : Bytes → Argument
  | [0x2d] => plain [0x2d]
  | [0x2d, 0x2d] => endOfOptions
  | 0x2d :: 0x2d :: body => option (Bytes.splitAtEquals body).1 (Bytes.splitAtEquals body).2
  | 0x2d :: _ => unknown
  | bytes => plain bytes

/-- Whether an argument is an option whose name is not text. -/
def isGarbled : Argument → Bool
  | option name _ => (Utf8.decode? name).isNone
  | endOfOptions | plain _ | unknown => false

end Argument

end InputGauge.CommandLine
