import AioVpn.Text.LineReader
import AioVpn.Config.Inet

/-!
# Running a command in the root shell

`RootShell.run` of `com.wireguard.android.util`.  One `su` process serves all commands.  To
run one, the app writes a line to its standard input,

    echo M; echo M >&2; (command); ret=$?; echo M $ret; echo M $ret >&2

where the marker `M` is a random UUID, and then reads standard output up to a line that
begins with the marker and goes on after it, and then standard error in the same way.  What
stands between the markers on standard output is the output of the command, and the number
after the last marker its exit status.

The shell and the app run side by side.  Between them are two pipes, which hold a bounded
number of characters: a shell that writes to a full pipe waits, and so does an app that
reads from an empty one, unless the shell is dead.  `Step` has one step for each character
written or read.  The shell may die at any time, in the middle of a line as well.

A call begins with a running shell: `start` has returned.  The writes of a command are
those made before it exits.
-/

namespace AioVpn
namespace RootShell

/-- The two streams the shell writes to. -/
inductive Fd where
  | stdout
  | stderr
  deriving DecidableEq

/-- A command, as the shell runs it. -/
structure Command where
  /-- The characters it writes, in order. -/
  writes : List (Fd × JChar)
  /-- Its exit status, `$?`. -/
  status : Fin 256

/-- What goes to one stream. -/
def text (fd : Fd) (writes : List (Fd × JChar)) : JString :=
  (writes.filter fun w => w.1 = fd).map Prod.snd

/-- `echo` with a stream. -/
def echo (fd : Fd) (s : JString) : List (Fd × JChar) := (s ++ [ch '\n']).map (Prod.mk fd)

/-- The text of the last two `echo` commands. -/
def closing (marker : JString) (c : Command) : JString :=
  marker ++ ch ' ' :: decimal (c.status : ℕ)

/-- What the shell writes when it runs the script. -/
def script (marker : JString) (c : Command) : List (Fd × JChar) :=
  echo .stdout marker ++ echo .stderr marker ++ c.writes ++
    echo .stdout (closing marker c) ++ echo .stderr (closing marker c)

/-! ## The two loops -/

/-- The variables of `run`; `output` is the list that it appends to. -/
structure Vars where
  errnoStdout : ℤ := -2 ^ 31
  errnoStderr : ℤ := 2 ^ 31 - 1
  markersSeen : ℕ := 0
  output : List JString := []

/-- How a call fails: a `NumberFormatException`, or a `RootShellException` with its reason. -/
inductive Failure where
  | numberFormat
  | shellMarkerCountError (markersSeen : ℕ)
  | shellExitStatusReadError
  deriving DecidableEq

/-- Where the call is. -/
inductive Phase where
  /-- In the loop over the lines of a stream. -/
  | reading (fd : Fd)
  | returned (errno : ℤ)
  | threw (failure : Failure)
  deriving DecidableEq

/-- What one line makes of a loop. -/
inductive Loop where
  | next (vars : Vars)
  | leave (vars : Vars)
  | throw

/-- The assignment before `break`. -/
def Vars.setErrno (v : Vars) (fd : Fd) (errno : ℤ) : Vars :=
  match fd with
  | .stdout => { v with errnoStdout := errno }
  | .stderr => { v with errnoStderr := errno }

/-- The body of the loop over a stream.  The two loops differ in the variable they set and
in what they do with the lines of the command: only those of standard output are kept. -/
def onLine (marker : JString) (fd : Fd) (v : Vars) (line : JString) : Loop :=
  if marker.isPrefixOf line then
    let v := { v with markersSeen := v.markersSeen + 1 }
    if line.length > marker.length + 1 then
      match JString.parseInt (line.drop (marker.length + 1)) with
      | some errno => .leave (v.setErrno fd errno)
      | none => .throw
    else .next v
  else if fd = .stdout ∧ v.markersSeen > 0 then .next { v with output := v.output ++ [line] }
  else .next v

/-- What follows the loops. -/
def finish (v : Vars) : Phase :=
  if v.markersSeen ≠ 4 then .threw (.shellMarkerCountError v.markersSeen)
  else if v.errnoStdout ≠ v.errnoStderr then .threw .shellExitStatusReadError
  else .returned v.errnoStdout

/-- What follows the loop over a stream. -/
def afterLoop (fd : Fd) (v : Vars) : Phase :=
  match fd with
  | .stdout => .reading .stderr
  | .stderr => finish v

/-! ## The shell and the app -/

/-- The shell, the pipes and the call. -/
structure Sys where
  /-- What the shell has still to write. -/
  todo : List (Fd × JChar)
  alive : Bool := true
  /-- What has been written and not read. -/
  pipe : Fd → JString := fun _ => []
  /-- The readers `stdout` and `stderr`, which outlive the call. -/
  reader : Fd → LineReader := fun _ => {}
  vars : Vars := {}
  phase : Phase := .reading .stdout

namespace Sys

variable (marker : JString) (fd : Fd)

/-- `readLine` returns a line. -/
def line (s : Sys) (line : JString) : Sys :=
  match onLine marker fd s.vars line with
  | .next v => { s with vars := v }
  | .leave v => { s with vars := v, phase := afterLoop fd v }
  | .throw => { s with phase := .threw .numberFormat }

/-- A character arrives at the reader. -/
def read (s : Sys) (c : JChar) : Sys :=
  ((s.reader fd).feed c).2.elim id (fun l s => s.line marker fd l)
    { s with reader := Function.update s.reader fd ((s.reader fd).feed c).1 }

/-- The end of the stream: the line that has been begun is the last one. -/
def eof (s : Sys) : Sys :=
  let s' := (s.reader fd).pending.foldl (line marker fd) s
  if s'.phase = .reading fd then { s' with phase := afterLoop fd s'.vars } else s'

end Sys

variable (marker : JString) (capacity : ℕ)

/-- One step of the shell or of the app. -/
inductive Step : Sys → Sys → Prop
  | write {s : Sys} {fd : Fd} {c : JChar} {rest : List (Fd × JChar)} :
      s.todo = (fd, c) :: rest → (s.pipe fd).length < capacity →
      Step s { s with todo := rest, pipe := Function.update s.pipe fd (s.pipe fd ++ [c]) }
  | read {s : Sys} {fd : Fd} {c : JChar} {rest : JString} :
      s.phase = .reading fd → s.pipe fd = c :: rest →
      Step s ({ s with pipe := Function.update s.pipe fd rest }.read marker fd c)
  | eof {s : Sys} {fd : Fd} :
      s.phase = .reading fd → s.pipe fd = [] → s.alive = false → Step s (s.eof marker fd)
  | die {s : Sys} : s.alive = true → Step s { s with todo := [], alive := false }

/-- The beginning of a call: the readers are at the beginning of a line, and `stale` is what
is left in the pipes. -/
def begin (c : Command) (stale : Fd → JString) : Sys :=
  { todo := script marker c, pipe := stale }

/-- The states of a call. -/
def Reachable (c : Command) (stale : Fd → JString) : Sys → Prop :=
  Relation.ReflTransGen (Step marker capacity) (begin marker c stale)

end RootShell
end AioVpn
