import EventLoop.Loop.Session
import EventLoop.Semantics.Host

/-!
# The event loop as a host

Each built-in function has a frame of its own while it works, and leaves three snapshots: one when
it is called, one when its work is done, and one when its frame is gone.
-/

namespace EventLoop.Session

/-- The line to be shown for a call of a built-in. -/
def highlight (mode : LineMode) (key : String) (signatures : List String) (callSite : Nat)
    (s : Session) : Option Nat × Session :=
  match mode with
  | .heuristic =>
    let (line, locator) := s.locator.resolve key signatures
    (line, { s with locator })
  | .callSite => (some callSite, s)

/-- What the call of a built-in begins with: its frame, and a snapshot. -/
def openPrimitive (name : String) (kind : FrameKind) (line : Option Nat) (description : String)
    (s : Session) : Session :=
  (s.pushFrame name kind line).snap line description .idle

/-- What the call of a built-in ends with: snapshots of what it did and of the stack without its
frame. -/
def closePrimitive (name : String) (line : Option Nat) (description : String) (s : Session) :
    Session :=
  ((s.snap line description .idle).popFrame).snap line ("Pop " ++ name) .idle

/-- How a call that prints a text may be written. -/
def printSignatures (text : String) : List String :=
  [ "console.log('" ++ text ++ "')", "console.log(\x22" ++ text ++ "\x22)",
    "console.log(" ++ text ++ ")" ]

/-- Prints a line. -/
def print (mode : LineMode) (text : String) (callSite : Nat) (s : Session) : Session :=
  let (line, s) := s.highlight mode ("log-" ++ text) (printSignatures text) callSite
  let s := s.openPrimitive "console.log" .print line ("console.log('" ++ text ++ "')")
  (s.printLine text).closePrimitive "console.log" line ("Output: " ++ text)

/-- Registers a timer. -/
def registerTimer (mode : LineMode) (callback : Callback) (delay callSite : Nat) (s : Session) :
    Nat × Session :=
  let (line, s) := s.highlight mode "setTimeout" ["setTimeout"] callSite
  let s := s.openPrimitive "setTimeout" .primitive line s!"setTimeout(..., {delay})"
  let (id, s) := s.addTimer callback delay
  (id, s.closePrimitive "setTimeout" line "Add to Web APIs")

/-- Defers a callback. -/
def defer (mode : LineMode) (callback : Callback) (callSite : Nat) (s : Session) : Session :=
  let (line, s) := s.highlight mode "queueMicrotask" ["queueMicrotask"] callSite
  let s := s.openPrimitive "queueMicrotask" .primitive line "queueMicrotask(...)"
  (s.addDeferred .microtask callback).closePrimitive "queueMicrotask" line
    "Add to Microtask Queue"

/-- Attaches a continuation to a promise. It is queued if it can run already. -/
def chain (mode : LineMode) (callback : Option Callback) (callSite : Nat) (s : Session) : Session :=
  let (line, s) := s.highlight mode "then" [".then"] callSite
  let s := s.openPrimitive "Promise.then" .primitive line "Promise.then(...)"
  match callback with
  | some callback =>
    (s.addDeferred .continuation callback).closePrimitive "Promise.then" line
      "Add to Microtask Queue"
  | none => s.closePrimitive "Promise.then" line "Reaction stored on pending Promise"

/-- Queues continuations that can run now, with a snapshot for each. -/
def release (callbacks : List Callback) (s : Session) : Session :=
  callbacks.foldl
    (fun s callback =>
      (s.addDeferred .continuation callback).snap none "Promise resolved -> Microtask Queue" .idle)
    s

/-- A call of a function of the script begins. -/
def enter (name : String) (line : Nat) (s : Session) : Session :=
  (s.pushFrame name .function (some line)).snap (some line) s!"Call {name}()" .idle

/-- The function on top of the stack returns. -/
def leave (s : Session) : Session :=
  match s.collections.stack.getLast? with
  | some frame => s.popFrame.snap frame.line s!"Return from {frame.name}()" .idle
  | none => s

/-- The host that schedules into a session and records what it does. -/
def host (mode : LineMode) : Host Session where
  print := print mode
  registerTimer := registerTimer mode
  defer := defer mode
  chain := chain mode
  release := release
  enter := enter
  leave := leave

end EventLoop.Session
