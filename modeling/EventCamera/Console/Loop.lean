import EventCamera.Console.Interpreter
import EventCamera.Console.Line
/-!
# Console

The interactive loop: lines in, replies out, and the latest frame to the display. The display shows a
frame only if its stamp differs from the one shown last.
-/

namespace EventCamera

/-- A display without a window: it only counts what it was given to show. -/
structure Display where
  shown : UInt64
  last : Option Stamp
  deriving DecidableEq, Repr, Inhabited

namespace Display

def new : Display := ⟨0, none⟩

def present (p : Published) (d : Display) : Display := ⟨d.shown + 1, some p.stamp⟩

end Display

/-- The console at work: interpreter, line reader and display. -/
structure Console (δ : Type) where
  desk : Desk δ
  reader : LineReader
  display : Display
  /-- Stamp of the frame that was handed to the display last. -/
  seen : Option Stamp
  deriving Inhabited

namespace Console

variable {δ : Type}

def new (d : Desk δ) : Console δ := ⟨d, .new, .new, none⟩

def change (f : Shared → Shared) (c : Console δ) : Console δ := { c with desk := c.desk.change f }

def replyLines : Reply → List String
  | .ok lines => lines
  | .error e => if e.isNotice then [e.message] else ["Error: " ++ e.message]

/-- Carries out commands in order, and stops after one that leaves shutdown requested. -/
def runCommands [BiasFacility δ] : List Command → Desk δ → List String × Desk δ
  | [], d => ([], d)
  | command :: rest, d =>
    match d.handle command with
    | (reply, d) =>
      if d.shared.control.running then
        match runCommands rest d with
        | (lines, d) => (replyLines reply ++ lines, d)
      else (replyLines reply, d)

/-- Reads one line and carries it out. Gives the lines to show. -/
def handleLine [BiasFacility δ] (line : String) (c : Console δ) : List String × Console δ :=
  match c.reader.read line with
  | (.commands commands, reader) =>
    match runCommands commands c.desk with
    | (lines, desk) => (lines, { c with desk, reader })
  | (.awaitName, reader) => (["Enter bias name:"], { c with reader })
  | (.nothing, reader) => ([], { c with reader })

/-- Shows the latest frame if it is newer than the one shown last. -/
def refresh (c : Console δ) : Bool × Console δ :=
  match LatestFrame.newerThan c.desk.shared.latest c.seen with
  | some p => (true, { c with display := c.display.present p, seen := some p.stamp })
  | none => (false, c)

/-- Reads lines until shutdown is requested or there are none left, refreshing the display after each.
Gives the lines to show. -/
def handleLines [BiasFacility δ] : List String → Console δ → List String × Console δ
  | [], c => ([], c)
  | line :: rest, c =>
    if c.desk.shared.control.running then
      match c.handleLine line with
      | (shown, c) =>
        match handleLines rest c.refresh.2 with
        | (more, c) => (shown ++ more, c)
    else ([], c)

/-- Leaves the console, which shuts everything down. -/
def leave (c : Console δ) : Console δ := { c with desk := c.desk.shutdown }

/-- The whole run over the given lines. After them the console goes on refreshing until shutdown is
requested from elsewhere. -/
def run [BiasFacility δ] (lines : List String) (c : Console δ) : List String × Console δ :=
  match handleLines lines c with
  | (shown, c) => (shown, if c.desk.shared.control.running then c.refresh.2.leave else c.leave)

end Console

end EventCamera
