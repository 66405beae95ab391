import SymbolAtlas.Entries
import SymbolAtlas.Debounce.Loop

/-!
# The debouncer

A debouncer runs a callback for a key once the key has been quiet for a while. For each key that is
waiting it keeps the handle of a call that the event loop is to make. Without a loop to wait on,
scheduling runs the callback at once.

Callbacks may use the debouncer that runs them. What the callback of a key does is a *reaction*, a
list of actions, one for each time that the key is run; when these are used up it does nothing. An
action may fail: the rest of the reaction is skipped, and the debouncer takes no further notice.

A callback can be run in the middle of a flush or while the clock moves on, and may begin a flush
of its own, so at each moment (`Debouncer.Moment`) there is a stack of tasks that are under way.
`Moment.tick` does the next bit of the topmost one.
-/

namespace SymbolAtlas

/-- What can be asked of a debouncer. -/
inductive Action where
  | schedule (key : String)
  | cancel (key : String)
  | isPending (key : String)
  /-- Runs a key now if it is waiting, or all waiting keys if none is given. -/
  | flush (key : Option String)
  | dispose
  | advance (ms : Int)
  | fail
  deriving DecidableEq, Repr

/-- Why a callback is run. -/
inductive Trigger where
  /-- The loop made the call with this handle. -/
  | timer (handle : Nat)
  /-- The call with this handle was flushed. -/
  | flush (handle : Nat)
  /-- There was no loop to wait on. -/
  | atOnce
  deriving DecidableEq, Repr

/-- One run of a callback. -/
structure Run where
  key : String
  time : Int
  trigger : Trigger
  deriving DecidableEq, Repr

/-- A debouncer with the loop it waits on, the reactions that are left and the runs so far. -/
structure Debouncer where
  delay : Int
  /-- Whether there is a loop to wait on. -/
  clocked : Bool
  loop : Loop
  /-- The handle of each key that is waiting. -/
  handles : Entries String Nat
  reactions : Entries String (List (List Action))
  runs : List Run
  deriving DecidableEq, Repr

namespace Debouncer

/-- A debouncer that has nothing to do; a negative delay counts as none. -/
def new (delay : Int) (clocked : Bool) (reactions : Entries String (List (List Action))) :
    Debouncer :=
  ⟨max delay 0, clocked, .start, {}, reactions, []⟩

/-- The keys that are waiting. -/
def pending (d : Debouncer) : List String := d.handles.keys

/-- Whether a key is waiting. -/
def isPending (d : Debouncer) (key : String) : Bool := d.handles.has key

/-- Gives up the wait of a key, and tells its handle if it was waiting. -/
def cancel (d : Debouncer) (key : String) : Debouncer × Option Nat :=
  match d.handles.get? key with
  | none => (d, none)
  | some handle =>
    ({ d with handles := d.handles.erase key, loop := d.loop.mark handle .cancelled }, some handle)

/-- Starts the wait of a key afresh. -/
def wait (d : Debouncer) (key : String) : Debouncer :=
  let d := (d.cancel key).1
  { d with
    handles := d.handles.put key d.loop.nextHandle
    loop := d.loop.callLater d.delay key }

/-- Gives up all waits. -/
def dispose (d : Debouncer) : Debouncer := d.pending.foldl (fun d key => (d.cancel key).1) d

/-- Runs the callback of a key, and tells what it is going to do. -/
def run (d : Debouncer) (key : String) (trigger : Trigger) : Debouncer × List Action :=
  let d : Debouncer := { d with runs := d.runs ++ [⟨key, d.loop.now, trigger⟩] }
  match d.reactions.get? key with
  | some (reaction :: later) => ({ d with reactions := d.reactions.put key later }, reaction)
  | _ => (d, [])

/-- The loop makes a call: the key is not waiting any more, and its callback is run. -/
def fire (d : Debouncer) (call : LaterCall) (handle : Nat) : Debouncer × List Action :=
  { d with
    loop := (d.loop.mark handle .made).setClock call.due
    handles := d.handles.erase call.key }.run call.key (.timer handle)

/-- Something that is under way. -/
inductive Task where
  /-- A callback that has these actions left to do. -/
  | callback (actions : List Action)
  /-- A flush in which it has not been the turn of these keys. -/
  | flushing (keys : List String)
  /-- The clock is on its way to this moment. -/
  | advancing (target : Int)
  deriving DecidableEq, Repr

/-- Begins with an action: what it does at once, and what is then under way. -/
def undertake (d : Debouncer) : Action → Debouncer × List Task
  | .schedule key =>
    if d.clocked then (d.wait key, [])
    else
      let (d, reaction) := (d.cancel key).1.run key .atOnce
      (d, [.callback reaction])
  | .cancel key => ((d.cancel key).1, [])
  | .isPending _ => (d, [])
  | .flush (some key) => (d, [.flushing [key]])
  | .flush none => (d, [.flushing d.pending])
  | .dispose => (d.dispose, [])
  | .advance ms => (d, [.advancing (d.loop.now + ms)])
  | .fail => (d, [])

/-- Does the next bit of a task, and tells what is then under way in its place. -/
def carryOn (d : Debouncer) : Task → Debouncer × List Task
  | .callback [] => (d, [])
  | .callback (.fail :: _) => (d, [])
  | .callback (a :: rest) =>
    let (d, tasks) := d.undertake a
    (d, tasks ++ [.callback rest])
  | .flushing [] => (d, [])
  | .flushing (key :: keys) =>
    match d.cancel key with
    | (d, none) => (d, [.flushing keys])
    | (d, some handle) =>
      let (d, reaction) := d.run key (.flush handle)
      (d, [.callback reaction, .flushing keys])
  | .advancing target =>
    match d.loop.next? target with
    | none => ({ d with loop := d.loop.setClock target }, [])
    | some (call, handle) =>
      let (d, reaction) := d.fire call handle
      (d, [.callback reaction, .advancing target])

/-- A debouncer with the tasks that are under way, the innermost first. -/
structure Moment where
  debouncer : Debouncer
  tasks : List Task
  deriving DecidableEq, Repr

namespace Moment

/-- The moment that follows. -/
def tick (m : Moment) : Moment :=
  match m.tasks with
  | [] => m
  | task :: tasks =>
    let (d, begun) := m.debouncer.carryOn task
    ⟨d, begun ++ tasks⟩

/-- The moment some ticks later. -/
def after : (ticks : Nat) → Moment → Moment
  | 0, m => m
  | ticks + 1, m => after ticks m.tick

end Moment

namespace Task

/-- The actions that a task has left to do. -/
def actions : Task → List Action
  | .callback actions => actions
  | .flushing _ | .advancing _ => []

/-- The number of actions that some tasks have left to do. -/
def actionCount (tasks : List Task) : Nat := (tasks.flatMap actions).length

/-- How many ticks a task takes at most, apart from the actions and the calls that it leads to. -/
def length : Task → Nat
  | .flushing keys => 2 * keys.length + 1
  | .callback _ | .advancing _ => 1

/-- How many ticks some tasks take in this way. -/
def totalLength (tasks : List Task) : Nat := (tasks.map length).foldr (· + ·) 0

end Task

/-- The number of actions in the reactions that are left. -/
def reactionCount (d : Debouncer) : Nat := d.reactions.values.flatten.flatten.length

/-- The number of handles and of calls that are waiting. -/
def waitCount (d : Debouncer) : Nat := d.handles.size + d.loop.waitingCount

namespace Moment

/-- The number of actions that are left to do, in callbacks under way and in those to come. -/
def actionCount (m : Moment) : Nat := m.debouncer.reactionCount + Task.actionCount m.tasks

/-- A bound on the ticks until nothing is under way. Every action leads to at most one more handle,
one more waiting call and one flush of all the keys that are waiting by then. -/
def work (m : Moment) : Nat :=
  m.actionCount * (2 * (2 * m.actionCount + m.debouncer.waitCount) + 5) +
    2 * m.debouncer.waitCount + Task.totalLength m.tasks

/-- The debouncer when nothing is under way any more. -/
def finish (m : Moment) : Debouncer := (m.after m.work).debouncer

end Moment

/-- What an action answers. -/
def answer (d : Debouncer) : Action → Option Bool
  | .cancel key => some (d.cancel key).2.isSome
  | .isPending key => some (d.isPending key)
  | _ => none

/-- Carries out one action and all that follows from it. -/
def step (d : Debouncer) (a : Action) : Debouncer × Option Bool :=
  (Moment.finish ⟨(d.undertake a).1, (d.undertake a).2⟩, d.answer a)

end Debouncer

end SymbolAtlas
