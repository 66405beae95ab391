/-!
# The event loop

An event loop has a millisecond clock and makes calls later, on request. Whoever asks for a call
gets a handle for it, by which the call can be cancelled as long as it has not been made. Handles
count the requests, so of two calls due at the same moment the one with the smaller handle comes
first.
-/

namespace SymbolAtlas

/-- What has become of a call that was asked for. -/
inductive CallState where
  | waiting
  | cancelled
  | made
  deriving DecidableEq, Repr

/-- A call to be made for a key. -/
structure LaterCall where
  key : String
  due : Int
  state : CallState
  deriving DecidableEq, Repr

/-- The clock and all calls asked for so far; the handle of a call is its place in the list. -/
structure Loop where
  now : Int
  calls : List LaterCall
  deriving DecidableEq, Repr

namespace Loop

/-- A loop at time zero. -/
def start : Loop := ⟨0, []⟩

/-- The handle that the next request gets. -/
def nextHandle (l : Loop) : Nat := l.calls.length

/-- Asks for a call after some time. -/
def callLater (l : Loop) (delay : Int) (key : String) : Loop :=
  { l with calls := l.calls ++ [⟨key, l.now + delay, .waiting⟩] }

/-- Notes what has become of a call. -/
def mark (l : Loop) (handle : Nat) (state : CallState) : Loop :=
  { l with calls := l.calls.modify handle fun c => { c with state := state } }

/-- Sets the clock. -/
def setClock (l : Loop) (now : Int) : Loop := { l with now := now }

/-- How many calls are still to be made. -/
def waitingCount (l : Loop) : Nat := l.calls.countP (·.state = .waiting)

/-- The call to be made next, if it is due at `limit` or before: the earliest due, and of several
the one asked for first. -/
def next? (l : Loop) (limit : Int) : Option (LaterCall × Nat) :=
  l.calls.zipIdx.foldl (fun best x =>
    if x.1.state = .waiting && x.1.due ≤ limit && best.all fun b => x.1.due < b.1.due then some x
    else best) none

end Loop

end SymbolAtlas
