/-!
# Timers

A timer waits for a moment of a millisecond clock and stands for a key. Each key has at most one
timer: scheduling it again starts the wait afresh. Timers are kept in the order in which they were
scheduled, which also decides between timers that are due at the same moment. They are all that
counts of a debouncer whose callbacks leave it alone.
-/

namespace SymbolAtlas

/-- A key and the moment at which its wait is over. -/
structure Timer where
  key : String
  due : Int
  deriving DecidableEq, Repr

/-- The clock and the timers still waiting, in the order of their scheduling. -/
structure Timers where
  now : Int
  waiting : List Timer
  deriving DecidableEq, Repr

namespace Timers

/-- A clock at zero without timers. -/
def start : Timers := ⟨0, []⟩

/-- The keys that are waiting, in the order of their scheduling. -/
def keys (t : Timers) : List String := t.waiting.map Timer.key

/-- Whether a key is waiting. -/
def isPending (t : Timers) (key : String) : Bool := t.waiting.any (·.key = key)

/-- Drops the timer of a key. -/
def cancel (t : Timers) (key : String) : Timers :=
  { t with waiting := t.waiting.filter (·.key ≠ key) }

/-- Starts the wait of a key afresh. -/
def schedule (t : Timers) (delay : Int) (key : String) : Timers :=
  { t with waiting := (t.cancel key).waiting ++ [⟨key, t.now + delay⟩] }

/-- Drops all timers. -/
def clear (t : Timers) : Timers := { t with waiting := [] }

/-- The timer to go off next, if that is at `limit` or before: the earliest due, and of several
the one scheduled first. -/
def next? (t : Timers) (limit : Int) : Option Timer :=
  t.waiting.foldl (fun best x =>
    if x.due ≤ limit && best.all fun b => x.due < b.due then some x else best) none

/-- Takes a timer out and sets the clock to the moment it was due. -/
def goOff (t : Timers) (timer : Timer) : Timers :=
  { t.cancel timer.key with now := timer.due }

/-- Sets the clock. -/
def setClock (t : Timers) (now : Int) : Timers := { t with now := now }

end Timers

end SymbolAtlas
