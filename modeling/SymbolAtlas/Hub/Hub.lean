import SymbolAtlas.Hub.Topic

/-!
# The hub

A hub delivers events to subscribers. An event goes, in the order of registration, to every
subscriber that was registered for its topic when the event was fired. Subscribers may register
and unregister each other and fire further events while one is delivered; that changes nothing
about the delivery under way. A failing subscriber keeps nobody else from an event.

What a subscriber does about an event is its *conduct*: one request to the hub after the other,
until it returns or fails. All that goes on is noted in a log, and the conduct of a subscriber may
depend on anything in it. Events that subscribers fire are nested within one another, down to some
limit; to fire yet another one then fails.
-/

namespace SymbolAtlas

namespace Registry

/-- Adds a subscriber at the end unless it is registered already. -/
def register {σ : Type} [DecidableEq σ] (subscribers : List σ) (s : σ) : List σ :=
  if s ∈ subscribers then subscribers else subscribers ++ [s]

/-- Takes a subscriber out. -/
def unregister {σ : Type} [DecidableEq σ] (subscribers : List σ) (s : σ) : List σ :=
  subscribers.filter (· ≠ s)

/-- Calls those who listen, in the order of registration. It goes by who is registered when it
begins. -/
def deliver {σ τ : Type} (listens : σ → Bool) (call : τ → σ → τ) (subscribers : List σ) (t : τ) :
    τ :=
  (subscribers.filter listens).foldl call t

end Registry

namespace Hub

/-- What can be asked of a hub. -/
inductive Request (α : Type) where
  | register (subscriber : String)
  | unregister (subscriber : String)
  | fire (topic : Topic) (argument : α)
  deriving DecidableEq, Repr

/-- How a request or a call came out. -/
inductive Outcome where
  | returned
  | failed
  deriving DecidableEq, Repr

/-- What is noted in the log. Firings go by their number, counted from zero. -/
inductive Note (α : Type) where
  | registered (subscriber : String)
  | unregistered (subscriber : String)
  | fired (topic : Topic) (argument : α)
  /-- An event was not fired because events are nested too deep already. -/
  | refused (topic : Topic) (argument : α)
  /-- A subscriber is called on account of a firing, without the argument if it takes none. -/
  | called (firing : Nat) (subscriber : String) (topic : Topic) (argument : Option α)
  | failed (firing : Nat) (subscriber : String)
  | ended (firing : Nat)
  deriving DecidableEq, Repr

/-- Whether an event was fired. -/
def Note.isFiring {α : Type} : Note α → Bool
  | .fired .. => true
  | _ => false

/-- What a subscriber does when it is called. How it goes on after a request may depend on the
outcome and on all that is in the log by then. -/
inductive Conduct (α : Type) where
  | returns
  | fails
  | asks (request : Request α) (next : Outcome → List (Note α) → Conduct α)

/-- What a subscriber has in place for a topic. -/
structure Listener (α : Type) where
  takesArgument : Bool
  conduct : Option α → List (Note α) → Conduct α

/-- The argument as a listener gets it. -/
def Listener.taken {α : Type} (l : Listener α) (argument : α) : Option α :=
  if l.takesArgument then some argument else none

end Hub

/-- The listeners of all subscribers there are, those registered, and the log. -/
structure Hub (α : Type) where
  listener? : String → Topic → Option (Hub.Listener α)
  registered : List String
  log : List (Hub.Note α)

namespace Hub

variable {α : Type}

/-- A hub on which nobody is registered. -/
def new (listener? : String → Topic → Option (Listener α)) : Hub α := ⟨listener?, [], []⟩

/-- Whether a subscriber is registered. -/
def isRegistered (h : Hub α) (subscriber : String) : Bool := h.registered.contains subscriber

/-- Whether a subscriber listens to a topic. -/
def listens (h : Hub α) (topic : Topic) (subscriber : String) : Bool :=
  (h.listener? subscriber topic).isSome

/-- The registered subscribers that listen to a topic, in the order of registration. -/
def listeners (h : Hub α) (topic : Topic) : List String := h.registered.filter (h.listens topic)

/-- Adds to the log. -/
def note (h : Hub α) (n : Note α) : Hub α := { h with log := h.log ++ [n] }

/-- Registers a subscriber. -/
def register (h : Hub α) (subscriber : String) : Hub α :=
  { h with registered := Registry.register h.registered subscriber }.note (.registered subscriber)

/-- Unregisters a subscriber. -/
def unregister (h : Hub α) (subscriber : String) : Hub α :=
  { h with registered := Registry.unregister h.registered subscriber }.note
    (.unregistered subscriber)

/-- Does what is requested, given how to fire events. -/
def perform (fire : Topic → α → Hub α → Hub α × Outcome) : Request α → Hub α → Hub α × Outcome
  | .register s, h => (h.register s, .returned)
  | .unregister s, h => (h.unregister s, .returned)
  | .fire topic argument, h => fire topic argument h

/-- Lets a subscriber have its way, given how requests are performed. -/
def carryOut (perform : Request α → Hub α → Hub α × Outcome) : Conduct α → Hub α → Hub α × Outcome
  | .returns, h => (h, .returned)
  | .fails, h => (h, .failed)
  | .asks request next, h =>
    let (h, outcome) := perform request h
    carryOut perform (next outcome h.log) h

/-- Calls one subscriber on account of a firing. Its failure is noted and goes no further. -/
def call (perform : Request α → Hub α → Hub α × Outcome) (firing : Nat) (topic : Topic)
    (argument : α) (h : Hub α) (subscriber : String) : Hub α :=
  match h.listener? subscriber topic with
  | none => h
  | some listener =>
    let taken := listener.taken argument
    let h := h.note (.called firing subscriber topic taken)
    let (h, outcome) := carryOut perform (listener.conduct taken h.log) h
    match outcome with
    | .returned => h
    | .failed => h.note (.failed firing subscriber)

/-- The number of firings in a log. -/
def firingCount (log : List (Note α)) : Nat := log.countP Note.isFiring

/-- Fires an event, in which events may be nested less than `depth` deep. -/
def fireWithin : (depth : Nat) → Topic → α → Hub α → Hub α × Outcome
  | 0, topic, argument, h => (h.note (.refused topic argument), .failed)
  | depth + 1, topic, argument, h =>
    let firing := firingCount h.log
    let call := call (perform (fireWithin depth)) firing topic argument
    let h := Registry.deliver (h.listens topic) call h.registered (h.note (.fired topic argument))
    (h.note (.ended firing), .returned)

/-- Does what is requested from outside, with events nested at most `limit` deep. -/
def request (h : Hub α) (limit : Nat) (r : Request α) : Hub α × Outcome :=
  perform (fireWithin (limit + 1)) r h

end Hub

end SymbolAtlas
