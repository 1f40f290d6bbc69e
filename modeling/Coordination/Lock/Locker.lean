import Coordination.Duration

/-!
The lock service: at most one holder per key, whose token is the only one that releases it. A
call that finds its key held waits for the release signal of the holder it saw; when that signal
has fired, all its waiters try again, in any order.

The service is a machine. A label is a call or a step of a call or timer that was started earlier,
at the grain of the points where a call can be suspended; a label whose step cannot be taken in a
state has no successor. Calls are numbered by their callers, and tokens come with the labels that
may grant a lock; what it means for them to be new is said where runs are built.
-/

namespace Coordination.Lock

/-- Why a lock could not be taken or released. -/
inductive Error where
  /-- The caller gave up while it waited. -/
  | cancelled
  /-- The key was found held as often as the caller allowed. -/
  | maxAttempts
  /-- The key is not held with this token. -/
  | notFound
  | unknownBackend (name : String)
  deriving DecidableEq, Repr

def Error.message : Error → String
  | .cancelled => "lock wait was cancelled"
  | .maxAttempts => "maximum number of attempts reached"
  | .notFound => "lock does not exist"
  | .unknownBackend name => "unknown locker backend: " ++ name

/-- The wishes of one call. -/
structure Options where
  /-- Give up when the key was found held this many times; zero for never. -/
  maxAttempts : Nat := 0
  /-- Release the lock after this time. -/
  expiration : Option Duration := none
  deriving DecidableEq, Repr

def Options.exhausted (o : Options) (attempts : Nat) : Bool :=
  0 < o.maxAttempts ∧ o.maxAttempts ≤ attempts

structure Waiter (τ : Type) where
  /-- The number that its caller gave it. -/
  call : Nat
  key : String
  options : Options
  /-- How often the call found its key held. -/
  attempts : Nat
  /-- The token of the holder whose release the call waits for. -/
  signal : τ
  cancelled : Bool
  deriving DecidableEq, Repr

/-- The end of the lifetime of a lock. -/
structure Timer (τ : Type) where
  key : String
  owner : τ
  due : Nat
  deriving DecidableEq, Repr

/-- A lock service over tokens `τ`. -/
structure Locker (τ : Type) where
  /-- The held keys, each with the token of its holder. -/
  records : List (String × τ) := []
  /-- Tokens whose release signal has fired. -/
  released : List τ := []
  /-- The calls that wait, those that wait longest first. -/
  waiting : List (Waiter τ) := []
  timers : List (Timer τ) := []
  /-- Nanoseconds since the start. -/
  now : Nat := 0
  deriving DecidableEq, Repr

inductive Event (τ : Type) where
  /-- A call got the key; its record is in place. -/
  | granted (call : Nat) (key : String) (token : τ)
  | failed (call : Nat) (error : Error)
  /-- A call began to wait for the holder with this token. -/
  | waits (call : Nat) (holder : τ)
  /-- A record was removed, by a release or by its timer. -/
  | removed (key : String) (token : τ)
  /-- A release named a token that does not hold the key. -/
  | refused (key : String) (token : τ)
  deriving DecidableEq, Repr

/-- Calls, and the steps of what is under way. -/
inductive Label (τ : Type) where
  /-- A new call, which takes `fresh` as its token if it finds the key free. Its number may not be
  that of a call that waits. -/
  | lock (call : Nat) (key : String) (options : Options) (cancelled : Bool) (fresh : τ)
  /-- A call whose signal has fired tries again. -/
  | retry (call : Nat) (fresh : τ)
  | cancel (call : Nat)
  | giveUp (call : Nat)
  /-- The caller of a waiting call goes away. -/
  | drop (call : Nat)
  | release (key : String) (token : τ)
  /-- A timer that is due removes its lock, if that is still held. -/
  | expire (key : String) (owner : τ)
  | tick (now : Nat)
  deriving DecidableEq, Repr

namespace Locker

variable {τ : Type} [DecidableEq τ]

def holder? (l : Locker τ) (key : String) : Option τ := l.records.lookup key

def isLocked (l : Locker τ) (key : String) : Bool := (l.holder? key).isSome

def signalled (l : Locker τ) (token : τ) : Bool := l.released.contains token

/-- The record of a grant, with its timer if the lock is to expire. -/
def grant (l : Locker τ) (key : String) (options : Options) (fresh : τ) : Locker τ :=
  { l with
    records := (key, fresh) :: l.records
    timers := match options.expiration with
      | some after => ⟨key, fresh, l.now + after.nanos⟩ :: l.timers
      | none => l.timers }

/-- One look at the key: a free one is taken, and a held one is counted, which ends the call if
that was the last time allowed. -/
def attempt (l : Locker τ) (w : Waiter τ) (fresh : τ) : Locker τ × List (Event τ) :=
  match l.holder? w.key with
  | none => (l.grant w.key w.options fresh, [.granted w.call w.key fresh])
  | some holder =>
    if w.options.exhausted (w.attempts + 1) then (l, [.failed w.call .maxAttempts])
    else
      ({ l with waiting := l.waiting ++ [{ w with attempts := w.attempts + 1, signal := holder }] },
        [.waits w.call holder])

/-- Remove the record of a key, if `owner` holds it, and fire its release signal. -/
def remove (l : Locker τ) (key : String) (owner : τ) : Option (Locker τ) :=
  if l.holder? key = some owner then
    some { l with
      records := l.records.filter fun r => r.1 ≠ key
      released := owner :: l.released }
  else none

def waiter? (l : Locker τ) (call : Nat) : Option (Waiter τ) :=
  l.waiting.find? fun w => w.call = call

def forget (l : Locker τ) (call : Nat) : Locker τ :=
  { l with waiting := l.waiting.filter fun w => w.call ≠ call }

def lock (l : Locker τ) (call : Nat) (key : String) (options : Options) (cancelled : Bool)
    (fresh : τ) : Option (Locker τ × List (Event τ)) :=
  if (l.waiter? call).isSome then none
  else some (l.attempt ⟨call, key, options, 0, fresh, cancelled⟩ fresh)

def retry (l : Locker τ) (call : Nat) (fresh : τ) : Option (Locker τ × List (Event τ)) :=
  match l.waiter? call with
  | some w => if l.signalled w.signal then some (attempt (l.forget call) w fresh) else none
  | none => none

def cancel (l : Locker τ) (call : Nat) : Locker τ :=
  { l with
    waiting := l.waiting.map fun w => if w.call = call then { w with cancelled := true } else w }

def giveUp (l : Locker τ) (call : Nat) : Option (Locker τ × List (Event τ)) :=
  match l.waiter? call with
  | some w => if w.cancelled then some (l.forget call, [.failed call .cancelled]) else none
  | none => none

def release (l : Locker τ) (key : String) (token : τ) : Locker τ × List (Event τ) :=
  match l.remove key token with
  | some l' => (l', [.removed key token])
  | none => (l, [.refused key token])

/-- A timer that is due, or whose lock has gone, ends; one whose lock is held removes it. -/
def expire (l : Locker τ) (key : String) (owner : τ) : Option (Locker τ × List (Event τ)) :=
  match l.timers.find? fun t => t.key = key ∧ t.owner = owner with
  | none => none
  | some t =>
    let rest := { l with timers := l.timers.erase t }
    if l.signalled owner then some (rest, [])
    else if t.due ≤ l.now then
      match rest.remove key owner with
      | some l' => some (l', [.removed key owner])
      | none => some (rest, [])
    else none

def step (l : Locker τ) : Label τ → Option (Locker τ × List (Event τ))
  | .lock call key options cancelled fresh => l.lock call key options cancelled fresh
  | .retry call fresh => l.retry call fresh
  | .cancel call => some (l.cancel call, [])
  | .giveUp call => l.giveUp call
  | .drop call => some (l.forget call, [])
  | .release key token => some (l.release key token)
  | .expire key owner => l.expire key owner
  | .tick now => if l.now ≤ now then some ({ l with now }, []) else none

end Locker

end Coordination.Lock
