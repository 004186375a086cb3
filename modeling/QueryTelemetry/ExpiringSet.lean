import QueryTelemetry.Duration

/-!
# Sets whose members expire

An `ExpiringSet` holds a bounded number of keys, each for the same span of time. When it is full
and a new key comes, the key that was put in first has to go. Besides the keys with the instants at
which they expire, the set holds a queue of the pairs of a key and an instant in the order in which
they were put in. A key that is put in again leaves a pair with its old instant in the queue; such
a stale pair removes nothing when its turn comes.

Instants are nanoseconds after some fixed start, and nothing is assumed about their order.
-/

namespace QueryTelemetry

/-- An instant, in nanoseconds after a fixed start. -/
abbrev Instant := Int

/-- A bounded set of keys that expire. -/
structure ExpiringSet (κ : Type) where
  lifetime : Duration
  capacity : Nat
  /-- The keys with the instants at which they expire, each key once. -/
  members : List (κ × Instant)
  /-- The pairs in the order in which they were put in. -/
  queue : List (κ × Instant)

namespace ExpiringSet

variable {κ : Type} [DecidableEq κ]

/-- Longer lifetimes are cut down to a hundred years. -/
def longestLifetime : Duration := Duration.ofWholeSeconds (100 * 365 * 24 * 3600)

/-- A set without members. It has room for one key at least. -/
def empty (capacity : Nat) (lifetime : Duration) : ExpiringSet κ where
  lifetime := lifetime.min longestLifetime
  capacity := max capacity 1
  members := []
  queue := []

/-- The number of members, expired or not. -/
def size (s : ExpiringSet κ) : Nat := s.members.length

/-- The instant at which a member expires. -/
def expiry? (s : ExpiringSet κ) (key : κ) : Option Instant := s.members.lookup key

/-- Whether a key is a member, expired or not. -/
def holds (s : ExpiringSet κ) (key : κ) : Bool := (s.expiry? key).isSome

/-- Removes a key from a list of members. -/
def without (members : List (κ × Instant)) (key : κ) : List (κ × Instant) :=
  members.filter fun (other, _) => other ≠ key

/-- Removes the member that a pair of the queue stands for; nothing if the pair is stale. -/
def release (members : List (κ × Instant)) (pair : κ × Instant) : List (κ × Instant) :=
  if members.lookup pair.1 = some pair.2 then without members pair.1 else members

/-- Takes the pairs that have expired off the front of the queue, up to the first that has not. -/
def expire (now : Instant) (members : List (κ × Instant)) :
    (queue : List (κ × Instant)) → List (κ × Instant) × List (κ × Instant)
  | [] => (members, [])
  | pair :: queue =>
    if now < pair.2 then (members, pair :: queue)
    else expire now (release members pair) queue

/-- Removes the members that have expired, as far as the queue shows them. -/
def purge (now : Instant) (s : ExpiringSet κ) : ExpiringSet κ :=
  let (members, queue) := expire now s.members s.queue
  { s with members, queue }

/-- Takes pairs off the queue until fewer than `capacity` members are left or the queue is empty. -/
def makeRoom (capacity : Nat) (members : List (κ × Instant)) :
    (queue : List (κ × Instant)) → List (κ × Instant) × List (κ × Instant)
  | [] => (members, [])
  | pair :: queue =>
    if members.length < capacity then (members, pair :: queue)
    else makeRoom capacity (release members pair) queue

/-- Whether a key is a member that has not expired. -/
def contains (now : Instant) (key : κ) (s : ExpiringSet κ) : Bool × ExpiringSet κ :=
  let s := s.purge now
  (s.holds key, s)

/-- Puts a key in, or makes it last a lifetime from now on. -/
def insert (now : Instant) (key : κ) (s : ExpiringSet κ) : ExpiringSet κ :=
  let s := s.purge now
  let (members, queue) :=
    if s.holds key then (s.members, s.queue) else makeRoom s.capacity s.members s.queue
  let expiry := now + s.lifetime.nanoseconds
  { s with
    members := (key, expiry) :: without members key
    queue := queue ++ [(key, expiry)] }

/-- Puts a key in unless it is a member that has not expired; whether it was put in. -/
def insertIfAbsent (now : Instant) (key : κ) (s : ExpiringSet κ) : Bool × ExpiringSet κ :=
  let (present, s) := s.contains now key
  if present then (false, s) else (true, s.insert now key)

end ExpiringSet

end QueryTelemetry
