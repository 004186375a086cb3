import Mathlib.Data.List.Nodup
import Mathlib.Data.List.Perm.Subperm
import QueryTelemetry.ExpiringSet
import QueryTelemetry.Statement

/-!
# When members expire

Pairs leave the queue at its front only, up to the first that has not expired. This ends the members
that have expired and no others, as long as each member has its pair in the queue and the pairs
stand in the order in which they expire (`lookup_expire`). All members last equally long, so
instants that do not decrease keep that order (`InOrder.insertIfAbsent`), and a key that is put in
counts as a member until its lifetime is over (`isLive_insertIfAbsent`).

A set that has room for all keys that come up never gives up a member before its time.
-/

namespace QueryTelemetry

namespace ExpiringSet

variable {κ : Type} [DecidableEq κ] {members queue : List (κ × Instant)} {now : Instant}

/-! ### Members -/

/-- Removing a key leaves the other members alone. -/
theorem lookup_without (members : List (κ × Instant)) (key other : κ) :
    (without members key).lookup other = if other = key then none else members.lookup other := by
  induction members with
  | nil => simp [without]
  | cons first rest ih =>
    obtain ⟨k, expiry⟩ := first
    by_cases hk : k = key
    · subst hk
      have hwithout : without ((k, expiry) :: rest) k = without rest k := by simp [without]
      rw [hwithout, ih, lookup_cons_eq]
      split <;> simp_all
    · have hwithout : without ((k, expiry) :: rest) key = (k, expiry) :: without rest key := by
        simp [without, hk]
      rw [hwithout, lookup_cons_eq, lookup_cons_eq, ih]
      by_cases hother : other = k
      · rw [if_pos hother, if_pos hother, if_neg (hother ▸ hk)]
      · rw [if_neg hother, if_neg hother]

/-- A release ends the member that the pair stands for, and no other. -/
theorem lookup_release (members : List (κ × Instant)) (pair : κ × Instant) (key : κ) :
    (release members pair).lookup key =
      if key = pair.1 ∧ members.lookup key = some pair.2 then none else members.lookup key := by
  rw [release]
  by_cases hpair : members.lookup pair.1 = some pair.2
  · rw [if_pos hpair, lookup_without]
    by_cases hkey : key = pair.1
    · rw [if_pos hkey, if_pos ⟨hkey, hkey ▸ hpair⟩]
    · rw [if_neg hkey, if_neg fun h => hkey h.1]
  · rw [if_neg hpair, if_neg]
    rintro ⟨rfl, h⟩
    exact hpair h

theorem release_sublist (members : List (κ × Instant)) (pair : κ × Instant) :
    (release members pair).Sublist members := by
  rw [release]
  split
  · exact List.filter_sublist
  · exact List.Sublist.refl members

/-! ### The queue -/

/-- Each member has its pair in the queue. -/
def IsQueued (members queue : List (κ × Instant)) : Prop :=
  ∀ key expiry, members.lookup key = some expiry → (key, expiry) ∈ queue

/-- Pairs stand in the order in which they expire. -/
def IsSorted (queue : List (κ × Instant)) : Prop :=
  queue.Pairwise fun first second => first.2 ≤ second.2

/-- When a pair leaves the queue, its member is released. -/
theorem IsQueued.release {pair : κ × Instant} (h : IsQueued members (pair :: queue)) :
    IsQueued (release members pair) queue := by
  intro key expiry hmember
  rw [lookup_release] at hmember
  split at hmember
  · cases hmember
  · rename_i hother
    rcases List.mem_cons.mp (h key expiry hmember) with rfl | hqueue
    · exact absurd ⟨rfl, hmember⟩ hother
    · exact hqueue

/-- Pairs are taken off the front of the queue, and their members released. -/
inductive Drains : (members queue members' queue' : List (κ × Instant)) → Prop
  | done {members queue : List (κ × Instant)} : Drains members queue members queue
  | release {members queue members' queue' : List (κ × Instant)} {pair : κ × Instant} :
    Drains (release members pair) queue members' queue' →
    Drains members (pair :: queue) members' queue'

section

variable {members' queue' : List (κ × Instant)}

theorem IsQueued.drains (h : IsQueued members queue)
    (hdrains : Drains members queue members' queue') : IsQueued members' queue' := by
  induction hdrains with
  | done => exact h
  | release _ ih => exact ih h.release

theorem Drains.members_sublist (h : Drains members queue members' queue') :
    members'.Sublist members := by
  induction h with
  | done => exact List.Sublist.refl _
  | release _ ih => exact ih.trans (release_sublist _ _)

theorem Drains.queue_sublist (h : Drains members queue members' queue') : queue'.Sublist queue := by
  induction h with
  | done => exact List.Sublist.refl _
  | release _ ih => exact ih.trans (List.sublist_cons_self _ _)

end

theorem drains_expire (now : Instant) (members queue : List (κ × Instant)) :
    Drains members queue (expire now members queue).1 (expire now members queue).2 := by
  induction queue generalizing members with
  | nil => exact .done
  | cons pair queue ih =>
    rw [expire]
    split
    · exact .done
    · exact .release (ih _)

theorem drains_makeRoom (capacity : Nat) (members queue : List (κ × Instant)) :
    Drains members queue (makeRoom capacity members queue).1
      (makeRoom capacity members queue).2 := by
  induction queue generalizing members with
  | nil => exact .done
  | cons pair queue ih =>
    rw [makeRoom]
    split
    · exact .done
    · exact .release (ih _)

/-- Exactly the members that have expired are ended. -/
theorem lookup_expire (hqueued : IsQueued members queue) (hsorted : IsSorted queue) (key : κ) :
    (expire now members queue).1.lookup key =
      (members.lookup key).filter fun expiry => decide (now < expiry) := by
  induction queue generalizing members with
  | nil =>
    cases hmember : members.lookup key with
    | none => exact hmember
    | some expiry => cases hqueued key expiry hmember
  | cons pair queue ih =>
    rw [IsSorted, List.pairwise_cons] at hsorted
    rw [expire]
    by_cases hpair : now < pair.2
    · -- the first pair has not expired, so no member has
      rw [if_pos hpair]
      cases hmember : members.lookup key with
      | none => rfl
      | some expiry =>
        have hlater : now < expiry := by
          rcases List.mem_cons.mp (hqueued key expiry hmember) with rfl | hqueue
          · exact hpair
          · exact Int.lt_of_lt_of_le hpair (hsorted.1 _ hqueue)
        rw [Option.filter_some, if_pos (decide_eq_true hlater)]
    · rw [if_neg hpair, ih hqueued.release hsorted.2, lookup_release]
      split
      · rename_i h
        rw [h.2, Option.filter_some, if_neg (by simpa using hpair)]
        rfl
      · rfl

/-! ### Sets in order -/

/-- Whether a key is a member at an instant, unless it is given up before. -/
def isLive (now : Instant) (key : κ) (s : ExpiringSet κ) : Bool :=
  (s.expiry? key).any fun expiry => decide (now < expiry)

/-- A set to which nothing has been done after an instant, and to which keys have been put in at
instants that did not decrease. -/
structure InOrder (now : Instant) (s : ExpiringSet κ) : Prop where
  queued : IsQueued s.members s.queue
  sorted : IsSorted s.queue
  bounded : ∀ pair ∈ s.queue, pair.2 ≤ now + s.lifetime.nanoseconds
  nodup : (s.members.map (·.1)).Nodup

/-- All members are among the given keys, and there is room for all of them. -/
structure HasRoomFor (keys : List κ) (s : ExpiringSet κ) : Prop where
  members_subset : s.members.map (·.1) ⊆ keys
  length_le : keys.length ≤ s.capacity

theorem inOrder_empty (capacity : Nat) (lifetime : Duration) (now : Instant) :
    (empty capacity lifetime : ExpiringSet κ).InOrder now :=
  ⟨nofun, List.Pairwise.nil, nofun, List.nodup_nil⟩

variable {s : ExpiringSet κ} {key : κ}

theorem InOrder.mono (h : s.InOrder now) {later : Instant} (hle : now ≤ later) : s.InOrder later :=
  ⟨h.queued, h.sorted,
    fun pair hpair => Int.le_trans (h.bounded pair hpair) (Int.add_le_add_right hle _), h.nodup⟩

/-- Taking pairs off the queue keeps a set in order. -/
theorem InOrder.drains (h : s.InOrder now) (hdrains : Drains s.members s.queue members queue) :
    { s with members, queue }.InOrder now where
  queued := h.queued.drains hdrains
  sorted := h.sorted.sublist hdrains.queue_sublist
  bounded pair hpair := h.bounded pair (hdrains.queue_sublist.subset hpair)
  nodup := h.nodup.sublist (hdrains.members_sublist.map _)

theorem InOrder.purge (h : s.InOrder now) (later : Instant) : (s.purge later).InOrder now :=
  h.drains (drains_expire later s.members s.queue)

theorem HasRoomFor.purge {keys : List κ} (h : s.HasRoomFor keys) (now : Instant) :
    (s.purge now).HasRoomFor keys where
  members_subset := fun _ hmember => h.members_subset
    (((drains_expire now s.members s.queue).members_sublist.map _).subset hmember)
  length_le := h.length_le

/-- What is left are the members that have not expired. -/
theorem expiry?_purge (h : s.InOrder now) (later : Instant) (key : κ) :
    (s.purge later).expiry? key = (s.expiry? key).filter fun expiry => decide (later < expiry) :=
  lookup_expire h.queued h.sorted key

theorem holds_purge (h : s.InOrder now) (later : Instant) (key : κ) :
    (s.purge later).holds key = s.isLive later key := by
  rw [holds, expiry?_purge h, isLive]
  cases s.expiry? key with
  | none => rfl
  | some expiry =>
    rw [Option.filter_some, Option.any_some]
    split <;> simp_all

/-- Purging makes no difference for later instants. -/
theorem isLive_purge (h : s.InOrder now) {later : Instant} {instant : Instant}
    (hle : instant ≤ later) (key : κ) :
    (s.purge instant).isLive later key = s.isLive later key := by
  rw [isLive, isLive, expiry?_purge h]
  cases s.expiry? key with
  | none => rfl
  | some expiry =>
    rw [Option.filter_some, Option.any_some]
    split
    · rfl
    · rename_i hexpired
      rw [decide_eq_true_iff, Int.not_lt] at hexpired
      exact (decide_eq_false (Int.not_lt.mpr (Int.le_trans hexpired hle))).symm

/-! ### Putting keys in -/

/-- A key is found among the members if it is one of their keys. -/
theorem isSome_lookup_iff (members : List (κ × Instant)) (key : κ) :
    (members.lookup key).isSome = true ↔ key ∈ members.map (·.1) := by
  induction members with
  | nil => simp
  | cons first rest ih =>
    obtain ⟨k, expiry⟩ := first
    rw [lookup_cons_eq, List.map_cons, List.mem_cons]
    split <;> simp_all

omit [DecidableEq κ] in
/-- If one of the keys is no member, the set is not full. -/
theorem HasRoomFor.length_members_lt {keys : List κ} (h : s.HasRoomFor keys)
    (hnodup : (s.members.map (·.1)).Nodup) (hkey : key ∈ keys)
    (habsent : key ∉ s.members.map (·.1)) : s.members.length < s.capacity := by
  have hsubset : key :: s.members.map (·.1) ⊆ keys :=
    List.cons_subset.mpr ⟨hkey, h.members_subset⟩
  have hlength := (List.subperm_of_subset (List.nodup_cons.mpr ⟨habsent, hnodup⟩) hsubset).length_le
  rw [List.length_cons, List.length_map] at hlength
  have hkeys := h.length_le
  omega

/-- A purge makes no difference to a later one. -/
theorem purge_purge_of_le {later : Instant} (hle : now ≤ later) (s : ExpiringSet κ) :
    (s.purge now).purge later = s.purge later := by
  have hexpire : ∀ members queue : List (κ × Instant),
      expire later (expire now members queue).1 (expire now members queue).2 =
        expire later members queue := by
    intro members queue
    induction queue generalizing members with
    | nil => rfl
    | cons pair queue ih =>
      by_cases hpair : now < pair.2
      · rw [expire, if_pos hpair]
      · have hlater : ¬ later < pair.2 := fun h => hpair (Int.lt_of_le_of_lt hle h)
        rw [expire, if_neg hpair, ih, expire, if_neg hlater]
  simp only [purge, hexpire]

/-- What is left behind a purge is left behind another one at the same instant. -/
theorem purge_purge (now : Instant) (s : ExpiringSet κ) :
    (s.purge now).purge now = s.purge now :=
  purge_purge_of_le (Int.le_refl now) s

/-- The set that a key is put into: purged, and with room for the key unless it is a member. -/
def readied (now : Instant) (key : κ) (s : ExpiringSet κ) : ExpiringSet κ :=
  let s := s.purge now
  if s.holds key then s
  else { s with
    members := (makeRoom s.capacity s.members s.queue).1
    queue := (makeRoom s.capacity s.members s.queue).2 }

/-- The set with a key that expires at some instant. -/
def put (expiry : Instant) (key : κ) (s : ExpiringSet κ) : ExpiringSet κ :=
  { s with
    members := (key, expiry) :: without s.members key
    queue := s.queue ++ [(key, expiry)] }

theorem insert_eq_put (now : Instant) (key : κ) (s : ExpiringSet κ) :
    s.insert now key = (s.readied now key).put (now + s.lifetime.nanoseconds) key := by
  rw [insert, readied]
  by_cases hholds : (s.purge now).holds key = true
  · simp only [if_pos hholds]
    rfl
  · simp only [if_neg hholds]
    rfl

theorem expiry?_put (expiry : Instant) (key other : κ) (s : ExpiringSet κ) :
    (s.put expiry key).expiry? other = if other = key then some expiry else s.expiry? other := by
  rw [put, expiry?, lookup_cons_eq, lookup_without]
  split <;> rfl

/-- The key that is put in is a member once. -/
theorem nodup_put (h : (s.members.map (·.1)).Nodup) (expiry : Instant) (key : κ) :
    ((s.put expiry key).members.map (·.1)).Nodup := by
  rw [put, List.map_cons, List.nodup_cons]
  refine ⟨?_, h.sublist (List.filter_sublist.map _)⟩
  rw [← isSome_lookup_iff, lookup_without, if_pos rfl]
  exact Bool.false_ne_true

/-- The key that is put in has its pair at the end of the queue. -/
theorem isQueued_put (h : IsQueued s.members s.queue) (expiry : Instant) (key : κ) :
    IsQueued (s.put expiry key).members (s.put expiry key).queue := by
  intro other instant hmember
  rw [put, List.mem_append, List.mem_singleton]
  have hother := (expiry?_put expiry key other s).symm.trans hmember
  split at hother
  · rename_i hsame
    obtain rfl := Option.some.inj hother
    exact .inr (by rw [hsame])
  · exact .inl (h other instant hother)

/-- Putting a key in begins with a purge. -/
theorem insert_purge (now : Instant) (key : κ) (s : ExpiringSet κ) :
    (s.purge now).insert now key = s.insert now key := by
  rw [insert, insert, purge_purge]

theorem drains_readied (now : Instant) (key : κ) (s : ExpiringSet κ) :
    Drains (s.purge now).members (s.purge now).queue (s.readied now key).members
      (s.readied now key).queue := by
  rw [readied]
  by_cases hholds : (s.purge now).holds key = true
  · rw [if_pos hholds]
    exact .done
  · rw [if_neg hholds]
    exact drains_makeRoom _ _ _

theorem lifetime_readied (now : Instant) (key : κ) (s : ExpiringSet κ) :
    (s.readied now key).lifetime = s.lifetime := by
  rw [readied]
  split <;> rfl

theorem capacity_readied (now : Instant) (key : κ) (s : ExpiringSet κ) :
    (s.readied now key).capacity = s.capacity := by
  rw [readied]
  split <;> rfl

/-- Where there is room already, nothing is done. -/
theorem makeRoom_of_lt {capacity : Nat} (h : members.length < capacity)
    (queue : List (κ × Instant)) :
    makeRoom capacity members queue = (members, queue) := by
  cases queue with
  | nil => rfl
  | cons pair queue => rw [makeRoom, if_pos h]

/-- Where there is room, no member is given up. -/
theorem readied_of_room (hroom : (s.purge now).members.length < s.capacity) (key : κ) :
    s.readied now key = s.purge now := by
  have hmakeRoom : makeRoom (s.purge now).capacity (s.purge now).members (s.purge now).queue =
      ((s.purge now).members, (s.purge now).queue) := makeRoom_of_lt hroom _
  simp only [readied, hmakeRoom, ite_self]

/-- The key that is put in lasts a lifetime from now on. -/
theorem expiry?_insert (hroom : (s.purge now).members.length < s.capacity) (key other : κ) :
    (s.insert now key).expiry? other =
      if other = key then some (now + s.lifetime.nanoseconds) else (s.purge now).expiry? other := by
  rw [insert_eq_put, expiry?_put, readied_of_room hroom]

section

variable {keys : List κ} {later : Instant}

theorem InOrder.readied (h : s.InOrder now) (later : Instant) (key : κ) :
    (s.readied later key).InOrder now := by
  have hdrained := (h.purge later).drains (drains_readied later key s)
  exact ⟨hdrained.queued, hdrained.sorted, lifetime_readied later key s ▸ hdrained.bounded,
    hdrained.nodup⟩

/-- The pair of the key that is put in expires last. -/
theorem InOrder.put (h : s.InOrder now) (key : κ) :
    (s.put (now + s.lifetime.nanoseconds) key).InOrder now := by
  refine ⟨isQueued_put h.queued _ key, ?_, fun pair hpair => ?_, nodup_put h.nodup _ key⟩
  · rw [IsSorted, ExpiringSet.put, List.pairwise_append]
    refine ⟨h.sorted, List.pairwise_singleton _ _, fun pair hpair last hlast => ?_⟩
    obtain rfl := List.mem_singleton.mp hlast
    exact h.bounded pair hpair
  · rcases List.mem_append.mp hpair with hpair | hpair
    · exact h.bounded pair hpair
    · obtain rfl := List.mem_singleton.mp hpair
      exact Int.le_refl _

theorem InOrder.insert (h : s.InOrder now) (hle : now ≤ later) (key : κ) :
    (s.insert later key).InOrder later := by
  have hput := ((h.readied later key).mono hle).put key
  rwa [lifetime_readied, ← insert_eq_put] at hput

theorem HasRoomFor.insert (h : s.HasRoomFor keys) (hkey : key ∈ keys) (now : Instant) :
    (s.insert now key).HasRoomFor keys := by
  have hreadied := (drains_readied now key s).members_sublist
  rw [insert_eq_put, ExpiringSet.put]
  refine ⟨List.cons_subset.mpr ⟨hkey, fun other hother => ?_⟩, ?_⟩
  · exact (h.purge now).members_subset
      (((List.filter_sublist.trans hreadied).map _).subset hother)
  · exact Nat.le_trans h.length_le (Nat.le_of_eq (capacity_readied now key s).symm)

/-! ### Putting keys in that are no members -/

/-- A member that has not expired stays as it is. -/
theorem insertIfAbsent_of_isLive (h : s.InOrder now) (hlive : s.isLive later key = true) :
    s.insertIfAbsent later key = (false, s.purge later) := by
  rw [← holds_purge h] at hlive
  rw [insertIfAbsent, contains]
  exact if_pos hlive

/-- Any other key is put in. -/
theorem insertIfAbsent_of_not_isLive (h : s.InOrder now) (hlive : s.isLive later key = false) :
    s.insertIfAbsent later key = (true, s.insert later key) := by
  rw [← holds_purge h] at hlive
  rw [insertIfAbsent, contains, ← insert_purge]
  exact if_neg (Bool.eq_false_iff.mp hlive)

/-- For a key that is no member there is room, if there is room for all keys. -/
theorem length_purge_lt (h : s.InOrder now) (hroom : s.HasRoomFor keys) (hkey : key ∈ keys)
    (hlive : s.isLive later key = false) : (s.purge later).members.length < s.capacity := by
  refine (hroom.purge later).length_members_lt (h.purge later).nodup hkey ?_
  rw [← isSome_lookup_iff]
  rw [← holds_purge h] at hlive
  exact Bool.eq_false_iff.mp hlive

theorem InOrder.insertIfAbsent (h : s.InOrder now) (hle : now ≤ later) (key : κ) :
    (s.insertIfAbsent later key).2.InOrder later := by
  cases hlive : s.isLive later key with
  | true =>
    rw [insertIfAbsent_of_isLive h hlive]
    exact (h.purge later).mono hle
  | false =>
    rw [insertIfAbsent_of_not_isLive h hlive]
    exact h.insert hle key

theorem HasRoomFor.insertIfAbsent (hroom : s.HasRoomFor keys) (h : s.InOrder now)
    (hkey : key ∈ keys) : (s.insertIfAbsent later key).2.HasRoomFor keys := by
  cases hlive : s.isLive later key with
  | true =>
    rw [insertIfAbsent_of_isLive h hlive]
    exact hroom.purge later
  | false =>
    rw [insertIfAbsent_of_not_isLive h hlive]
    exact hroom.insert hkey later

/-- A key that is put in is a member until its lifetime is over. For every other key, and for one
that is a member already, nothing changes from now on. -/
theorem isLive_insertIfAbsent (h : s.InOrder now) (hroom : s.HasRoomFor keys) (hkey : key ∈ keys)
    {instant : Instant} (hle : later ≤ instant) (other : κ) :
    (s.insertIfAbsent later key).2.isLive instant other =
      if other = key ∧ s.isLive later key = false then
        decide (instant < later + s.lifetime.nanoseconds)
      else s.isLive instant other := by
  cases hlive : s.isLive later key with
  | true =>
    rw [insertIfAbsent_of_isLive h hlive, if_neg (fun hother => Bool.noConfusion hother.2)]
    exact isLive_purge h hle other
  | false =>
    have hexpiry := expiry?_insert (length_purge_lt h hroom hkey hlive) key other
    rw [insertIfAbsent_of_not_isLive h hlive, isLive, hexpiry]
    by_cases hother : other = key
    · rw [if_pos hother, if_pos ⟨hother, rfl⟩]
      rfl
    · rw [if_neg hother, if_neg fun hsame => hother hsame.1]
      exact isLive_purge h hle other

theorem lifetime_insertIfAbsent (h : s.InOrder now) (key : κ) :
    (s.insertIfAbsent later key).2.lifetime = s.lifetime := by
  cases hlive : s.isLive later key with
  | true =>
    rw [insertIfAbsent_of_isLive h hlive]
    rfl
  | false =>
    rw [insertIfAbsent_of_not_isLive h hlive]
    rfl

end

end ExpiringSet

end QueryTelemetry
