import QueryTelemetry.Proofs.ExpiringSet.Expiry

/-!
# Keys put in at one instant

Nothing is assumed here about the order in which instants come. A set that has been purged at an
instant and has room (`IsSettled`) stays so when a key is put in at this instant: the pair of the
key stands last in the queue and does not expire at once. So keys that are no members can be put in
one after the other, each of them lasts a lifetime, and for every other key it makes no difference
at any later instant (`Admits`).
-/

namespace QueryTelemetry

namespace ExpiringSet

variable {κ : Type} [DecidableEq κ] {members members' queue : List (κ × Instant)}
  {now later expiry : Instant} {key other : κ} {keys : List κ} {s s' : ExpiringSet κ}

/-! ### Purging -/

theorem length_expire_le (now : Instant) (members queue : List (κ × Instant)) :
    (expire now members queue).2.length ≤ queue.length :=
  (drains_expire now members queue).queue_sublist.length_le

/-- Nothing is purged if the first pair has not expired. -/
theorem purge_eq_self_iff : s.purge now = s ↔ ∀ pair ∈ s.queue.head?, now < pair.2 := by
  obtain ⟨lifetime, capacity, members, queue⟩ := s
  cases queue with
  | nil => exact ⟨fun _ => nofun, fun _ => rfl⟩
  | cons pair queue =>
    have hhead : (∀ first ∈ (pair :: queue).head?, now < first.2) ↔ now < pair.2 := by simp
    rw [hhead, purge, expire]
    by_cases hpair : now < pair.2
    · rw [if_pos hpair]
      exact iff_of_true rfl hpair
    · rw [if_neg hpair]
      refine iff_of_false (fun h => ?_) hpair
      -- the queue would have become shorter
      have hqueue : (expire now (release members pair) queue).2 = pair :: queue :=
        congrArg ExpiringSet.queue h
      have hlength := length_expire_le now (release members pair) queue
      rw [hqueue, List.length_cons] at hlength
      exact Nat.not_succ_le_self _ hlength

/-- A member that has not expired stays. -/
theorem lookup_expire_of_lt (hmember : members.lookup key = some expiry) (hlater : later < expiry) :
    (expire later members queue).1.lookup key = some expiry := by
  induction queue generalizing members with
  | nil => exact hmember
  | cons pair queue ih =>
    rw [expire]
    split
    · exact hmember
    · rename_i hpair
      refine ih ?_
      rw [lookup_release, if_neg]
      · exact hmember
      · rintro ⟨-, hsame⟩
        rw [Option.some.inj (hmember.symm.trans hsame)] at hlater
        exact hpair hlater

/-- The last pair makes no difference to other keys than its own. -/
theorem lookup_expire_concat (hmembers : members'.lookup other = members.lookup other)
    {pair : κ × Instant} (hne : other ≠ pair.1) :
    (expire later members' (queue ++ [pair])).1.lookup other =
      (expire later members queue).1.lookup other := by
  induction queue generalizing members members' with
  | nil =>
    by_cases hpair : later < pair.2
    · simpa only [List.nil_append, expire, if_pos hpair] using hmembers
    · simp only [List.nil_append, expire, if_neg hpair]
      rw [lookup_release, if_neg fun h => hne h.1]
      exact hmembers
  | cons first queue ih =>
    rw [List.cons_append, expire, expire]
    split
    · exact hmembers
    · refine ih ?_
      rw [lookup_release, lookup_release, hmembers]

/-! ### Sets in shape -/

/-- A set with some capacity and lifetime, each member once. -/
structure HasShape (capacity : Nat) (lifetime : Duration) (s : ExpiringSet κ) : Prop where
  nodup : (s.members.map (·.1)).Nodup
  capacity_eq : s.capacity = capacity
  lifetime_eq : s.lifetime = lifetime

section

variable {capacity : Nat} {lifetime : Duration}

omit [DecidableEq κ] in
theorem hasShape_empty (capacity : Nat) (lifetime : Duration) :
    (empty capacity lifetime : ExpiringSet κ).HasShape (max capacity 1)
      (lifetime.min longestLifetime) :=
  ⟨List.nodup_nil, rfl, rfl⟩

/-- A lifetime that is cut down is still a while. -/
theorem nanoseconds_min_longestLifetime_pos (h : 0 < lifetime.nanoseconds) :
    0 < (lifetime.min longestLifetime).nanoseconds := by
  rw [Duration.min]
  split
  · exact h
  · decide

theorem HasShape.purge (h : s.HasShape capacity lifetime) (now : Instant) :
    (s.purge now).HasShape capacity lifetime :=
  ⟨h.nodup.sublist ((drains_expire now s.members s.queue).members_sublist.map _), h.capacity_eq,
    h.lifetime_eq⟩

theorem HasShape.insert (h : s.HasShape capacity lifetime) (now : Instant) (key : κ) :
    (s.insert now key).HasShape capacity lifetime := by
  have hpurged := h.purge now
  rw [insert_eq_put]
  refine ⟨nodup_put ?_ _ key, ?_, ?_⟩
  · exact hpurged.nodup.sublist ((drains_readied now key s).members_sublist.map _)
  · exact (capacity_readied now key s).trans h.capacity_eq
  · exact (lifetime_readied now key s).trans h.lifetime_eq

end

/-! ### Putting keys in that are no members -/

/-- Whether a key is put in depends on the purged set. -/
theorem insertIfAbsent_eq (now : Instant) (key : κ) (s : ExpiringSet κ) :
    s.insertIfAbsent now key =
      if (s.purge now).holds key then (false, s.purge now)
      else (true, (s.purge now).insert now key) := rfl

theorem insertIfAbsent_purge (now : Instant) (key : κ) (s : ExpiringSet κ) :
    (s.purge now).insertIfAbsent now key = s.insertIfAbsent now key := by
  rw [insertIfAbsent_eq, insertIfAbsent_eq, purge_purge]

theorem HasShape.insertIfAbsent {capacity : Nat} {lifetime : Duration}
    (h : s.HasShape capacity lifetime) (now : Instant) (key : κ) :
    (s.insertIfAbsent now key).2.HasShape capacity lifetime := by
  rw [insertIfAbsent_eq]
  split
  · exact h.purge now
  · exact (h.purge now).insert now key

/-- A set that has been purged at an instant, with room for some keys. What is put in lasts for a
while. -/
structure IsSettled (now : Instant) (keys : List κ) (s : ExpiringSet κ) : Prop where
  purged : s.purge now = s
  nodup : (s.members.map (·.1)).Nodup
  room : s.HasRoomFor keys
  lasting : 0 < s.lifetime.nanoseconds

/-- A set that is purged is settled if there is room for its members. -/
theorem HasShape.isSettled_purge {capacity : Nat} {lifetime : Duration}
    (h : s.HasShape capacity lifetime) (hlifetime : 0 < lifetime.nanoseconds)
    (hlength : keys.length ≤ capacity) (hkeys : ∀ key, (s.contains now key).1 = true → key ∈ keys) :
    (s.purge now).IsSettled now keys := by
  refine ⟨purge_purge now s, (h.purge now).nodup, ⟨fun key hkey => hkeys key ?_, ?_⟩, ?_⟩
  · exact (isSome_lookup_iff _ key).mpr hkey
  · exact Nat.le_trans hlength (Nat.le_of_eq (h.purge now).capacity_eq.symm)
  · rw [(h.purge now).lifetime_eq]
    exact hlifetime

/-- A key is put in unless it is a member that has not expired. -/
theorem insertIfAbsent_fst (now : Instant) (key : κ) (s : ExpiringSet κ) :
    (s.insertIfAbsent now key).1 = !(s.contains now key).1 := by
  rw [insertIfAbsent_eq, contains]
  cases (s.purge now).holds key <;> rfl

theorem holds_put (expiry : Instant) (key other : κ) (s : ExpiringSet κ) :
    (s.put expiry key).holds other = (decide (other = key) || s.holds other) := by
  rw [holds, expiry?_put, holds]
  split <;> simp_all

/-- A member is not put in again. -/
theorem IsSettled.insertIfAbsent_of_holds (h : s.IsSettled now keys) (hkey : s.holds key = true) :
    s.insertIfAbsent now key = (false, s) := by
  rw [insertIfAbsent_eq, h.purged, if_pos hkey]

/-- Any other key is put in, and nothing has to go for it. -/
theorem IsSettled.insertIfAbsent_of_not_holds (h : s.IsSettled now keys) (hmem : key ∈ keys)
    (hkey : s.holds key = false) :
    s.insertIfAbsent now key = (true, s.put (now + s.lifetime.nanoseconds) key) := by
  have habsent : key ∉ s.members.map (·.1) := by
    rw [← isSome_lookup_iff]
    exact Bool.eq_false_iff.mp hkey
  have hroom : (s.purge now).members.length < s.capacity := by
    rw [h.purged]
    exact h.room.length_members_lt h.nodup hmem habsent
  rw [insertIfAbsent_eq, h.purged, if_neg (Bool.eq_false_iff.mp hkey), insert_eq_put,
    readied_of_room hroom, h.purged]

/-- The pair that is put in does not expire at once, and so nothing has to be purged. -/
theorem IsSettled.put (h : s.IsSettled now keys) (hmem : key ∈ keys) :
    (s.put (now + s.lifetime.nanoseconds) key).IsSettled now keys := by
  have hlater : now < now + (s.lifetime.nanoseconds : Int) :=
    Int.lt_add_of_pos_right now (Int.natCast_pos.mpr h.lasting)
  refine ⟨purge_eq_self_iff.mpr fun pair hpair => ?_, nodup_put h.nodup _ key,
    ⟨List.cons_subset.mpr ⟨hmem, ?_⟩, h.room.length_le⟩, h.lasting⟩
  · have hfirst := purge_eq_self_iff.mp h.purged
    rw [ExpiringSet.put, List.head?_append] at hpair
    cases hqueue : s.queue.head? with
    | none =>
      rw [hqueue, Option.none_or, List.head?_cons, Option.mem_some_iff] at hpair
      exact hpair ▸ hlater
    | some first =>
      rw [hqueue, Option.some_or, Option.mem_some_iff] at hpair
      exact hpair ▸ hfirst first hqueue
  · exact fun other hother => h.room.members_subset ((List.filter_sublist.map _).subset hother)

/-! ### Keys put in one after the other -/

/-- Keys that are no members are put in at an instant, one after the other. -/
inductive Admits (now : Instant) : List κ → ExpiringSet κ → ExpiringSet κ → Prop
  | nil (s : ExpiringSet κ) : Admits now [] s s
  | cons {key : κ} {keys : List κ} {s s' : ExpiringSet κ} (habsent : s.holds key = false)
      (h : Admits now keys (s.put (now + s.lifetime.nanoseconds) key) s') :
    Admits now (key :: keys) s s'

namespace Admits

variable {admitted : List κ}

theorem isSettled (h : Admits now admitted s s') (hs : s.IsSettled now keys)
    (hadmitted : ∀ key ∈ admitted, key ∈ keys) : s'.IsSettled now keys := by
  induction h with
  | nil s => exact hs
  | cons _ _ ih =>
    rw [List.forall_mem_cons] at hadmitted
    exact ih (hs.put hadmitted.1) hadmitted.2

/-- Members stay as they are. -/
theorem expiry?_of_holds (h : Admits now admitted s s') (hkey : s.holds key = true) :
    s'.expiry? key = s.expiry? key := by
  induction h with
  | nil s => rfl
  | cons habsent _ ih =>
    rw [ih (by rw [holds_put, hkey, Bool.or_true]), expiry?_put, if_neg]
    rintro rfl
    rw [habsent] at hkey
    cases hkey

theorem holds_of_holds (h : Admits now admitted s s') (hkey : s.holds key = true) :
    s'.holds key = true := by
  rw [holds, h.expiry?_of_holds hkey]
  exact hkey

/-- A key that is put in was no member, and it lasts a lifetime. -/
theorem of_mem (h : Admits now admitted s s') (hkey : key ∈ admitted) :
    s.holds key = false ∧ s'.expiry? key = some (now + s.lifetime.nanoseconds) := by
  induction h with
  | nil s => cases hkey
  | cons habsent h ih =>
    rcases List.mem_cons.mp hkey with rfl | hkey
    · refine ⟨habsent, ?_⟩
      rw [h.expiry?_of_holds (by rw [holds_put, decide_eq_true rfl, Bool.true_or]), expiry?_put,
        if_pos rfl]
    · obtain ⟨hholds, hexpiry⟩ := ih hkey
      rw [holds_put, Bool.or_eq_false_iff] at hholds
      exact ⟨hholds.2, hexpiry⟩

/-- For another key it makes no difference, at whatever instant the set is purged. -/
theorem holds_purge_of_not_mem (h : Admits now admitted s s') (hkey : key ∉ admitted)
    (later : Instant) : (s'.purge later).holds key = (s.purge later).holds key := by
  induction h with
  | nil s => rfl
  | @cons first rest s s' habsent h ih =>
    rw [List.mem_cons, not_or] at hkey
    rw [ih hkey.2]
    have hmembers : (s.put (now + s.lifetime.nanoseconds) first).members.lookup key =
        s.members.lookup key :=
      (expiry?_put _ first key s).trans (if_neg hkey.1)
    exact congrArg Option.isSome (lookup_expire_concat hmembers hkey.1)

/-- A key that is put in was no member before, and is one until its lifetime is over. -/
theorem contains_of_mem (h : Admits now admitted (s.purge now) s') (hkey : key ∈ admitted) :
    (s.contains now key).1 = false ∧
      ∀ later, later < now + (s.lifetime.nanoseconds : Int) → (s'.contains later key).1 = true := by
  obtain ⟨hholds, hexpiry⟩ := h.of_mem hkey
  refine ⟨hholds, fun later hlater => ?_⟩
  exact (congrArg Option.isSome (lookup_expire_of_lt hexpiry hlater)).trans rfl

/-- Whether another key is a member has not changed, then or later. -/
theorem contains_of_not_mem (h : Admits now admitted (s.purge now) s') (hkey : key ∉ admitted)
    (hle : now ≤ later) : (s'.contains later key).1 = (s.contains later key).1 := by
  have hpurged := h.holds_purge_of_not_mem hkey later
  rw [purge_purge_of_le hle] at hpurged
  exact hpurged

end Admits

end ExpiringSet

end QueryTelemetry
