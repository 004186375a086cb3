import QueryTelemetry.Proofs.ExpiringSet.Expiry

/-!
# How a full set makes room

A key that comes to a full set takes the place of one member. Pairs leave the queue at its front, so
it is the first pair there that stands for a member, and in a queue in the order of expiry no other
member expires before (`exists_makeRoom`). A set never has more members than it has room for
(`Fits.insert`), so one member is enough.
-/

namespace QueryTelemetry

namespace ExpiringSet

variable {κ : Type} [DecidableEq κ] {members queue : List (κ × Instant)} {capacity : Nat}
  {now later : Instant} {s : ExpiringSet κ} {key victim : κ}

/-! ### Making room -/

theorem without_of_not_mem (h : key ∉ members.map (·.1)) : without members key = members := by
  refine List.filter_eq_self.mpr fun pair hpair => ?_
  have hne : pair.1 ≠ key := fun heq => h (heq ▸ List.mem_map_of_mem hpair)
  simpa using hne

/-- Each key is a member once, so removing it removes one pair. -/
theorem length_without (hnodup : (members.map (·.1)).Nodup) (h : key ∈ members.map (·.1)) :
    (without members key).length + 1 = members.length := by
  induction members with
  | nil => cases h
  | cons first rest ih =>
    rw [List.map_cons, List.nodup_cons] at hnodup
    by_cases hkey : first.1 = key
    · have hrest : without (first :: rest) key = without rest key := by simp [without, hkey]
      rw [hrest, without_of_not_mem (hkey ▸ hnodup.1), List.length_cons]
    · have hrest : without (first :: rest) key = first :: without rest key := by
        simp [without, hkey]
      have hmem : key ∈ rest.map (·.1) := by
        rw [List.map_cons, List.mem_cons] at h
        exact h.resolve_left (Ne.symm hkey)
      rw [hrest, List.length_cons, List.length_cons, ih hnodup.2 hmem]

/-- From a full set one member goes, and none of the others expires before it. -/
theorem exists_makeRoom (hqueued : IsQueued members queue) (hsorted : IsSorted queue)
    (hnodup : (members.map (·.1)).Nodup) (hfull : members.length = capacity)
    (hpos : 0 < capacity) :
    ∃ victim expiry, members.lookup victim = some expiry ∧
      (∀ other later, members.lookup other = some later → expiry ≤ later) ∧
      (makeRoom capacity members queue).1 = without members victim := by
  induction queue with
  | nil =>
    -- a set without a queue has no members, so it is not full
    rcases members with _ | ⟨⟨k, expiry⟩, rest⟩
    · exact absurd hfull (Nat.ne_of_lt hpos)
    · cases hqueued k expiry (by rw [lookup_cons_eq, if_pos rfl])
  | cons pair queue ih =>
    have hnotLess : ¬ members.length < capacity := Nat.not_lt.mpr (Nat.le_of_eq hfull.symm)
    have hreleased := hqueued.release
    rw [IsSorted, List.pairwise_cons] at hsorted
    rw [makeRoom, if_neg hnotLess]
    by_cases hpair : members.lookup pair.1 = some pair.2
    · have hmem : pair.1 ∈ members.map (·.1) := by
        rw [← isSome_lookup_iff, hpair]
        rfl
      have hlength := length_without hnodup hmem
      refine ⟨pair.1, pair.2, hpair, fun other later hother => ?_, ?_⟩
      · rcases List.mem_cons.mp (hqueued other later hother) with rfl | hqueue
        · exact Int.le_refl _
        · exact hsorted.1 _ hqueue
      · rw [release, if_pos hpair, makeRoom_of_lt (by omega)]
    · -- a stale pair goes, and everything is as before
      have hstale : release members pair = members := if_neg hpair
      rw [hstale] at hreleased ⊢
      exact ih hreleased hsorted.2

/-! ### Sets that are not too full -/

/-- A set in order that has no more members than it has room for. -/
structure Fits (now : Instant) (s : ExpiringSet κ) : Prop extends s.InOrder now where
  capacity_pos : 0 < s.capacity
  size_le : s.size ≤ s.capacity

theorem fits_empty (capacity : Nat) (lifetime : Duration) (now : Instant) :
    (empty capacity lifetime : ExpiringSet κ).Fits now :=
  ⟨inOrder_empty capacity lifetime now, Nat.le_max_right capacity 1, Nat.zero_le _⟩

theorem Fits.mono (h : s.Fits now) (hle : now ≤ later) : s.Fits later :=
  ⟨h.toInOrder.mono hle, h.capacity_pos, h.size_le⟩

theorem Fits.purge (h : s.Fits now) (later : Instant) : (s.purge later).Fits now :=
  ⟨h.toInOrder.purge later, h.capacity_pos,
    Nat.le_trans (drains_expire later s.members s.queue).members_sublist.length_le h.size_le⟩

/-- From the set `s` the member `victim` has gone to make room. -/
structure GivesUp (s : ExpiringSet κ) (victim : κ) (s' : ExpiringSet κ) : Prop where
  full : s.size = s.capacity
  first : ∃ expiry, s.expiry? victim = some expiry ∧
    ∀ other later, s.expiry? other = some later → expiry ≤ later
  members_eq : s'.members = without s.members victim

/-- What is done before a key is put in: nothing if it is a member or if there is room, and
otherwise a member goes. -/
inductive Readies (s : ExpiringSet κ) (key : κ) (s' : ExpiringSet κ) : Prop
  | held (hkey : s.holds key = true) (hmembers : s'.members = s.members)
  | roomy (hkey : s.holds key = false) (hroom : s.size < s.capacity)
    (hmembers : s'.members = s.members)
  | full (hkey : s.holds key = false) {victim : κ} (h : s.GivesUp victim s')

theorem Fits.readies (h : s.Fits now) (later : Instant) (key : κ) :
    (s.purge later).Readies key (s.readied later key) := by
  have hpurge := h.purge later
  rw [readied]
  cases hkey : (s.purge later).holds key with
  | true => exact .held hkey rfl
  | false =>
    simp only [Bool.false_eq_true, if_false]
    rcases Nat.lt_or_eq_of_le hpurge.size_le with hroom | hfull
    · refine .roomy hkey hroom ?_
      rw [makeRoom_of_lt hroom]
    · obtain ⟨victim, expiry, hvictim, hfirst, hmembers⟩ := exists_makeRoom hpurge.queued
        hpurge.sorted hpurge.nodup hfull hpurge.capacity_pos
      exact .full hkey ⟨hfull, ⟨expiry, hvictim, hfirst⟩, hmembers⟩

theorem GivesUp.mem {s' : ExpiringSet κ} (h : s.GivesUp victim s') :
    victim ∈ s.members.map (·.1) := by
  obtain ⟨expiry, hvictim, -⟩ := h.first
  rw [← isSome_lookup_iff]
  exact Option.isSome_of_eq_some hvictim

/-- The set stays within its capacity, as a key is put in only where there is room. -/
theorem Fits.insert (h : s.Fits now) (hle : now ≤ later) (key : κ) :
    (s.insert later key).Fits later := by
  have hpurge := h.purge later
  have hcapacity := capacity_readied later key s
  have hreadies := h.readies later key
  have hsize : (without (s.readied later key).members key).length + 1 ≤ s.capacity := by
    cases hreadies with
    | held hkey hmembers =>
      have hmem : key ∈ (s.purge later).members.map (·.1) := by
        rw [← isSome_lookup_iff]
        exact hkey
      rw [hmembers, length_without hpurge.nodup hmem]
      exact hpurge.size_le
    | roomy _ hroom hmembers =>
      rw [hmembers]
      exact Nat.lt_of_le_of_lt (List.length_filter_le _ _) hroom
    | full _ hgivesUp =>
      have hgone := length_without hpurge.nodup hgivesUp.mem
      rw [← hgivesUp.members_eq] at hgone
      have hfull : (s.purge later).members.length = s.capacity := hgivesUp.full
      calc (without (s.readied later key).members key).length + 1
          ≤ (s.readied later key).members.length + 1 :=
            Nat.add_le_add_right (List.length_filter_le _ _) 1
        _ = s.capacity := by rw [hgone, hfull]
  refine ⟨h.toInOrder.insert hle key, ?_, ?_⟩
  · rw [insert_eq_put]
    exact Nat.lt_of_lt_of_eq h.capacity_pos hcapacity.symm
  · rw [insert_eq_put]
    exact Nat.le_trans hsize (Nat.le_of_eq hcapacity.symm)

end ExpiringSet

end QueryTelemetry
