import QueryTelemetry.Proofs.ExpiringSet.Admission
import QueryTelemetry.Proofs.ExpiringSet.Ledger
import QueryTelemetry.Proofs.Sampling.History

/-!
# Members and queue in step

Instants may come in any order here, so the pairs of the queue need not stand in the order in which
they expire, and the same pair may stand there twice. Still each member has its pair in the queue,
and there are never more members than there is room for (`IsSound`). So when a full set makes room,
there is a member to give up, and one is enough (`IsSound.exists_evictOldest?`).

Stale pairs come from keys that are put in while they are members. If keys are put in only when they
are absent, as a sampler does it, the queue holds the pairs of the members and no others
(`perm_after`), so it is as short as they are few. Both are carried over every request in
`members_queue_after`.
-/

namespace QueryTelemetry

namespace ExpiringSet

variable {κ : Type} [DecidableEq κ] {members members' queue queue' : List (κ × Instant)}
  {capacity : Nat} {now : Instant} {key : κ} {s : ExpiringSet κ}

/-! ### Evictions -/

/-- Takes pairs off the queue, up to the first that stands for a member, and removes this member.
There is no result if no pair does. -/
def evictOldest? (members : List (κ × Instant)) :
    (queue : List (κ × Instant)) → Option (List (κ × Instant) × List (κ × Instant))
  | [] => none
  | pair :: queue =>
    if members.lookup pair.1 = some pair.2 then some (without members pair.1, queue)
    else evictOldest? members queue

/-- Room is made by one eviction after the other, until one fails. -/
theorem makeRoom_eq (capacity : Nat) (members queue : List (κ × Instant)) :
    makeRoom capacity members queue =
      if members.length < capacity then (members, queue)
      else match evictOldest? members queue with
        | none => (members, [])
        | some (members, queue) => makeRoom capacity members queue := by
  induction queue with
  | nil =>
    rw [makeRoom, evictOldest?]
    split <;> rfl
  | cons pair queue ih =>
    rw [makeRoom, evictOldest?]
    by_cases hroom : members.length < capacity
    · rw [if_pos hroom, if_pos hroom]
    · rw [if_neg hroom, if_neg hroom, release]
      by_cases hpair : members.lookup pair.1 = some pair.2
      · rw [if_pos hpair, if_pos hpair]
      · rw [if_neg hpair, if_neg hpair, ih, if_neg hroom]

/-- If each member has its pair in the queue, an eviction fails only if there are no members. -/
theorem exists_evictOldest? (hqueued : IsQueued members queue) (hne : members ≠ []) :
    ∃ victim queue', victim ∈ members.map (·.1) ∧
      evictOldest? members queue = some (without members victim, queue') := by
  induction queue with
  | nil =>
    obtain ⟨⟨key, expiry⟩, rest, rfl⟩ := List.exists_cons_of_ne_nil hne
    cases hqueued key expiry (by rw [lookup_cons_eq, if_pos rfl])
  | cons pair queue ih =>
    have hreleased := hqueued.release
    rw [evictOldest?]
    by_cases hpair : members.lookup pair.1 = some pair.2
    · rw [if_pos hpair]
      exact ⟨pair.1, queue, (isSome_lookup_iff members pair.1).mp (by rw [hpair]; rfl), rfl⟩
    · -- a stale pair goes, and everything is as before
      rw [release, if_neg hpair] at hreleased
      rw [if_neg hpair]
      exact ih hreleased

/-! ### Sets at any instants -/

/-- A set of some capacity in which each member has its pair in the queue and which has no more
members than it has room for. -/
structure IsSound (capacity : Nat) (s : ExpiringSet κ) : Prop where
  queued : IsQueued s.members s.queue
  nodup : (s.members.map (·.1)).Nodup
  capacity_eq : s.capacity = capacity
  capacity_pos : 0 < capacity
  size_le : s.size ≤ capacity

theorem isSound_empty (capacity : Nat) (lifetime : Duration) :
    (empty capacity lifetime : ExpiringSet κ).IsSound (max capacity 1) :=
  ⟨nofun, List.nodup_nil, rfl, Nat.le_max_right capacity 1, Nat.zero_le _⟩

theorem IsSound.purge (h : s.IsSound capacity) (now : Instant) : (s.purge now).IsSound capacity :=
  have hdrains := drains_expire now s.members s.queue
  ⟨h.queued.drains hdrains, h.nodup.sublist (hdrains.members_sublist.map _), h.capacity_eq,
    h.capacity_pos, Nat.le_trans hdrains.members_sublist.length_le h.size_le⟩

/-- In a full set an eviction succeeds, and room is made with it. -/
theorem IsSound.exists_evictOldest? (h : s.IsSound capacity) (hfull : capacity ≤ s.size) :
    ∃ members queue, evictOldest? s.members s.queue = some (members, queue) ∧
      members.length < capacity ∧ makeRoom s.capacity s.members s.queue = (members, queue) := by
  have hne : s.members ≠ [] := List.ne_nil_of_length_pos (Nat.lt_of_lt_of_le h.capacity_pos hfull)
  obtain ⟨victim, queue, hvictim, hevict⟩ := ExpiringSet.exists_evictOldest? h.queued hne
  have hroom : (without s.members victim).length < capacity := by
    have hlength := length_without h.nodup hvictim
    have hsize : s.members.length ≤ capacity := h.size_le
    omega
  refine ⟨without s.members victim, queue, hevict, hroom, ?_⟩
  have hnotLess : ¬ s.members.length < capacity := Nat.not_lt.mpr hfull
  rw [h.capacity_eq, makeRoom_eq, hevict, if_neg hnotLess]
  exact makeRoom_of_lt hroom queue

/-- There is room for the key that is put in, beside the other members. -/
theorem IsSound.length_without_readied_lt (h : s.IsSound capacity) (now : Instant) (key : κ) :
    (without (s.readied now key).members key).length < capacity := by
  have hpurge := h.purge now
  have hshort := List.length_filter_le (fun pair : κ × Instant => pair.1 ≠ key)
    (s.readied now key).members
  rw [readied] at hshort ⊢
  cases hkey : (s.purge now).holds key with
  | true =>
    rw [if_pos rfl]
    have hlength := length_without hpurge.nodup ((isSome_lookup_iff _ key).mp hkey)
    have hsize : (s.purge now).members.length ≤ capacity := hpurge.size_le
    omega
  | false =>
    simp only [hkey, Bool.false_eq_true, if_false] at hshort ⊢
    refine Nat.lt_of_le_of_lt hshort ?_
    rcases Nat.lt_or_ge (s.purge now).size capacity with hroom | hfull
    · rw [makeRoom_of_lt (Nat.lt_of_lt_of_eq hroom hpurge.capacity_eq.symm)]
      exact hroom
    · obtain ⟨members, queue, -, hroom, hmakeRoom⟩ := hpurge.exists_evictOldest? hfull
      rw [hmakeRoom]
      exact hroom

theorem IsSound.insert (h : s.IsSound capacity) (now : Instant) (key : κ) :
    (s.insert now key).IsSound capacity := by
  have hpurge := h.purge now
  have hdrains := drains_readied now key s
  rw [insert_eq_put]
  exact ⟨isQueued_put (hpurge.queued.drains hdrains) _ key,
    nodup_put (hpurge.nodup.sublist (hdrains.members_sublist.map _)) _ key,
    (capacity_readied now key s).trans h.capacity_eq, h.capacity_pos,
    h.length_without_readied_lt now key⟩

/-- A request purges the set, or it puts its key in; a key that is a member is put in only by
`insert`. -/
theorem Request.perform_cases (r : Request κ) (s : ExpiringSet κ) :
    r.perform s = s.purge r.now ∨
      r.perform s = s.insert r.now r.key ∧
        (r.action = .insert ∨ (s.purge r.now).holds r.key = false) := by
  obtain ⟨now, action, key⟩ := r
  cases action with
  | contains => exact .inl rfl
  | insert => exact .inr ⟨rfl, .inl rfl⟩
  | insertIfAbsent =>
    rw [Request.perform, insertIfAbsent_eq]
    cases hkey : (s.purge now).holds key with
    | true => exact .inl rfl
    | false => exact .inr ⟨insert_purge now key s, .inr rfl⟩

theorem IsSound.perform (h : s.IsSound capacity) (r : Request κ) :
    (r.perform s).IsSound capacity := by
  rcases r.perform_cases s with hperform | ⟨hperform, -⟩
  · rw [hperform]
    exact h.purge r.now
  · rw [hperform]
    exact h.insert r.now r.key

theorem IsSound.after (h : s.IsSound capacity) (requests : List (Request κ)) :
    (after requests s).IsSound capacity := by
  induction requests generalizing s with
  | nil => exact h
  | cons r requests ih => exact ih (h.perform r)

/-! ### Queues without stale pairs -/

/-- A pair among the members is found under its key. -/
theorem lookup_eq_of_mem (hnodup : (members.map (·.1)).Nodup) {pair : κ × Instant}
    (h : pair ∈ members) : members.lookup pair.1 = some pair.2 := by
  induction members with
  | nil => cases h
  | cons first rest ih =>
    rw [List.map_cons, List.nodup_cons] at hnodup
    rw [lookup_cons_eq]
    rcases List.mem_cons.mp h with rfl | h
    · exact if_pos rfl
    · rw [if_neg, ih hnodup.2 h]
      exact fun hsame => hnodup.1 (hsame ▸ List.mem_map_of_mem h)

/-- If the queue holds the pairs of the members, the first stands for one of them. -/
theorem perm_release {pair : κ × Instant} (hnodup : (members.map (·.1)).Nodup)
    (h : (pair :: queue).Perm members) : queue.Perm (release members pair) := by
  have hkeys : pair.1 ∉ queue.map (·.1) :=
    (List.nodup_cons.mp ((h.map (·.1)).nodup_iff.mpr hnodup)).1
  have hqueue : without (pair :: queue) pair.1 = queue := by
    rw [without, List.filter_cons_of_neg (by simp)]
    exact without_of_not_mem hkeys
  have hfilter : (without (pair :: queue) pair.1).Perm (without members pair.1) := h.filter _
  rw [release, if_pos (lookup_eq_of_mem hnodup (h.subset List.mem_cons_self))]
  rwa [hqueue] at hfilter

theorem Drains.perm (hdrains : Drains members queue members' queue')
    (hnodup : (members.map (·.1)).Nodup) (h : queue.Perm members) : queue'.Perm members' := by
  induction hdrains with
  | done => exact h
  | release _ ih => exact ih (hnodup.sublist ((release_sublist _ _).map _)) (perm_release hnodup h)

theorem perm_purge (hnodup : (s.members.map (·.1)).Nodup) (h : s.queue.Perm s.members)
    (now : Instant) : (s.purge now).queue.Perm (s.purge now).members :=
  (drains_expire now s.members s.queue).perm hnodup h

/-- A key that is absent leaves no stale pair when it is put in. -/
theorem perm_insert (hnodup : (s.members.map (·.1)).Nodup) (h : s.queue.Perm s.members)
    (hkey : (s.purge now).holds key = false) :
    (s.insert now key).queue.Perm (s.insert now key).members := by
  have hpurge := drains_expire now s.members s.queue
  have hreadied := drains_readied now key s
  have hperm : (s.readied now key).queue.Perm (s.readied now key).members :=
    hreadied.perm (hnodup.sublist (hpurge.members_sublist.map _)) (perm_purge hnodup h now)
  have habsent : key ∉ (s.readied now key).members.map (·.1) := by
    intro hmem
    rw [holds, expiry?, Bool.eq_false_iff, Ne, isSome_lookup_iff] at hkey
    exact hkey ((hreadied.members_sublist.map _).subset hmem)
  rw [insert_eq_put, put, without_of_not_mem habsent]
  exact (List.perm_append_singleton _ _).trans (hperm.cons _)

theorem perm_perform (hsound : s.IsSound capacity) (h : s.queue.Perm s.members) {r : Request κ}
    (hr : r.action ≠ .insert) : (r.perform s).queue.Perm (r.perform s).members := by
  rcases r.perform_cases s with hperform | ⟨hperform, hinsert | habsent⟩
  · rw [hperform]
    exact perm_purge hsound.nodup h r.now
  · exact absurd hinsert hr
  · rw [hperform]
    exact perm_insert hsound.nodup h habsent

/-- As long as no key is put in that is a member, the queue holds the pairs of the members. -/
theorem perm_after (hsound : s.IsSound capacity) (h : s.queue.Perm s.members)
    {requests : List (Request κ)} (hrequests : ∀ r ∈ requests, r.action ≠ .insert) :
    (after requests s).queue.Perm (after requests s).members := by
  induction requests generalizing s with
  | nil => exact h
  | cons r requests ih =>
    rw [List.forall_mem_cons] at hrequests
    exact ih (hsound.perform r) (perm_perform hsound h hrequests.1) hrequests.2

end ExpiringSet

namespace Sampling

open ExpiringSet (Request after)

/-! ### What a sampler asks for -/

/-- One set comes from another by putting keys in that are absent. -/
def Offers (seen seen' : Seen) : Prop :=
  ∃ requests : List (Request Identity),
    (∀ r ∈ requests, r.action = .insertIfAbsent) ∧ seen' = after requests seen

variable {seen seen' seen'' : Seen}

theorem Offers.refl (seen : Seen) : Offers seen seen := ⟨[], nofun, rfl⟩

theorem Offers.trans (h : Offers seen seen') (h' : Offers seen' seen'') : Offers seen seen'' := by
  obtain ⟨requests, hrequests, rfl⟩ := h
  obtain ⟨requests', hrequests', rfl⟩ := h'
  refine ⟨requests ++ requests', fun r hr => ?_, (List.foldl_append ..).symm⟩
  rcases List.mem_append.mp hr with hr | hr
  · exact hrequests r hr
  · exact hrequests' r hr

theorem offers_insertIfAbsent (now : Instant) (identity : Identity) (seen : Seen) :
    Offers seen (seen.insertIfAbsent now identity).2 :=
  ⟨[⟨now, .insertIfAbsent, identity⟩], by simp, rfl⟩

theorem offers_next (context : EventContext) (now : Instant) (statements : List NormalStatement)
    (seen : Seen) : Offers seen (next context now statements seen).2 := by
  induction statements generalizing seen with
  | nil => exact .refl seen
  | cons s rest ih =>
    have hinsert := offers_insertIfAbsent now s.identity seen
    rw [next]
    split
    · rename_i heq
      rwa [heq] at hinsert
    · rename_i heq
      rw [heq] at hinsert
      exact hinsert.trans (ih _)

theorem offers_draw (context : EventContext) (now : Instant) (count : Nat)
    (statements : List NormalStatement) (seen : Seen) :
    Offers seen (draw context now count statements seen).2 := by
  induction count generalizing seen statements with
  | zero => exact .refl seen
  | succ count ih =>
    have hnext := offers_next context now statements seen
    rw [draw]
    split
    · rename_i heq
      rwa [heq] at hnext
    · rename_i heq
      rw [heq] at hnext
      exact hnext.trans (ih _ _)

theorem offers_run (calls : List Call) (seen : Seen) : Offers seen (run calls seen).2 := by
  induction calls generalizing seen with
  | nil => exact .refl seen
  | cons call calls ih =>
    have hcall : Offers seen (call.draw seen).2 := by
      rw [Call.draw]
      split
      · exact offers_draw _ _ _ _ _
      · exact offers_draw _ _ _ _ _
    exact hcall.trans (ih _)

end Sampling

namespace ExpiringSet

/-! ### From the empty set -/

/-- Whatever is asked of a set, at instants in any order: each member has its pair in the queue,
there are no more members than there is room for, and where a full set has to make room, an eviction
succeeds and is all that is needed. If keys are put in only when they are absent, as a sampler does
it, the queue holds the pairs of the members and no others. -/
theorem members_queue_after (κ : Type) [DecidableEq κ] (capacity : Nat) (lifetime : Duration) :
    (∀ requests : List (Request κ),
      let s := after requests (empty capacity lifetime)
      (s.members.map (·.1)).Nodup ∧
        (∀ key expiry, s.expiry? key = some expiry → (key, expiry) ∈ s.queue) ∧
        s.size ≤ max capacity 1 ∧
        (∀ now, s.capacity ≤ (s.purge now).size →
          ∃ members queue,
            evictOldest? (s.purge now).members (s.purge now).queue = some (members, queue) ∧
              members.length < s.capacity ∧
              makeRoom s.capacity (s.purge now).members (s.purge now).queue = (members, queue)) ∧
        ((∀ r ∈ requests, r.action ≠ .insert) →
          s.queue.Perm s.members ∧ s.queue.length ≤ max capacity 1)) ∧
    ∀ calls : List Sampling.Call,
      let seen := (Sampling.run calls (.empty capacity lifetime)).2
      seen.queue.Perm seen.members ∧ seen.queue.length ≤ max capacity 1 := by
  have hperm : ∀ {ν : Type} [DecidableEq ν] {requests : List (Request ν)},
      (∀ r ∈ requests, r.action ≠ .insert) →
      let s := after requests (empty capacity lifetime)
      s.queue.Perm s.members ∧ s.queue.length ≤ max capacity 1 := by
    intro ν _ requests hrequests
    have hempty := isSound_empty (κ := ν) capacity lifetime
    have hperm := perm_after hempty (List.Perm.refl _) hrequests
    exact ⟨hperm, Nat.le_trans (Nat.le_of_eq hperm.length_eq) (hempty.after requests).size_le⟩
  refine ⟨fun requests => ?_, fun calls => ?_⟩
  · have hsound := (isSound_empty (κ := κ) capacity lifetime).after requests
    refine ⟨hsound.nodup, hsound.queued, hsound.size_le, fun now hfull => ?_, hperm⟩
    rw [hsound.capacity_eq] at hfull
    obtain ⟨members, queue, hevict, hroom, hmakeRoom⟩ :=
      (hsound.purge now).exists_evictOldest? hfull
    exact ⟨members, queue, hevict, Nat.lt_of_lt_of_eq hroom hsound.capacity_eq.symm, hmakeRoom⟩
  · obtain ⟨requests, hrequests, hrun⟩ := Sampling.offers_run calls (.empty capacity lifetime)
    rw [hrun]
    refine hperm fun r hr => ?_
    rw [hrequests r hr]
    exact nofun

/-- A key that is put in twice at one instant, and another one at an earlier instant. -/
def backwards (action : Action) : List (Request Nat) :=
  [⟨5, action, 1⟩, ⟨5, action, 1⟩, ⟨3, action, 2⟩]

/-- With room for one key the second one takes the place of the first, whose pair still stands in
the queue before its own; the next eviction passes over the stale pair. Where keys are put in only
when they are absent, no stale pair is left. -/
theorem members_queue_after_backwards :
    (after (backwards .insert) (empty 1 (.ofWholeSeconds 1))).queue =
        [(1, 1000000005), (2, 1000000003)] ∧
      (∃ members queue,
        evictOldest? [(2, 1000000003)] [(1, 1000000005), (2, 1000000003)] = some (members, queue) ∧
          members.length < 1) ∧
      (after (backwards .insertIfAbsent) (empty 1 (.ofWholeSeconds 1))).queue.Perm
        [(2, 1000000003)] := by
  obtain ⟨hsound, -⟩ := members_queue_after Nat 1 (.ofWholeSeconds 1)
  obtain ⟨-, -, -, hevict, -⟩ := hsound (backwards .insert)
  obtain ⟨-, -, -, -, hperm⟩ := hsound (backwards .insertIfAbsent)
  refine ⟨by decide, ?_, (hperm (by simp [backwards])).1⟩
  obtain ⟨members, queue, hevicted, hroom, -⟩ := hevict 4 (by decide)
  exact ⟨members, queue, hevicted, hroom⟩

end ExpiringSet

end QueryTelemetry
