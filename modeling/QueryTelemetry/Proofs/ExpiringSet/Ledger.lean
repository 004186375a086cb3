import Mathlib.Data.Finset.Card
import QueryTelemetry.Proofs.Concatenation
import QueryTelemetry.Proofs.ExpiringSet.Eviction

/-!
# Members and the history of a set

Which keys a set contains is known from what has happened to it. The ledger of a run lists in order
the keys that were put in, with the instants, and the members that were given up before their time.
At instants that do not decrease, a key is contained exactly if it was put in less than a lifetime
ago and has not been given up since, and a member is given up only for a key that the set does not
contain and when the set is full (`contains_iff_lastPut`).

What a request does to the expiry of each key, and what it adds to the ledger, is said once
(`Changes`); the two stay in step over a run (`Accounts`).
-/

namespace QueryTelemetry

namespace ExpiringSet

variable {κ : Type} [DecidableEq κ]

/-! ### Requests -/

/-- What is asked of a set. -/
inductive Action
  | contains
  | insert
  | insertIfAbsent

/-- A use of a set, for a key at an instant. -/
structure Request (κ : Type) where
  now : Instant
  action : Action
  key : κ

namespace Request

/-- The set after a request. -/
def perform (r : Request κ) (s : ExpiringSet κ) : ExpiringSet κ :=
  match r.action with
  | .contains => (s.contains r.now r.key).2
  | .insert => s.insert r.now r.key
  | .insertIfAbsent => (s.insertIfAbsent r.now r.key).2

/-- Whether a request puts its key in. -/
def puts (r : Request κ) (s : ExpiringSet κ) : Bool :=
  match r.action with
  | .contains => false
  | .insert => true
  | .insertIfAbsent => (s.insertIfAbsent r.now r.key).1

/-- The members that have not expired and are gone after a request. -/
def givenUp (r : Request κ) (s : ExpiringSet κ) : List κ :=
  (s.members.map (·.1)).filter fun key => (s.contains r.now key).1 && !(r.perform s).holds key

end Request

/-- The set after a number of requests. -/
def after (requests : List (Request κ)) (s : ExpiringSet κ) : ExpiringSet κ :=
  requests.foldl (fun s r => r.perform s) s

/-- What can happen to a key. -/
inductive Event (κ : Type)
  | putIn (now : Instant) (key : κ)
  | givenUp (key : κ)

/-- The key that something happens to. -/
def Event.key : Event κ → κ
  | .putIn _ key => key
  | .givenUp key => key

/-- What happens at a request: a member that is given up goes before the key comes. -/
def Request.events (r : Request κ) (s : ExpiringSet κ) : List (Event κ) :=
  (r.givenUp s).map .givenUp ++ if r.puts s then [.putIn r.now r.key] else []

/-- What happens in a run. -/
def ledger : List (Request κ) → ExpiringSet κ → List (Event κ)
  | [], _ => []
  | r :: requests, s => r.events s ++ ledger requests (r.perform s)

/-- The last that happened to a key is that it was put in at an instant. -/
def LastPut (events : List (Event κ)) (key : κ) (instant : Instant) : Prop :=
  ∃ earlier later, events = earlier ++ .putIn instant key :: later ∧ ∀ e ∈ later, e.key ≠ key

/-- The number of keys that a set contains at an instant. -/
def HasLive (now : Instant) (s : ExpiringSet κ) (count : Nat) : Prop :=
  ∃ keys : Finset κ, (∀ key, key ∈ keys ↔ (s.contains now key).1 = true) ∧ keys.card = count

/-! ### The last that happened to a key -/

section

variable {events : List (Event κ)} {key other : κ} {instant now : Instant}

omit [DecidableEq κ] in
theorem not_lastPut_nil : ¬ LastPut [] key instant := by
  rintro ⟨earlier, later, h, -⟩
  exact List.append_ne_nil_of_right_ne_nil earlier (List.cons_ne_nil _ later) h.symm

omit [DecidableEq κ] in
/-- Something that happens to another key does not matter. -/
theorem lastPut_concat_of_ne {e : Event κ} (he : e.key ≠ key) :
    LastPut (events ++ [e]) key instant ↔ LastPut events key instant := by
  constructor
  · rintro ⟨earlier, later, h, hlater⟩
    rcases concat_eq_append_cons h with ⟨between, rfl, rfl⟩ | ⟨-, rfl, -⟩
    · exact ⟨earlier, between, rfl, fun e he => hlater e (List.mem_append_left _ he)⟩
    · exact absurd rfl he
  · rintro ⟨earlier, later, rfl, hlater⟩
    refine ⟨earlier, later ++ [e], by simp, fun last hlast => ?_⟩
    rcases List.mem_append.mp hlast with hlast | hlast
    · exact hlater last hlast
    · rwa [List.mem_singleton.mp hlast]

omit [DecidableEq κ] in
/-- The last that happened is the last in the ledger. -/
theorem eq_of_lastPut_concat {e : Event κ} (h : LastPut (events ++ [e]) key instant)
    (he : e.key = key) : e = .putIn instant key := by
  obtain ⟨earlier, later, h, hlater⟩ := h
  rcases concat_eq_append_cons h with ⟨between, rfl, rfl⟩ | ⟨-, hput, -⟩
  · exact absurd he (hlater e List.mem_concat_self)
  · exact hput.symm

theorem lastPut_putIn_iff :
    LastPut (events ++ [.putIn now key]) other instant ↔
      if other = key then instant = now else LastPut events other instant := by
  by_cases hother : other = key
  · subst hother
    rw [if_pos rfl]
    refine ⟨fun h => ?_, fun h => ⟨events, [], by rw [h], nofun⟩⟩
    cases eq_of_lastPut_concat h rfl
    rfl
  · rw [if_neg hother]
    exact lastPut_concat_of_ne (Ne.symm hother)

omit [DecidableEq κ] in
theorem lastPut_givenUp_iff :
    LastPut (events ++ [.givenUp key]) other instant ↔
      other ≠ key ∧ LastPut events other instant := by
  by_cases hother : other = key
  · subst hother
    exact ⟨fun h => absurd (eq_of_lastPut_concat h rfl) nofun, fun h => absurd rfl h.1⟩
  · exact (lastPut_concat_of_ne (Ne.symm hother)).trans (and_iff_right hother).symm

end

/-! ### What a request does -/

section

variable {s s' : ExpiringSet κ} {now later : Instant} {key : κ} {r : Request κ}

theorem contains_fst (h : s.InOrder now) (later : Instant) (key : κ) :
    (s.contains later key).1 = s.isLive later key :=
  holds_purge h later key

theorem isLive_iff :
    s.isLive now key = true ↔ ∃ expiry, s.expiry? key = some expiry ∧ now < expiry := by
  rw [isLive]
  cases s.expiry? key <;> simp

/-- A request purges the set or puts its key in. -/
theorem InOrder.perform_cases (h : s.InOrder now) (r : Request κ) :
    r.perform s = s.purge r.now ∧ r.puts s = false ∨
      r.perform s = s.insert r.now r.key ∧ r.puts s = true := by
  obtain ⟨instant, action, key⟩ := r
  cases action with
  | contains => exact .inl ⟨rfl, rfl⟩
  | insert => exact .inr ⟨rfl, rfl⟩
  | insertIfAbsent =>
    cases hlive : s.isLive instant key with
    | true =>
      have hresult := insertIfAbsent_of_isLive h hlive
      exact .inl ⟨congrArg Prod.snd hresult, congrArg Prod.fst hresult⟩
    | false =>
      have hresult := insertIfAbsent_of_not_isLive h hlive
      exact .inr ⟨congrArg Prod.snd hresult, congrArg Prod.fst hresult⟩

/-- What has not expired is left by a purge. -/
theorem expiry?_purge_eq_some_iff (h : s.InOrder now) {expiry : Instant} :
    (s.purge later).expiry? key = some expiry ↔ s.expiry? key = some expiry ∧ later < expiry := by
  rw [expiry?_purge h, Option.filter_eq_some_iff, decide_eq_true_iff]

/-- What a request does to the members, with those that are given up, and whether it puts its key
in. -/
inductive Changes (r : Request κ) (s s' : ExpiringSet κ) : (gone : List κ) → (puts : Bool) → Prop
  | stays (hexpiry : ∀ other, s'.expiry? other = (s.purge r.now).expiry? other) :
    Changes r s s' [] false
  | comes
    (hexpiry : ∀ other, s'.expiry? other =
      if other = r.key then some (r.now + s.lifetime.nanoseconds)
      else (s.purge r.now).expiry? other) :
    Changes r s s' [] true
  | replaces {victim : κ} (hkey : (s.contains r.now r.key).1 = false)
    (hvictim : (s.purge r.now).GivesUp victim (s.readied r.now r.key))
    (hexpiry : ∀ other, s'.expiry? other =
      if other = r.key then some (r.now + s.lifetime.nanoseconds)
      else if other = victim then none else (s.purge r.now).expiry? other) :
    Changes r s s' [victim] true

/-- No member is given up if none has gone but for its time. -/
theorem givenUp_eq_nil
    (h : ∀ other, (s.purge r.now).holds other = true → (r.perform s).holds other = true) :
    r.givenUp s = [] := by
  rw [Request.givenUp, List.filter_eq_nil_iff]
  intro other _ hother
  rw [Bool.and_eq_true, Bool.not_eq_true'] at hother
  exact Bool.eq_false_iff.mp hother.2 (h other hother.1)

/-- If one key alone has gone before its time, it is the one that is given up. -/
theorem givenUp_eq_singleton (hnodup : (s.members.map (·.1)).Nodup) {victim : κ}
    (hvictim : (s.contains r.now victim).1 = true) (hgone : (r.perform s).holds victim = false)
    (h : ∀ other ≠ victim,
      (s.purge r.now).holds other = true → (r.perform s).holds other = true) :
    r.givenUp s = [victim] := by
  have hmember : victim ∈ s.members.map (·.1) :=
    ((drains_expire r.now s.members s.queue).members_sublist.map _).subset
      ((isSome_lookup_iff _ victim).mp hvictim)
  have hmem : ∀ other, other ∈ r.givenUp s ↔ other ∈ [victim] := by
    intro other
    rw [Request.givenUp, List.mem_filter, Bool.and_eq_true, Bool.not_eq_true', List.mem_singleton]
    constructor
    · rintro ⟨-, hcontained, hother⟩
      by_contra hne
      exact Bool.eq_false_iff.mp hother (h other hne hcontained)
    · rintro rfl
      exact ⟨hmember, hvictim, hgone⟩
  have hperm :=
    (List.perm_ext_iff_of_nodup (hnodup.filter _) (List.nodup_singleton victim)).mpr hmem
  exact List.perm_singleton.mp hperm

/-- A request that purges the set only takes no member before its time. -/
theorem changes_of_purge (hperform : r.perform s = s.purge r.now) (hputs : r.puts s = false) :
    Changes r s (r.perform s) (r.givenUp s) (r.puts s) := by
  have hgivenUp : r.givenUp s = [] := givenUp_eq_nil fun other hother => by rwa [hperform]
  rw [hgivenUp, hputs, hperform]
  exact .stays fun _ => rfl

/-- A key that is put in comes beside the members or in the place of one of them. -/
theorem Fits.changes_of_insert (h : s.Fits now) (hperform : r.perform s = s.insert r.now r.key)
    (hputs : r.puts s = true) : Changes r s (r.perform s) (r.givenUp s) (r.puts s) := by
  have hexpiry : ∀ other, (r.perform s).expiry? other =
      if other = r.key then some (r.now + s.lifetime.nanoseconds)
      else (s.readied r.now r.key).expiry? other := fun other => by
    rw [hperform, insert_eq_put, expiry?_put]
  have hkept (hmembers : (s.readied r.now r.key).members = (s.purge r.now).members) :
      Changes r s (r.perform s) (r.givenUp s) (r.puts s) := by
    have hcomes : ∀ other, (r.perform s).expiry? other =
        if other = r.key then some (r.now + s.lifetime.nanoseconds)
        else (s.purge r.now).expiry? other := fun other => by
      rw [hexpiry, expiry?, hmembers]
      rfl
    have hgivenUp : r.givenUp s = [] := by
      refine givenUp_eq_nil fun other hother => ?_
      rw [holds, hcomes]
      split
      · rfl
      · exact hother
    rw [hgivenUp, hputs]
    exact .comes hcomes
  cases h.readies r.now r.key with
  | held _ hmembers => exact hkept hmembers
  | roomy _ _ hmembers => exact hkept hmembers
  | @full hkey victim hvictim =>
    have hreplaces : ∀ other, (r.perform s).expiry? other =
        if other = r.key then some (r.now + s.lifetime.nanoseconds)
        else if other = victim then none else (s.purge r.now).expiry? other := fun other => by
      rw [hexpiry, expiry?, hvictim.members_eq, lookup_without]
      rfl
    have hheld : (s.contains r.now victim).1 = true := (isSome_lookup_iff _ victim).mpr hvictim.mem
    have hne : victim ≠ r.key := by
      rintro rfl
      exact Bool.eq_false_iff.mp hkey hheld
    have hgivenUp : r.givenUp s = [victim] := by
      refine givenUp_eq_singleton h.nodup hheld ?_ fun other hother hholds => ?_
      · rw [holds, hreplaces, if_neg hne, if_pos rfl]
        rfl
      · rw [holds, hreplaces, if_neg hother]
        split
        · rfl
        · exact hholds
    rw [hgivenUp, hputs]
    exact .replaces hkey hvictim hreplaces

theorem Fits.changes (h : s.Fits now) (r : Request κ) :
    Changes r s (r.perform s) (r.givenUp s) (r.puts s) := by
  rcases h.perform_cases r with ⟨hperform, hputs⟩ | ⟨hperform, hputs⟩
  · exact changes_of_purge hperform hputs
  · exact h.changes_of_insert hperform hputs

/-- Nothing is left that has expired, unless a key expires when it is put in. -/
theorem Changes.lt_of_expiry? {gone : List κ} {puts : Bool} (h : Changes r s s' gone puts)
    (horder : s.InOrder now) (hlifetime : 0 < s.lifetime.nanoseconds) {expiry : Instant}
    (hexpiry : s'.expiry? key = some expiry) : r.now < expiry := by
  have hpurge (hexpiry : (s.purge r.now).expiry? key = some expiry) : r.now < expiry :=
    ((expiry?_purge_eq_some_iff horder).mp hexpiry).2
  have hput (hexpiry : some (r.now + (s.lifetime.nanoseconds : Int)) = some expiry) :
      r.now < expiry := by
    obtain rfl := Option.some.inj hexpiry
    exact Int.lt_add_of_pos_right r.now (Int.natCast_pos.mpr hlifetime)
  cases h with
  | stays hstays => exact hpurge (hstays key ▸ hexpiry)
  | comes hcomes =>
    rw [hcomes] at hexpiry
    split at hexpiry
    · exact hput hexpiry
    · exact hpurge hexpiry
  | replaces _ _ hreplaces =>
    rw [hreplaces] at hexpiry
    split at hexpiry
    · exact hput hexpiry
    · split at hexpiry
      · cases hexpiry
      · exact hpurge hexpiry

theorem Fits.perform (h : s.Fits now) (hle : now ≤ r.now) : (r.perform s).Fits r.now := by
  rcases h.perform_cases r with ⟨hperform, -⟩ | ⟨hperform, -⟩
  · rw [hperform]
    exact (h.purge r.now).mono hle
  · rw [hperform]
    exact h.insert hle r.key

theorem InOrder.capacity_perform (h : s.InOrder now) (r : Request κ) :
    (r.perform s).capacity = s.capacity := by
  rcases h.perform_cases r with ⟨hperform, -⟩ | ⟨hperform, -⟩
  · rw [hperform]
    rfl
  · rw [hperform, insert_eq_put]
    exact capacity_readied r.now r.key s

theorem InOrder.lifetime_perform (h : s.InOrder now) (r : Request κ) :
    (r.perform s).lifetime = s.lifetime := by
  rcases h.perform_cases r with ⟨hperform, -⟩ | ⟨hperform, -⟩
  · rw [hperform]
    rfl
  · rw [hperform, insert_eq_put]
    exact lifetime_readied r.now r.key s

end

/-! ### Runs -/

/-- The ledger of a run tells when the members of a set expire, as far as they have not. -/
structure Accounts (capacity : Nat) (lifetime : Duration) (events : List (Event κ)) (now : Instant)
    (s : ExpiringSet κ) : Prop extends s.Fits now where
  capacity_eq : s.capacity = capacity
  lifetime_eq : s.lifetime = lifetime
  expiry?_iff : ∀ key expiry, now < expiry → (s.expiry? key = some expiry ↔
    ∃ instant, LastPut events key instant ∧ expiry = instant + lifetime.nanoseconds)

section

variable {s : ExpiringSet κ} {now later : Instant} {key : κ} {r : Request κ} {capacity : Nat}
  {lifetime : Duration} {events : List (Event κ)}

theorem accounts_empty (capacity : Nat) (lifetime : Duration) (now : Instant) :
    Accounts (max capacity 1) (lifetime.min longestLifetime) [] now
      (empty capacity lifetime : ExpiringSet κ) where
  toFits := fits_empty capacity lifetime now
  capacity_eq := rfl
  lifetime_eq := rfl
  expiry?_iff _ _ _ := ⟨nofun, fun ⟨_, hput, _⟩ => absurd hput not_lastPut_nil⟩

/-- What a request changes is what it adds to the ledger. -/
theorem Accounts.perform (h : Accounts capacity lifetime events now s) (hle : now ≤ r.now) :
    Accounts capacity lifetime (events ++ r.events s) r.now (r.perform s) where
  toFits := h.toFits.perform hle
  capacity_eq := (h.capacity_perform r).trans h.capacity_eq
  lifetime_eq := (h.lifetime_perform r).trans h.lifetime_eq
  expiry?_iff key expiry hexpiry := by
    have hpurge : (s.purge r.now).expiry? key = some expiry ↔
        ∃ instant, LastPut events key instant ∧ expiry = instant + lifetime.nanoseconds := by
      rw [expiry?_purge_eq_some_iff h.toInOrder, and_iff_left hexpiry]
      exact h.expiry?_iff key expiry (Int.lt_of_le_of_lt hle hexpiry)
    have hput : some (r.now + (s.lifetime.nanoseconds : Int)) = some expiry ↔
        ∃ instant, instant = r.now ∧ expiry = instant + lifetime.nanoseconds := by
      rw [Option.some_inj, h.lifetime_eq, exists_eq_left, eq_comm]
    have hchanges := h.toFits.changes r
    rw [Request.events]
    generalize r.givenUp s = gone, r.puts s = puts at hchanges ⊢
    cases hchanges with
    | stays hstays =>
      rw [hstays, hpurge]
      simp
    | comes hcomes =>
      simp only [List.map_nil, List.nil_append, if_pos, hcomes, lastPut_putIn_iff]
      by_cases hkey : key = r.key
      · simpa only [if_pos hkey] using hput
      · simpa only [if_neg hkey] using hpurge
    | @replaces victim _ _ hreplaces =>
      simp only [List.map_singleton, if_pos, ← List.append_assoc, hreplaces, lastPut_putIn_iff,
        lastPut_givenUp_iff]
      by_cases hkey : key = r.key
      · simpa only [if_pos hkey] using hput
      · by_cases hvictim : key = victim
        · subst hvictim
          simp [hkey]
        · simpa [hkey, hvictim] using hpurge

theorem Accounts.mono (h : Accounts capacity lifetime events now s) (hle : now ≤ later) :
    Accounts capacity lifetime events later s where
  toFits := h.toFits.mono hle
  capacity_eq := h.capacity_eq
  lifetime_eq := h.lifetime_eq
  expiry?_iff key expiry hexpiry := h.expiry?_iff key expiry (Int.lt_of_le_of_lt hle hexpiry)

/-- However many requests there are, the ledger accounts for the members. -/
theorem Accounts.run {requests : List (Request κ)} (h : Accounts capacity lifetime events now s)
    (hsorted : (now :: (requests.map (·.now) ++ [later])).Pairwise (· ≤ ·)) :
    Accounts capacity lifetime (events ++ ledger requests s) later (after requests s) := by
  induction requests generalizing events now s with
  | nil =>
    rw [ledger, List.append_nil]
    exact h.mono (List.rel_of_pairwise_cons hsorted List.mem_concat_self)
  | cons r requests ih =>
    rw [List.map_cons, List.cons_append, List.pairwise_cons] at hsorted
    rw [ledger, ← List.append_assoc]
    exact ih (h.perform (hsorted.1 r.now List.mem_cons_self)) hsorted.2

/-- So it is for a set that is empty at first. -/
theorem accounts_after {requests : List (Request κ)}
    (hsorted : (requests ++ [r]).Pairwise fun first second => first.now ≤ second.now)
    (capacity : Nat) (lifetime : Duration) :
    Accounts (max capacity 1) (lifetime.min longestLifetime)
      (ledger requests (empty capacity lifetime)) r.now
      (after requests (empty capacity lifetime)) := by
  have hinstants : (requests.map (·.now) ++ [r.now]).Pairwise (· ≤ ·) := by
    have hmap := hsorted.map Request.now (fun _ _ h => h)
    rwa [List.map_append] at hmap
  cases requests with
  | nil => exact accounts_empty capacity lifetime r.now
  | cons first rest =>
    refine (accounts_empty capacity lifetime first.now).run (List.pairwise_cons.mpr ⟨?_, hinstants⟩)
    intro instant hinstant
    rcases List.mem_cons.mp hinstant with rfl | hinstant
    · exact Int.le_refl _
    · exact List.rel_of_pairwise_cons hinstants hinstant

/-! ### What a set contains -/

/-- A key is contained exactly if it was put in less than a lifetime ago and nothing has happened
to it since. -/
theorem Accounts.contains_iff (h : Accounts capacity lifetime events now s) (key : κ) :
    (s.contains now key).1 = true ↔
      ∃ instant, LastPut events key instant ∧ now < instant + lifetime.nanoseconds := by
  rw [contains_fst h.toInOrder, isLive_iff]
  constructor
  · rintro ⟨expiry, hexpiry, hlt⟩
    obtain ⟨instant, hput, rfl⟩ := (h.expiry?_iff key expiry hlt).mp hexpiry
    exact ⟨instant, hput, hlt⟩
  · rintro ⟨instant, hput, hlt⟩
    exact ⟨_, (h.expiry?_iff key _ hlt).mpr ⟨instant, hput, rfl⟩, hlt⟩

theorem Accounts.insertIfAbsent_fst (h : Accounts capacity lifetime events now s) (key : κ) :
    (s.insertIfAbsent now key).1 = !(s.contains now key).1 := by
  rw [contains_fst h.toInOrder]
  cases hlive : s.isLive now key with
  | true => rw [insertIfAbsent_of_isLive h.toInOrder hlive]; rfl
  | false => rw [insertIfAbsent_of_not_isLive h.toInOrder hlive]; rfl

/-- The keys that a set contains are counted by a set whose members they are. -/
theorem hasLive_size {s' : ExpiringSet κ} (hnodup : (s'.members.map (·.1)).Nodup)
    (h : ∀ key, (s.contains now key).1 = s'.holds key) : HasLive now s s'.size := by
  refine ⟨(s'.members.map (·.1)).toFinset, fun key => ?_, ?_⟩
  · rw [List.mem_toFinset, h, holds, expiry?, isSome_lookup_iff]
  · rw [List.toFinset_card_of_nodup hnodup, List.length_map]
    rfl

/-- What is left behind a request has not expired, unless it expires at once. -/
theorem Accounts.hasLive_perform (h : Accounts capacity lifetime events now s)
    (hle : now ≤ r.now) (hlifetime : 0 < lifetime.nanoseconds) :
    HasLive r.now (r.perform s) (r.perform s).size := by
  have hafter := h.perform hle
  refine hasLive_size hafter.nodup fun key => ?_
  rw [contains_fst hafter.toInOrder, Bool.eq_iff_iff, isLive_iff, holds, Option.isSome_iff_exists]
  refine exists_congr fun expiry => and_iff_left_of_imp fun hexpiry => ?_
  exact (h.toFits.changes r).lt_of_expiry? h.toInOrder (h.lifetime_eq ▸ hlifetime) hexpiry

/-- A member is given up for a key that is put in, in a set that is full without it, and none of the
other members expires before. -/
theorem Accounts.of_mem_givenUp (h : Accounts capacity lifetime events now s) {victim : κ}
    (hmem : victim ∈ r.givenUp s) :
    (r.puts s = true ∧ (s.contains r.now r.key).1 = false) ∧ r.givenUp s = [victim] ∧
      HasLive r.now s capacity ∧
      ∃ expiry, s.expiry? victim = some expiry ∧
        ∀ other later, (s.contains r.now other).1 = true → s.expiry? other = some later →
          expiry ≤ later := by
  have hchanges := h.toFits.changes r
  generalize r.givenUp s = gone, r.puts s = puts at hchanges hmem ⊢
  cases hchanges with
  | stays => cases hmem
  | comes => cases hmem
  | replaces hkey hvictim _ =>
    obtain rfl := List.mem_singleton.mp hmem
    obtain ⟨expiry, hexpiry, hfirst⟩ := hvictim.first
    have hlive : HasLive r.now s (s.purge r.now).size :=
      hasLive_size (h.purge r.now).nodup fun _ => rfl
    rw [hvictim.full] at hlive
    refine ⟨⟨rfl, hkey⟩, rfl, h.capacity_eq ▸ hlive, expiry,
      ((expiry?_purge_eq_some_iff h.toInOrder).mp hexpiry).1,
      fun other later hcontains hlater => ?_⟩
    rw [contains_fst h.toInOrder, isLive_iff] at hcontains
    obtain ⟨expiry', hexpiry', hlt⟩ := hcontains
    obtain rfl := Option.some.inj (hlater.symm.trans hexpiry')
    exact hfirst other later ((expiry?_purge_eq_some_iff h.toInOrder).mpr ⟨hlater, hlt⟩)

end

/-- For requests at instants that do not decrease, a set that is empty at first contains the keys
that were put in less than a lifetime ago and have not been given up since. A member is given up
only for a key that is put in and that the set does not contain, one at a time and the first to
expire, when the set contains as many keys as it has room for. A key is put in unless it is
contained, and behind a request the size of the set is the number of keys it contains, unless they
expire at once. -/
theorem contains_iff_lastPut (capacity : Nat) (lifetime : Duration) (requests : List (Request κ))
    (r : Request κ)
    (hsorted : (requests ++ [r]).Pairwise fun first second => first.now ≤ second.now) :
    let s := after requests (empty capacity lifetime)
    let ttl : Int := (lifetime.min longestLifetime).nanoseconds
    (∀ key, (s.contains r.now key).1 = true ↔
      ∃ instant, LastPut (ledger requests (empty capacity lifetime)) key instant ∧
        r.now < instant + ttl) ∧
    (∀ victim ∈ r.givenUp s,
      (r.puts s = true ∧ (s.contains r.now r.key).1 = false) ∧ r.givenUp s = [victim] ∧
      HasLive r.now s (max capacity 1) ∧
      ∃ expiry, s.expiry? victim = some expiry ∧
        ∀ other later, (s.contains r.now other).1 = true → s.expiry? other = some later →
          expiry ≤ later) ∧
    (∀ key, (s.insertIfAbsent r.now key).1 = !(s.contains r.now key).1) ∧
    (0 < ttl → HasLive r.now (r.perform s) (r.perform s).size) := by
  intro s ttl
  have h := accounts_after hsorted capacity lifetime
  refine ⟨h.contains_iff, fun victim hvictim => h.of_mem_givenUp hvictim, h.insertIfAbsent_fst,
    fun httl => ?_⟩
  exact h.hasLive_perform (Int.le_refl r.now) (Int.natCast_pos.mp httl)

/-- Keys that are put in, the first of them twice. -/
def refreshing : List (Request Nat) := [⟨0, .insert, 1⟩, ⟨2, .insert, 2⟩, ⟨4, .insert, 1⟩]

/-- A key that comes to a full set. -/
def crowding : Request Nat := ⟨5, .insertIfAbsent, 3⟩

/-- With room for two keys, the one that has been put in again stays, and the other has to go,
though it came later at first. -/
theorem contains_iff_lastPut_of_refreshed :
    ((refreshing ++ [crowding]).Pairwise fun first second => first.now ≤ second.now) ∧
      crowding.givenUp (after refreshing (empty 2 (.ofNanoseconds 10))) = [2] ∧
      HasLive 5 (after refreshing (empty 2 (.ofNanoseconds 10))) 2 ∧
      ((after refreshing (empty 2 (.ofNanoseconds 10))).contains 5 1).1 = true ∧
      HasLive 5 (crowding.perform (after refreshing (empty 2 (.ofNanoseconds 10)))) 2 := by
  have hsorted :
      (refreshing ++ [crowding]).Pairwise fun first second => first.now ≤ second.now := by decide
  obtain ⟨hcontains, hgivenUp, -, hsize⟩ :=
    contains_iff_lastPut 2 (.ofNanoseconds 10) refreshing crowding hsorted
  have hput : LastPut (ledger refreshing (empty 2 (.ofNanoseconds 10))) 1 4 :=
    ⟨[.putIn 0 1, .putIn 2 2], [], rfl, nofun⟩
  have hgone : crowding.givenUp (after refreshing (empty 2 (.ofNanoseconds 10))) = [2] := rfl
  obtain ⟨-, -, hfull, -⟩ := hgivenUp 2 (hgone ▸ List.mem_singleton_self 2)
  exact ⟨hsorted, hgone, hfull, (hcontains 1).mpr ⟨4, hput, by decide⟩, hsize (by decide)⟩

end ExpiringSet

end QueryTelemetry
