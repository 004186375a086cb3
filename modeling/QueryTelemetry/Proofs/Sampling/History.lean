import QueryTelemetry.Proofs.Baselines.Totals
import QueryTelemetry.Proofs.ExpiringSet.Expiry
import QueryTelemetry.Sampling

/-!
# How often a full text is sent

A run of the sampler is a sequence of calls at instants that do not decrease. Each call draws all of
its events, or it gives up after a number of them. As long as the set of seen identities has room
for all that come up, two texts of one identity are at least a lifetime apart, and a call that draws
all of its events sends one text for each identity that has had none within the last lifetime
(`run_keeps_lifetime`).

The set is purged only now and then, and a call may stop anywhere. What carries the induction is
that at any later instant the identities in the set are those that have had a text less than a
lifetime before (`Follows`).
-/

namespace QueryTelemetry

/-- The identity of the statement that a text belongs to. -/
def TextEvent.identity (e : TextEvent) : Identity := ⟨e.fingerprint, e.database, e.role⟩

namespace Sampling

open Baselines (distinctKeys)

variable {context : EventContext} {now : Instant} {s : NormalStatement}
  {statements rest : List NormalStatement} {seen seen' : Seen}

/-! ### Drawing -/

theorem draw_nil (context : EventContext) (now : Instant) (count : Nat) (seen : Seen) :
    draw context now count [] seen = ([], seen) := by
  cases count <;> rfl

/-- The text of a statement that has not been seen is drawn. -/
theorem draw_cons_of_absent (h : seen.insertIfAbsent now s.identity = (true, seen')) (count : Nat) :
    draw context now (count + 1) (s :: rest) seen =
      (TextEvent.ofStatement context s :: (draw context now count rest seen').1,
        (draw context now count rest seen').2) := by
  simp only [draw, next, h]

/-- A statement that has been seen is passed over. -/
theorem draw_cons_of_present (h : seen.insertIfAbsent now s.identity = (false, seen'))
    (count : Nat) :
    draw context now (count + 1) (s :: rest) seen = draw context now (count + 1) rest seen' := by
  simp only [draw, next, h]

/-- It makes no difference how many more events than statements are asked for. -/
theorem draw_eq_draw {count count' : Nat} (h : statements.length < count)
    (h' : statements.length < count') :
    draw context now count statements seen = draw context now count' statements seen := by
  induction statements generalizing seen count count' with
  | nil => rw [draw_nil, draw_nil]
  | cons s rest ih =>
    rw [List.length_cons] at h h'
    obtain ⟨count, rfl⟩ : ∃ n, count = n + 1 := ⟨count - 1, by omega⟩
    obtain ⟨count', rfl⟩ : ∃ n, count' = n + 1 := ⟨count' - 1, by omega⟩
    cases hseen : seen.insertIfAbsent now s.identity with
    | mk absent seen' =>
      cases absent with
      | true =>
        rw [draw_cons_of_absent hseen, draw_cons_of_absent hseen,
          ih (by omega : rest.length < count) (by omega : rest.length < count')]
      | false =>
        rw [draw_cons_of_present hseen, draw_cons_of_present hseen]
        exact ih (by omega) (by omega)

theorem drain_cons_of_absent (h : seen.insertIfAbsent now s.identity = (true, seen')) :
    drain context now (s :: rest) seen =
      (TextEvent.ofStatement context s :: (drain context now rest seen').1,
        (drain context now rest seen').2) :=
  draw_cons_of_absent h (rest.length + 1)

theorem drain_cons_of_present (h : seen.insertIfAbsent now s.identity = (false, seen')) :
    drain context now (s :: rest) seen = drain context now rest seen' :=
  (draw_cons_of_present h (rest.length + 1)).trans (draw_eq_draw (by omega) (by omega))

/-! ### Texts that are due -/

/-- Whether an identity has had a text less than a lifetime before an instant. -/
def isRecent (lifetime : Duration) (now : Instant) (sent : List (Instant × TextEvent))
    (k : Identity) : Bool :=
  sent.any fun (instant, event) =>
    event.identity = k ∧ now - lifetime.nanoseconds < instant ∧ instant ≤ now

/-- The texts that are due: in the order of the statements one for each identity that has had none
of late, that of the first statement with the identity. -/
def dueTexts (context : EventContext) (recent : Identity → Bool)
    (statements : List NormalStatement) : List TextEvent :=
  ((distinctKeys NormalStatement.identity statements).filter fun k => !recent k).filterMap fun k =>
    (statements.find? fun s => s.identity = k).map (TextEvent.ofStatement context)

/-- Behind the first statement the texts of other identities are found. -/
theorem filterMap_find?_cons (context : EventContext) (s : NormalStatement)
    (rest : List NormalStatement) {keys : List Identity} (h : ∀ k ∈ keys, k ≠ s.identity) :
    (keys.filterMap fun k =>
        ((s :: rest).find? fun s => s.identity = k).map (TextEvent.ofStatement context)) =
      keys.filterMap fun k =>
        (rest.find? fun s => s.identity = k).map (TextEvent.ofStatement context) := by
  refine List.filterMap_congr fun k hk => ?_
  rw [List.find?_cons_of_neg]
  simpa using fun hsame => h k hk hsame.symm

/-- No text is due for an identity that has had one of late. -/
theorem dueTexts_cons_of_recent {recent : Identity → Bool} (h : recent s.identity = true) :
    dueTexts context recent (s :: rest) = dueTexts context recent rest := by
  have hkeys : (distinctKeys NormalStatement.identity (s :: rest)).filter (fun k => !recent k) =
      (distinctKeys NormalStatement.identity rest).filter fun k => !recent k := by
    rw [Baselines.distinctKeys_cons, List.filter_cons_of_neg (by simp [h]), List.filter_filter]
    refine List.filter_congr fun k _ => ?_
    by_cases hk : k = s.identity
    · simp [hk, h]
    · simp [hk]
  rw [dueTexts, hkeys]
  refine filterMap_find?_cons context s rest fun k hk => ?_
  rintro rfl
  simp [h] at hk

/-- A text that is due is that of the first statement, and none is due for its identity then. -/
theorem dueTexts_cons_of_not_recent {recent recent' : Identity → Bool}
    (h : recent s.identity = false)
    (hrecent : ∀ k, recent' k = (recent k || decide (k = s.identity))) :
    dueTexts context recent (s :: rest) =
      TextEvent.ofStatement context s :: dueTexts context recent' rest := by
  have hkeys : (distinctKeys NormalStatement.identity (s :: rest)).filter (fun k => !recent k) =
      s.identity :: (distinctKeys NormalStatement.identity rest).filter fun k => !recent' k := by
    rw [Baselines.distinctKeys_cons, List.filter_cons_of_pos (by simp [h]), List.filter_filter]
    refine congrArg (s.identity :: ·) (List.filter_congr fun k _ => ?_)
    rw [hrecent, Bool.not_or, ← decide_not]
  rw [dueTexts, hkeys, List.filterMap_cons, List.find?_cons_of_pos (by simp)]
  refine congrArg (TextEvent.ofStatement context s :: ·) ?_
  refine filterMap_find?_cons context s rest fun k hk => ?_
  rintro rfl
  simp [hrecent] at hk

/-! ### Runs -/

/-- A use of the sampler. -/
structure Call where
  context : EventContext
  now : Instant
  statements : List NormalStatement
  /-- After how many events it gives up; without a limit it draws all. -/
  limit : Option Nat

/-- The events that a call draws. -/
def Call.draw (call : Call) (seen : Seen) : List TextEvent × Seen :=
  match call.limit with
  | some count => Sampling.draw call.context call.now count call.statements seen
  | none => drain call.context call.now call.statements seen

/-- Runs calls one after the other. The events come with the instants of their calls. -/
def run : List Call → Seen → List (Instant × TextEvent) × Seen
  | [], seen => ([], seen)
  | call :: calls, seen =>
    let (events, seen) := call.draw seen
    let (sent, seen) := run calls seen
    (events.map (call.now, ·) ++ sent, seen)

/-- The identities that come up in a run. -/
def occurring (calls : List Call) : List Identity :=
  (calls.flatMap fun call => call.statements.map NormalStatement.identity).eraseDups

/-- The events that have been sent are known from the set: at any later instant its members are the
identities that have had a text of late. Two texts of one identity are a lifetime apart. -/
structure Follows (lifetime : Duration) (identities : List Identity)
    (sent : List (Instant × TextEvent)) (now : Instant) (seen : Seen) : Prop where
  order : seen.InOrder now
  room : seen.HasRoomFor identities
  lifetime_eq : seen.lifetime = lifetime
  past : ∀ p ∈ sent, p.1 ≤ now
  live : ∀ later, now ≤ later → ∀ k, seen.isLive later k = isRecent lifetime later sent k
  apart : sent.Pairwise fun earlier later =>
    earlier.2.identity = later.2.identity → earlier.1 + (lifetime.nanoseconds : Int) ≤ later.1

section

variable {lifetime : Duration} {identities : List Identity} {sent : List (Instant × TextEvent)}
  {later : Instant}

theorem follows_empty {capacity : Nat} (h : identities.length ≤ max capacity 1)
    (lifetime : Duration) (now : Instant) :
    Follows (lifetime.min ExpiringSet.longestLifetime) identities [] now
      (.empty capacity lifetime) :=
  ⟨ExpiringSet.inOrder_empty capacity lifetime now, ⟨nofun, h⟩, rfl, nofun, fun _ _ _ => rfl,
    List.Pairwise.nil⟩

theorem Follows.mono (h : Follows lifetime identities sent now seen) (hle : now ≤ later) :
    Follows lifetime identities sent later seen :=
  ⟨h.order.mono hle, h.room, h.lifetime_eq, fun p hp => Int.le_trans (h.past p hp) hle,
    fun instant hinstant => h.live instant (Int.le_trans hle hinstant), h.apart⟩

theorem isRecent_eq_true_iff {k : Identity} :
    isRecent lifetime now sent k = true ↔
      ∃ p ∈ sent, p.2.identity = k ∧ now - lifetime.nanoseconds < p.1 ∧ p.1 ≤ now := by
  rw [isRecent, List.any_eq_true]
  exact exists_congr fun p => and_congr_right fun _ => decide_eq_true_iff

/-- An event makes its identity recent for a lifetime. -/
theorem isRecent_concat (lifetime : Duration) (hle : now ≤ later)
    (sent : List (Instant × TextEvent)) (event : TextEvent) (k : Identity) :
    isRecent lifetime later (sent ++ [(now, event)]) k =
      (isRecent lifetime later sent k ||
        decide (k = event.identity ∧ later < now + (lifetime.nanoseconds : Int))) := by
  rw [Bool.eq_iff_iff, Bool.or_eq_true, decide_eq_true_iff, isRecent_eq_true_iff,
    isRecent_eq_true_iff]
  have hinstant : later - (lifetime.nanoseconds : Int) < now ↔
      later < now + (lifetime.nanoseconds : Int) := Int.sub_lt_iff
  constructor
  · rintro ⟨p, hp, hk, hrecent⟩
    rcases List.mem_append.mp hp with hp | hp
    · exact .inl ⟨p, hp, hk, hrecent⟩
    · obtain rfl := List.mem_singleton.mp hp
      exact .inr ⟨hk.symm, hinstant.mp hrecent.1⟩
  · rintro (⟨p, hp, h⟩ | ⟨hk, h⟩)
    · exact ⟨p, List.mem_append_left _ hp, h⟩
    · exact ⟨_, List.mem_concat_self, hk.symm, hinstant.mpr h, hle⟩

/-- No lifetime goes by more than a lifetime after the last event. -/
theorem lt_of_isRecent {k : Identity} (hpast : ∀ p ∈ sent, p.1 ≤ now)
    (h : isRecent lifetime later sent k = true) : later < now + (lifetime.nanoseconds : Int) := by
  obtain ⟨p, hp, -, hrecent, -⟩ := isRecent_eq_true_iff.mp h
  exact Int.lt_of_lt_of_le (Int.sub_lt_iff.mp hrecent)
    (Int.add_le_add_right (hpast p hp) _)

/-- Whether a statement is passed over depends on the events that have been sent. -/
theorem Follows.insertIfAbsent_fst (h : Follows lifetime identities sent now seen)
    (hle : now ≤ later) (k : Identity) :
    (seen.insertIfAbsent later k).1 = !isRecent lifetime later sent k := by
  rw [← h.live later hle]
  cases hlive : seen.isLive later k with
  | true => rw [ExpiringSet.insertIfAbsent_of_isLive h.order hlive]; rfl
  | false => rw [ExpiringSet.insertIfAbsent_of_not_isLive h.order hlive]; rfl

/-- A statement that has had a text of late is passed over. -/
theorem Follows.offer_recent (h : Follows lifetime identities sent now seen) (hle : now ≤ later)
    (hs : s.identity ∈ identities) (hrecent : isRecent lifetime later sent s.identity = true) :
    ∃ seen', seen.insertIfAbsent later s.identity = (false, seen') ∧
      Follows lifetime identities sent later seen' := by
  refine ⟨(seen.insertIfAbsent later s.identity).2, Prod.ext ?_ rfl, ?_⟩
  · rw [h.insertIfAbsent_fst hle, hrecent]
    rfl
  · refine ⟨h.order.insertIfAbsent hle _, h.room.insertIfAbsent h.order hs,
      (ExpiringSet.lifetime_insertIfAbsent h.order _).trans h.lifetime_eq,
      fun p hp => Int.le_trans (h.past p hp) hle, fun instant hinstant k => ?_, h.apart⟩
    rw [ExpiringSet.isLive_insertIfAbsent h.order h.room hs hinstant, if_neg]
    · exact h.live instant (Int.le_trans hle hinstant) k
    · rw [h.live later hle, hrecent]
      exact fun hlive => Bool.noConfusion hlive.2

/-- The text of any other statement is sent. -/
theorem Follows.offer (h : Follows lifetime identities sent now seen) (hle : now ≤ later)
    (hs : s.identity ∈ identities) (hrecent : isRecent lifetime later sent s.identity = false)
    (context : EventContext) :
    ∃ seen', seen.insertIfAbsent later s.identity = (true, seen') ∧
      Follows lifetime identities (sent ++ [(later, TextEvent.ofStatement context s)]) later
        seen' := by
  have hpast : ∀ p ∈ sent, p.1 ≤ later := fun p hp => Int.le_trans (h.past p hp) hle
  refine ⟨(seen.insertIfAbsent later s.identity).2, Prod.ext ?_ rfl, ?_⟩
  · rw [h.insertIfAbsent_fst hle, hrecent]
    rfl
  · refine ⟨h.order.insertIfAbsent hle _, h.room.insertIfAbsent h.order hs,
      (ExpiringSet.lifetime_insertIfAbsent h.order _).trans h.lifetime_eq, fun p hp => ?_,
      fun instant hinstant k => ?_, ?_⟩
    · rcases List.mem_append.mp hp with hp | hp
      · exact hpast p hp
      · obtain rfl := List.mem_singleton.mp hp
        exact Int.le_refl later
    · rw [ExpiringSet.isLive_insertIfAbsent h.order h.room hs hinstant, h.live later hle, hrecent,
        h.lifetime_eq, isRecent_concat lifetime hinstant,
        h.live instant (Int.le_trans hle hinstant)]
      by_cases hk : k = s.identity
      · -- a text that was sent before has no more than this lifetime left
        rw [if_pos ⟨hk, rfl⟩]
        cases hold : isRecent lifetime instant sent k with
        | true => exact decide_eq_true (lt_of_isRecent hpast hold)
        | false => simp [hk, TextEvent.identity, TextEvent.ofStatement, NormalStatement.identity]
      · rw [if_neg fun hsame => hk hsame.1]
        have hother : ¬ (k = (TextEvent.ofStatement context s).identity ∧
            instant < later + (lifetime.nanoseconds : Int)) := fun hsame => hk hsame.1
        rw [decide_eq_false hother, Bool.or_false]
    · rw [List.pairwise_append]
      refine ⟨h.apart, List.pairwise_singleton _ _, fun p hp last hlast hsame => ?_⟩
      obtain rfl := List.mem_singleton.mp hlast
      refine Int.not_lt.mp fun hlt => Bool.eq_false_iff.mp hrecent (isRecent_eq_true_iff.mpr ?_)
      exact ⟨p, hp, hsame, Int.sub_lt_iff.mpr hlt, hpast p hp⟩

/-- However many events are drawn, they are known from the set afterwards. -/
theorem Follows.draw (h : Follows lifetime identities sent now seen) (hle : now ≤ later)
    (hidentities : ∀ s ∈ statements, s.identity ∈ identities) (context : EventContext)
    (count : Nat) :
    Follows lifetime identities
      (sent ++ (Sampling.draw context later count statements seen).1.map (later, ·)) later
      (Sampling.draw context later count statements seen).2 := by
  induction statements generalizing count sent now seen with
  | nil => simpa [draw_nil] using h.mono hle
  | cons s rest ih =>
    have hs := hidentities s List.mem_cons_self
    have hrest := fun s hs => hidentities s (List.mem_cons_of_mem _ hs)
    cases count with
    | zero => simpa [Sampling.draw] using h.mono hle
    | succ count =>
      cases hrecent : isRecent lifetime later sent s.identity with
      | true =>
        obtain ⟨seen', hpresent, h'⟩ := h.offer_recent hle hs hrecent
        rw [draw_cons_of_present hpresent]
        exact ih h' (Int.le_refl later) hrest (count + 1)
      | false =>
        obtain ⟨seen', habsent, h'⟩ := h.offer hle hs hrecent context
        rw [draw_cons_of_absent habsent, List.map_cons, List.append_cons]
        exact ih h' (Int.le_refl later) hrest count

/-- If all events are drawn, they are the texts that are due. -/
theorem Follows.drain_eq (h : Follows lifetime identities sent now seen) (hle : now ≤ later)
    (hidentities : ∀ s ∈ statements, s.identity ∈ identities)
    (hlifetime : 0 < lifetime.nanoseconds) (context : EventContext) :
    (drain context later statements seen).1 =
      dueTexts context (isRecent lifetime later sent) statements := by
  induction statements generalizing sent now seen with
  | nil => rfl
  | cons s rest ih =>
    have hs := hidentities s List.mem_cons_self
    have hrest := fun s hs => hidentities s (List.mem_cons_of_mem _ hs)
    cases hrecent : isRecent lifetime later sent s.identity with
    | true =>
      obtain ⟨seen', hpresent, h'⟩ := h.offer_recent hle hs hrecent
      rw [drain_cons_of_present hpresent, dueTexts_cons_of_recent hrecent]
      exact ih h' (Int.le_refl later) hrest
    | false =>
      obtain ⟨seen', habsent, h'⟩ := h.offer hle hs hrecent context
      rw [drain_cons_of_absent habsent, ih h' (Int.le_refl later) hrest]
      refine (dueTexts_cons_of_not_recent hrecent fun k => ?_).symm
      -- the text has just been sent, and its lifetime has not gone by
      have hlater : later < later + (lifetime.nanoseconds : Int) :=
        Int.lt_add_of_pos_right later (Int.natCast_pos.mpr hlifetime)
      rw [isRecent_concat lifetime (Int.le_refl later)]
      simp only [hlater, and_true]
      rfl

/-- A call leaves a set from which its events are known, too. -/
theorem Follows.call {call : Call} (h : Follows lifetime identities sent now seen)
    (hle : now ≤ call.now) (hidentities : ∀ s ∈ call.statements, s.identity ∈ identities) :
    Follows lifetime identities (sent ++ (call.draw seen).1.map (call.now, ·)) call.now
      (call.draw seen).2 := by
  rw [Call.draw]
  cases call.limit with
  | none => exact h.draw hle hidentities call.context (call.statements.length + 1)
  | some count => exact h.draw hle hidentities call.context count

/-- So does a run. -/
theorem Follows.run {calls : List Call} {last : Instant}
    (h : Follows lifetime identities sent now seen)
    (hordered : calls.Pairwise fun earlier later => earlier.now ≤ later.now)
    (hfirst : ∀ call ∈ calls, now ≤ call.now) (hlast : ∀ call ∈ calls, call.now ≤ last)
    (hle : now ≤ last)
    (hidentities : ∀ call ∈ calls, ∀ s ∈ call.statements, s.identity ∈ identities) :
    Follows lifetime identities (sent ++ (Sampling.run calls seen).1) last
      (Sampling.run calls seen).2 := by
  induction calls generalizing sent now seen with
  | nil => simpa [Sampling.run] using h.mono hle
  | cons call calls ih =>
    rw [List.pairwise_cons] at hordered
    rw [List.forall_mem_cons] at hfirst hlast hidentities
    have hrest := ih (h.call hfirst.1 hidentities.1) hordered.2 hordered.1 hlast.2 hlast.1
      hidentities.2
    rwa [List.append_assoc] at hrest

end

theorem run_append (before calls : List Call) (seen : Seen) :
    run (before ++ calls) seen =
      ((run before seen).1 ++ (run calls (run before seen).2).1,
        (run calls (run before seen).2).2) := by
  induction before generalizing seen with
  | nil => rfl
  | cons call before ih =>
    simp only [List.cons_append, run, ih, List.append_assoc]

theorem mem_occurring {calls : List Call} {call : Call} {s : NormalStatement}
    (hcall : call ∈ calls) (hs : s ∈ call.statements) : s.identity ∈ occurring calls :=
  List.mem_eraseDups.mpr
    (List.mem_flatMap.mpr ⟨call, hcall, List.mem_map.mpr ⟨s, hs, rfl⟩⟩)

/-- When a call of a run begins, the events of the calls before it are known from the set. -/
theorem follows_run {capacity : Nat} (lifetime : Duration) {before after : List Call} {call : Call}
    (hordered : (before ++ call :: after).Pairwise fun earlier later => earlier.now ≤ later.now)
    (hfew : (occurring (before ++ call :: after)).length ≤ max capacity 1) :
    Follows (lifetime.min ExpiringSet.longestLifetime) (occurring (before ++ call :: after))
      (run before (.empty capacity lifetime)).1 call.now
      (run before (.empty capacity lifetime)).2 := by
  rw [List.pairwise_append] at hordered
  have hlast : ∀ earlier ∈ before, earlier.now ≤ call.now :=
    fun earlier h => hordered.2.2 earlier h call List.mem_cons_self
  obtain ⟨start, hstart, hfirst⟩ : ∃ start ≤ call.now, ∀ earlier ∈ before, start ≤ earlier.now := by
    cases before with
    | nil => exact ⟨call.now, Int.le_refl _, nofun⟩
    | cons first rest =>
      exact ⟨first.now, hlast first List.mem_cons_self,
        List.forall_mem_cons.mpr ⟨Int.le_refl _, (List.pairwise_cons.mp hordered.1).1⟩⟩
  exact (follows_empty hfew lifetime start).run hordered.1 hfirst hlast hstart
    fun earlier h s hs => mem_occurring (List.mem_append_left _ h) hs

/-- The rate limit of full texts over a run. Let calls come at instants that do not decrease, each
drawing all of its events or giving up after some, and let no more identities come up than there is
room for. Then two texts of one identity are at least a lifetime apart. A call that draws all of its
events sends exactly the texts that are due: in the order of its statements one text for each
identity that has had none within the last lifetime, that of the first statement with the
identity. -/
theorem run_keeps_lifetime (capacity : Nat) (lifetime : Duration) (calls : List Call)
    (hordered : calls.Pairwise fun earlier later => earlier.now ≤ later.now)
    (hfew : (occurring calls).length ≤ max capacity 1) :
    ((run calls (.empty capacity lifetime)).1.Pairwise fun earlier later =>
      earlier.2.identity = later.2.identity →
        earlier.1 + ((lifetime.min ExpiringSet.longestLifetime).nanoseconds : Int) ≤ later.1) ∧
    ∀ before call after, calls = before ++ call :: after → call.limit = none →
      0 < (lifetime.min ExpiringSet.longestLifetime).nanoseconds →
      (call.draw (run before (.empty capacity lifetime)).2).1 =
        dueTexts call.context
          (isRecent (lifetime.min ExpiringSet.longestLifetime) call.now
            (run before (.empty capacity lifetime)).1)
          call.statements := by
  constructor
  · rcases List.eq_nil_or_concat' calls with rfl | ⟨before, last, rfl⟩
    · exact List.Pairwise.nil
    · have hfollows := (follows_run lifetime hordered hfew).call (Int.le_refl last.now)
        fun s hs => mem_occurring List.mem_concat_self hs
      simpa [run_append, run] using hfollows.apart
  · rintro before call after rfl hlimit hlifetime
    have hcall : call ∈ before ++ call :: after :=
      List.mem_append_right _ List.mem_cons_self
    rw [Call.draw, hlimit]
    exact (follows_run lifetime hordered hfew).drain_eq (Int.le_refl call.now)
      (fun s hs => mem_occurring hcall hs) hlifetime call.context

/-! ### A run -/

/-- A statement that is sampled. -/
def sampledStatement : NormalStatement := ⟨⟨"SELECT", none, none, none, .empty⟩, "f", .none⟩

/-- A call that draws all events of this statement, given twice. -/
def samplingAt (now : Instant) : Call where
  context := ⟨"", "", [], 0.0⟩
  now
  statements := [sampledStatement, sampledStatement]
  limit := none

/-- With a lifetime of a second and room for one identity, a text is sent at once, not again before
the second is over, and once more as soon as it is. -/
theorem run_keeps_lifetime_of_second :
    ((samplingAt 999999999).draw
        (run [samplingAt 0] (.empty 1 (.ofWholeSeconds 1))).2).1 = [] ∧
      ((samplingAt 1000000000).draw
        (run [samplingAt 0, samplingAt 999999999] (.empty 1 (.ofWholeSeconds 1))).2).1 =
          [TextEvent.ofStatement (samplingAt 1000000000).context sampledStatement] := by
  obtain ⟨-, hdue⟩ := run_keeps_lifetime 1 (.ofWholeSeconds 1)
    [samplingAt 0, samplingAt 999999999, samplingAt 1000000000] (by decide) (by decide)
  refine ⟨?_, ?_⟩
  · rw [hdue [samplingAt 0] (samplingAt 999999999) [samplingAt 1000000000] rfl rfl (by decide)]
    rfl
  · rw [hdue [samplingAt 0, samplingAt 999999999] (samplingAt 1000000000) [] rfl rfl (by decide)]
    rfl

end Sampling

end QueryTelemetry
