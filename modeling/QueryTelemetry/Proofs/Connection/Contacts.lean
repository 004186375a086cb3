import Mathlib.Data.List.Count
import QueryTelemetry.Connection.Link

/-!
# What a link has to do with its server

A `Logbook` hands on everything to a server, and writes down each attempt to connect and each
exchange on a connection. A link goes the same way with a logbook as without (`perform_logged`),
so the logbook says what any link does. How a link connects (`Connects`) and how it runs a query
(`Queries`) can be read off the contacts, and what is known of every reachable link follows from
that (`contacts_consistent`).
-/

namespace QueryTelemetry

namespace Connection

/-- What happens between a link and its server. -/
inductive Contact
  | attempt (result : Except Failure Session)
  | exchange (session : Session) (sql : String) (parameters : List String)
    (answer : Except Failure Answer)

/-- Whether a contact is an attempt to connect. -/
def Contact.isAttempt : Contact → Bool
  | .attempt _ => true
  | .exchange .. => false

/-- A server with the contacts that there have been, in order. -/
structure Logbook (σ : Type) where
  server : σ
  contacts : List Contact

namespace Logbook

variable {σ : Type} [Transport σ]

/-- Hands on an attempt to connect, and writes down how it ends. -/
def openSession (link : Link) (book : Logbook σ) : Except Failure Session × Logbook σ :=
  let (result, server) := Transport.openSession link book.server
  (result, ⟨server, book.contacts ++ [.attempt result]⟩)

/-- Hands on a query, and writes it down with the answer. -/
def ask (session : Session) (sql : String) (parameters : List String) (book : Logbook σ) :
    Except Failure Answer × Logbook σ :=
  let (answer, server) := Transport.ask session sql parameters book.server
  (answer, ⟨server, book.contacts ++ [.exchange session sql parameters answer]⟩)

instance : Transport (Logbook σ) := ⟨openSession, ask⟩

variable {link : Link} {server server' : σ} {session : Session} {sql : String}
  {parameters : List String}

theorem openSession_eq {result : Except Failure Session}
    (h : Transport.openSession link server = (result, server')) (contacts : List Contact) :
    Transport.openSession link (⟨server, contacts⟩ : Logbook σ) =
      (result, ⟨server', contacts ++ [.attempt result]⟩) := by
  change openSession link ⟨server, contacts⟩ = _
  rw [openSession, h]

theorem ask_eq {answer : Except Failure Answer}
    (h : Transport.ask session sql parameters server = (answer, server'))
    (contacts : List Contact) :
    Transport.ask session sql parameters (⟨server, contacts⟩ : Logbook σ) =
      (answer, ⟨server', contacts ++ [.exchange session sql parameters answer]⟩) := by
  change ask session sql parameters ⟨server, contacts⟩ = _
  rw [ask, h]

end Logbook

/-- A use of a link. -/
inductive Call
  | connect
  | query (sql : String) (parameters : List String)
  | serverVersion

namespace Linked

variable {σ : Type}

/-- A link with a logbook in which there are some contacts. -/
def logged (l : Linked σ) (contacts : List Contact) : Linked (Logbook σ) :=
  ⟨l.link, ⟨l.server, contacts⟩⟩

variable [Transport σ]

/-- The link after a call. -/
def perform (l : Linked σ) : Call → Linked σ
  | .connect => l.connect.2
  | .query sql parameters => (l.query sql parameters).2
  | .serverVersion => l.serverVersion.2

/-- The link after a number of calls. -/
def after (l : Linked σ) (calls : List Call) : Linked σ :=
  calls.foldl perform l

/-- The contacts in a call. -/
def contactsOf (l : Linked σ) (call : Call) : List Contact :=
  ((l.logged []).perform call).server.contacts

/-- The contacts in a number of calls. -/
def contacts (l : Linked σ) (calls : List Call) : List Contact :=
  ((l.logged []).after calls).server.contacts

/-! ### Connecting -/

section

variable {l : Linked σ} {session : Session} {failure : Failure} {answer : Except Failure Answer}
  {server server' : σ}

theorem connect_of_session (h : l.link.session = some session) : l.connect = (.ok (), l) := by
  rw [connect, h]

theorem connect_of_refused (h : l.link.session = none)
    (hopen : Transport.openSession l.link l.server = (.error failure, server)) :
    l.connect = (.error ⟨.connection, failure.message⟩,
      ⟨{ l.link with version := none, lastError := some failure.message }, server⟩) := by
  rw [connect, h]
  simp only [hopen]

/-- The first query on a new connection is that for the version. -/
theorem connect_of_opened (h : l.link.session = none)
    (hopen : Transport.openSession l.link l.server = (.ok session, server))
    (hask : Transport.ask session versionQuery [] server = (answer, server')) :
    l.connect = (.ok (), ⟨{ l.link with
      session := some session, version := answer.toOption.bind versionOf?, lastError := none },
      server'⟩) := by
  rw [connect, h]
  simp only [hopen, askVersion, hask]
  cases answer <;> rfl

end

/-- How a link connects, with the contacts. -/
inductive Connects (link : Link) : Except QueryError Unit → Link → List Contact → Prop
  | already {session : Session} (h : link.session = some session) :
    Connects link (.ok ()) link []
  | refused (h : link.session = none) (failure : Failure) :
    Connects link (.error ⟨.connection, failure.message⟩)
      { link with version := none, lastError := some failure.message }
      [.attempt (.error failure)]
  | opened (h : link.session = none) (session : Session) (answer : Except Failure Answer) :
    Connects link (.ok ())
      { link with
        session := some session, version := answer.toOption.bind versionOf?, lastError := none }
      [.attempt (.ok session), .exchange session versionQuery [] answer]

/-- With a logbook a link connects as without, and the contacts are written down. -/
theorem exists_connects (l : Linked σ) :
    ∃ new, Connects l.link l.connect.1 l.connect.2.link new ∧
      ∀ contacts, (l.logged contacts).connect =
        (l.connect.1, l.connect.2.logged (contacts ++ new)) := by
  cases hsession : l.link.session with
  | some session =>
    refine ⟨[], ?_, fun contacts => ?_⟩
    · rw [connect_of_session hsession]
      exact .already hsession
    · rw [connect_of_session hsession, List.append_nil]
      exact connect_of_session (l := l.logged contacts) hsession
  | none =>
    rcases hopen : Transport.openSession l.link l.server with ⟨failure | session, server⟩
    · rw [connect_of_refused hsession hopen]
      exact ⟨_, .refused hsession failure, fun contacts =>
        connect_of_refused (l := l.logged contacts) hsession
          (Logbook.openSession_eq hopen contacts)⟩
    · rcases hask : Transport.ask session versionQuery [] server with ⟨answer, server'⟩
      rw [connect_of_opened hsession hopen hask]
      refine ⟨_, .opened hsession session answer, fun contacts => ?_⟩
      rw [connect_of_opened (l := l.logged contacts) hsession
        (Logbook.openSession_eq hopen contacts) (Logbook.ask_eq hask _), List.append_assoc]
      rfl

theorem connects (l : Linked σ) :
    Connects l.link l.connect.1 l.connect.2.link (l.contactsOf .connect) ∧
      ∀ contacts, (l.logged contacts).connect =
        (l.connect.1, l.connect.2.logged (contacts ++ l.contactsOf .connect)) := by
  obtain ⟨new, h, hlogged⟩ := l.exists_connects
  have hnew : l.contactsOf .connect = new := by
    rw [contactsOf, perform, hlogged]
    rfl
  rw [hnew]
  exact ⟨h, hlogged⟩

/-- A link that has connected has a connection. -/
theorem Connects.exists_session {link link' : Link} {new : List Contact}
    (h : Connects link (.ok ()) link' new) : ∃ session, link'.session = some session := by
  cases h with
  | already h => exact ⟨_, h⟩
  | opened _ session _ => exact ⟨session, rfl⟩

/-! ### Queries -/

/-- A link after a query that has failed. A failure that breaks the connection takes the version
with it. -/
def afterFailure (link : Link) (failure : Failure) : Link :=
  if breaksConnection failure then
    { link with
      session := none, version := none, lastError := some (queryError failure).message }
  else { link with lastError := some (queryError failure).message }

section

variable {l l' : Linked σ} {session : Session} {sql : String} {parameters : List String}
  {e : QueryError} {failure : Failure} {answer : Answer} {server : σ}

theorem query_of_unconnected (h : l.connect = (.error e, l')) :
    l.query sql parameters = (.error e, l') := by
  rw [query, h]

theorem query_of_answered (h : l.connect = (.ok (), l')) (hsession : l'.link.session = some session)
    (hask : Transport.ask session sql parameters l'.server = (.ok answer, server)) :
    l.query sql parameters = (.ok answer.toResult, ⟨l'.link, server⟩) := by
  rw [query, h]
  simp only [hsession, hask]

theorem query_of_failed (h : l.connect = (.ok (), l')) (hsession : l'.link.session = some session)
    (hask : Transport.ask session sql parameters l'.server = (.error failure, server)) :
    l.query sql parameters =
      (.error (queryError failure), ⟨afterFailure l'.link failure, server⟩) := by
  rw [query, h]
  simp only [hsession, hask, afterFailure]

end

/-- How a query ends, what has become of the link, and the contacts, once the link has connected or
has tried to. -/
inductive Queries (connected : Except QueryError Unit) (link : Link) (contacts : List Contact)
    (sql : String) (parameters : List String) :
    Except QueryError QueryResult → Link → List Contact → Prop
  | unconnected {e : QueryError} (h : connected = .error e) :
    Queries connected link contacts sql parameters (.error e) link contacts
  | answered {session : Session} (h : connected = .ok ()) (hsession : link.session = some session)
    (answer : Answer) :
    Queries connected link contacts sql parameters (.ok answer.toResult) link
      (contacts ++ [.exchange session sql parameters (.ok answer)])
  | failed {session : Session} (h : connected = .ok ()) (hsession : link.session = some session)
    (failure : Failure) :
    Queries connected link contacts sql parameters (.error (queryError failure))
      (afterFailure link failure)
      (contacts ++ [.exchange session sql parameters (.error failure)])

/-- With a logbook a link runs a query as without, and the contacts are written down. -/
theorem exists_queries (l : Linked σ) (sql : String) (parameters : List String) :
    ∃ new, Queries l.connect.1 l.connect.2.link (l.contactsOf .connect) sql parameters
        (l.query sql parameters).1 (l.query sql parameters).2.link new ∧
      ∀ contacts, (l.logged contacts).query sql parameters =
        ((l.query sql parameters).1, (l.query sql parameters).2.logged (contacts ++ new)) := by
  obtain ⟨hconnects, hlogged⟩ := l.connects
  generalize l.contactsOf .connect = new at hconnects hlogged ⊢
  rcases hconnect : l.connect with ⟨e | ⟨⟩, l'⟩
  · rw [hconnect] at hlogged
    rw [query_of_unconnected hconnect]
    exact ⟨new, .unconnected rfl, fun contacts => query_of_unconnected (hlogged contacts)⟩
  · rw [hconnect] at hconnects hlogged
    obtain ⟨session, hsession⟩ := hconnects.exists_session
    rcases hask : Transport.ask session sql parameters l'.server with ⟨failure | answer, server⟩
    · rw [query_of_failed hconnect hsession hask]
      refine ⟨_, .failed rfl hsession failure, fun contacts => ?_⟩
      rw [query_of_failed (hlogged contacts) hsession (Logbook.ask_eq hask _), List.append_assoc]
      rfl
    · rw [query_of_answered hconnect hsession hask]
      refine ⟨_, .answered rfl hsession answer, fun contacts => ?_⟩
      rw [query_of_answered (hlogged contacts) hsession (Logbook.ask_eq hask _), List.append_assoc]
      rfl

theorem queries (l : Linked σ) (sql : String) (parameters : List String) :
    Queries l.connect.1 l.connect.2.link (l.contactsOf .connect) sql parameters
        (l.query sql parameters).1 (l.query sql parameters).2.link
        (l.contactsOf (.query sql parameters)) ∧
      ∀ contacts, (l.logged contacts).query sql parameters =
        ((l.query sql parameters).1,
          (l.query sql parameters).2.logged
            (contacts ++ l.contactsOf (.query sql parameters))) := by
  obtain ⟨new, h, hlogged⟩ := l.exists_queries sql parameters
  have hnew : l.contactsOf (.query sql parameters) = new := by
    rw [contactsOf, perform, hlogged]
    rfl
  rw [hnew]
  exact ⟨h, hlogged⟩

/-! ### Calls -/

/-- To know the version, a link does no more than connect. -/
theorem serverVersion_snd (l : Linked σ) : l.serverVersion.2 = l.connect.2 := by
  rw [serverVersion]
  rcases l.connect with ⟨e | ⟨⟩, l'⟩ <;> rfl

theorem contactsOf_serverVersion (l : Linked σ) :
    l.contactsOf .serverVersion = l.contactsOf .connect := by
  rw [contactsOf, perform, serverVersion_snd]
  rfl

/-- With a logbook a link goes the same way as without. -/
theorem perform_logged (l : Linked σ) (call : Call) (contacts : List Contact) :
    (l.logged contacts).perform call = (l.perform call).logged (contacts ++ l.contactsOf call) := by
  cases call with
  | connect => exact congrArg Prod.snd (l.connects.2 contacts)
  | query sql parameters => exact congrArg Prod.snd ((l.queries sql parameters).2 contacts)
  | serverVersion =>
    rw [perform, perform, serverVersion_snd, serverVersion_snd, contactsOf_serverVersion,
      l.connects.2]

/-! ### Attempts to connect -/

/-- There is one attempt if there is no connection, and none otherwise. -/
theorem Connects.countP {link link' : Link} {result : Except QueryError Unit}
    {new : List Contact} (h : Connects link result link' new) :
    new.countP Contact.isAttempt = if link.session = none then 1 else 0 := by
  cases h with
  | already h => rw [if_neg (by rw [h]; exact Option.some_ne_none _)]; rfl
  | refused h _ => rw [if_pos h]; rfl
  | opened h _ _ => rw [if_pos h]; rfl

theorem countP_contactsOf (l : Linked σ) (call : Call) :
    (l.contactsOf call).countP Contact.isAttempt = if l.link.session = none then 1 else 0 := by
  cases call with
  | connect => exact l.connects.1.countP
  | serverVersion => rw [contactsOf_serverVersion, l.connects.1.countP]
  | query sql parameters =>
    have hqueries := (l.queries sql parameters).1
    have hconnect := l.connects.1.countP
    generalize l.contactsOf (.query sql parameters) = new, (l.query sql parameters).1 = result,
      (l.query sql parameters).2.link = link at hqueries ⊢
    cases hqueries with
    | unconnected => exact hconnect
    | answered _ _ _ => rw [List.countP_append, hconnect]; rfl
    | failed _ _ _ => rw [List.countP_append, hconnect]; rfl

/-! ### The version -/

/-- The version has been read on a connection, and that is the last that has been opened. -/
def IsRead (history : List Contact) (session : Session) (version : ServerVersion) : Prop :=
  ∃ earlier answer later,
    history = earlier ++
      .attempt (.ok session) :: .exchange session versionQuery [] (.ok answer) :: later ∧
    versionOf? answer = some version ∧ ∀ contact ∈ later, contact.isAttempt = false

/-- If a version is known, it has been read on the connection that is open. -/
def IsUpToDate (link : Link) (history : List Contact) : Prop :=
  ∀ version, link.version = some version →
    ∃ session, link.session = some session ∧ IsRead history session version

section

variable {link link' : Link} {history new : List Contact}

theorem isUpToDate_of_none (h : link.version = none) : IsUpToDate link history :=
  fun _ hversion => absurd (h.symm.trans hversion) (Option.some_ne_none _).symm

/-- An exchange leaves the version up to date. -/
theorem IsUpToDate.exchange (h : IsUpToDate link history) {contact : Contact}
    (hcontact : contact.isAttempt = false) : IsUpToDate link (history ++ [contact]) := by
  intro version hversion
  obtain ⟨session, hsession, earlier, answer, later, rfl, hanswer, hlater⟩ := h version hversion
  refine ⟨session, hsession, earlier, answer, later ++ [contact], by simp, hanswer, ?_⟩
  intro last hlast
  rcases List.mem_append.mp hlast with hlast | hlast
  · exact hlater last hlast
  · rw [List.mem_singleton.mp hlast]
    exact hcontact

theorem IsUpToDate.connects (h : IsUpToDate link history) {result : Except QueryError Unit}
    (hconnects : Connects link result link' new) : IsUpToDate link' (history ++ new) := by
  cases hconnects with
  | already => rwa [List.append_nil]
  | refused => exact isUpToDate_of_none rfl
  | opened _ session answer =>
    intro version hversion
    cases answer with
    | error failure => cases hversion
    | ok answer => exact ⟨session, rfl, history, answer, [], rfl, hversion, nofun⟩

theorem IsUpToDate.afterFailure (h : IsUpToDate link history) (failure : Failure) :
    IsUpToDate (afterFailure link failure) history := by
  rw [Linked.afterFailure]
  split
  · exact isUpToDate_of_none rfl
  · exact h

end

/-- No call leaves a version behind that is not up to date. -/
theorem isUpToDate_perform (l : Linked σ) {history : List Contact}
    (h : IsUpToDate l.link history) (call : Call) :
    IsUpToDate (l.perform call).link (history ++ l.contactsOf call) := by
  have hconnect := h.connects l.connects.1
  cases call with
  | connect => exact hconnect
  | serverVersion => rwa [perform, serverVersion_snd, contactsOf_serverVersion]
  | query sql parameters =>
    have hqueries := (l.queries sql parameters).1
    rw [perform]
    generalize l.contactsOf (.query sql parameters) = new,
      (l.query sql parameters).1 = result, (l.query sql parameters).2.link = link at hqueries ⊢
    cases hqueries with
    | unconnected => exact hconnect
    | answered _ _ answer =>
      rw [← List.append_assoc]
      exact hconnect.exchange rfl
    | failed _ _ failure =>
      rw [← List.append_assoc]
      exact (hconnect.exchange rfl).afterFailure failure

/-- However many calls there are, the version is up to date. -/
theorem exists_isUpToDate (l : Linked σ) {history : List Contact}
    (h : IsUpToDate l.link history) (calls : List Call) :
    ∃ history', (l.logged history).after calls = (l.after calls).logged history' ∧
      IsUpToDate (l.after calls).link history' := by
  induction calls generalizing l history with
  | nil => exact ⟨history, rfl, h⟩
  | cons call calls ih =>
    obtain ⟨history', hafter, h'⟩ := ih (l.perform call) (l.isUpToDate_perform h call)
    refine ⟨history', ?_, h'⟩
    rw [after, List.foldl_cons, perform_logged]
    exact hafter

theorem isUpToDate_contacts (l : Linked σ) (h : l.link.version = none) (calls : List Call) :
    IsUpToDate (l.after calls).link (l.contacts calls) := by
  have hblank : IsUpToDate l.link [] := isUpToDate_of_none h
  obtain ⟨history, hafter, h'⟩ := l.exists_isUpToDate hblank calls
  rw [contacts, hafter]
  exact h'

/-! ### Links that can be reached -/

/-- A link without a connection, and without a version. -/
def IsUnconnected (link : Link) : Prop := link.session = none ∧ link.version = none

theorem afterFailure_lastError (link : Link) (failure : Failure) :
    (afterFailure link failure).lastError = some (queryError failure).message := by
  rw [afterFailure]
  split <;> rfl

theorem breaksConnection_iff {failure : Failure} :
    breaksConnection failure = true ↔
      (queryError failure).kind = .connection ∨ failure.saysClosed = true := by
  rw [breaksConnection, Bool.or_eq_true, beq_iff_eq]

/-- How a query fails: no connection can be opened, and nothing is kept of one, or the query itself
fails, and then the connection is kept with its version unless it is of no more use. -/
theorem Queries.of_error {link link' link'' : Link} {connected : Except QueryError Unit}
    {contacts new : List Contact} {sql : String} {parameters : List String} {e : QueryError}
    (h : Queries connected link' contacts sql parameters (.error e) link'' new)
    (hconnects : Connects link connected link' contacts) :
    link''.lastError = some e.message ∧
      ((∃ failure, new = [.attempt (.error failure)] ∧ e = ⟨.connection, failure.message⟩ ∧
          IsUnconnected link'') ∨
        ∃ session failure, link'.session = some session ∧
          new = contacts ++ [.exchange session sql parameters (.error failure)] ∧
          e = queryError failure ∧
          if e.kind = .connection ∨ failure.saysClosed = true then IsUnconnected link''
          else link''.session = some session ∧ link''.version = link'.version) := by
  cases h with
  | unconnected h =>
    subst h
    cases hconnects with
    | refused hsession failure => exact ⟨rfl, .inl ⟨failure, rfl, rfl, hsession, rfl⟩⟩
  | @failed session _ hsession failure =>
    refine ⟨afterFailure_lastError link' failure,
      .inr ⟨session, failure, hsession, rfl, rfl, ?_⟩⟩
    rw [afterFailure]
    by_cases hbreaks : breaksConnection failure = true
    · rw [if_pos (breaksConnection_iff.mp hbreaks), if_pos hbreaks]
      exact ⟨rfl, rfl⟩
    · rw [if_neg fun h => hbreaks (breaksConnection_iff.mpr h), if_neg hbreaks]
      exact ⟨hsession, rfl⟩

/-- However often a link has been used, and whatever its server does: a version that is known has
been read on the connection that is open. A call tries to connect once if there is no connection,
and not at all if there is one. The error of a query is that of a failure to connect or that of the
query, and it is kept as the last error; if the connection is gone behind it or of no more use, both
the connection and its version are given up, and otherwise both stay. A query that can be sent never
finds the link without a connection. -/
theorem contacts_consistent (client : Client) (connectionString database : String) (server : σ)
    (calls : List Call) :
    let new : Linked σ := ⟨.create client connectionString database, server⟩
    let l := new.after calls
    (∀ version, l.link.version = some version →
      ∃ session, l.link.session = some session ∧ IsRead (new.contacts calls) session version) ∧
    (∀ call, (l.contactsOf call).countP Contact.isAttempt =
      if l.link.session = none then 1 else 0) ∧
    (∀ sql parameters e, (l.query sql parameters).1 = .error e →
      (l.query sql parameters).2.link.lastError = some e.message ∧
      ((∃ failure, l.contactsOf (.query sql parameters) = [.attempt (.error failure)] ∧
          e = ⟨.connection, failure.message⟩ ∧ IsUnconnected (l.query sql parameters).2.link) ∨
        ∃ session failure, l.connect.2.link.session = some session ∧
          l.contactsOf (.query sql parameters) =
            l.contactsOf .connect ++ [.exchange session sql parameters (.error failure)] ∧
          e = queryError failure ∧
          if e.kind = .connection ∨ failure.saysClosed = true then
            IsUnconnected (l.query sql parameters).2.link
          else
            (l.query sql parameters).2.link.session = some session ∧
              (l.query sql parameters).2.link.version = l.connect.2.link.version)) ∧
    (∀ session, l.link.session = some session → l.connect = (.ok (), l)) ∧
    (l.connect.1 = .ok () → ∃ session, l.connect.2.link.session = some session) := by
  intro new l
  refine ⟨isUpToDate_contacts new rfl calls, l.countP_contactsOf, fun sql parameters e he => ?_,
    fun session hsession => connect_of_session hsession,
    fun hconnect => (hconnect ▸ l.connects.1).exists_session⟩
  have hqueries := (l.queries sql parameters).1
  rw [he] at hqueries
  exact hqueries.of_error l.connects.1

end Linked

/-! ### A server that leaves -/

/-- A server that takes every connection and has its answers ready. -/
structure Prompter where
  answers : List (Except Failure Answer)

namespace Prompter

/-- Gives the next answer; without one the connection is closed. -/
def answer (prompter : Prompter) : Except Failure Answer × Prompter :=
  match prompter.answers with
  | [] => (.error .closed, prompter)
  | answer :: answers => (answer, ⟨answers⟩)

instance : Transport Prompter := ⟨fun _ prompter => (.ok 0, prompter), fun _ _ _ => answer⟩

end Prompter

namespace Linked

/-- An answer to the query for the version. -/
def versionAnswer : Answer := ⟨[⟨"server_version_num", .text⟩], [[some (Text.utf8 "160002")]]⟩

/-- The server tells its version, and then it is shut down. -/
def leaving : Prompter :=
  ⟨[.ok versionAnswer, .error (.other "going" (some "57P01") false)]⟩

/-- The version is known after the first call, and given up with the connection at the second. -/
theorem contacts_consistent_of_leaving :
    let l := after ⟨.create ⟨"postgres", false⟩ "" "", leaving⟩ [.serverVersion]
    l.link.version = some ⟨16, 2, 0⟩ ∧
      (∃ session, l.link.session = some session ∧
        IsRead (contacts ⟨.create ⟨"postgres", false⟩ "" "", leaving⟩ [.serverVersion]) session
          ⟨16, 2, 0⟩) ∧
      (l.query "SELECT 1" []).1 = .error ⟨.connection, "going"⟩ ∧
      IsUnconnected (l.query "SELECT 1" []).2.link := by
  intro l
  obtain ⟨hread, -, hfails, -⟩ :=
    contacts_consistent ⟨"postgres", false⟩ "" "" leaving [.serverVersion]
  have hversion : l.link.version = some ⟨16, 2, 0⟩ := by decide +kernel
  have hquery : (l.query "SELECT 1" []).1 = .error ⟨.connection, "going"⟩ := rfl
  refine ⟨hversion, hread _ hversion, hquery, ?_⟩
  rcases (hfails "SELECT 1" [] _ hquery).2 with ⟨_, _, _, h⟩ | ⟨_, _, _, _, _, h⟩
  · exact h
  · rwa [if_pos (.inl rfl)] at h

end Linked

end Connection

end QueryTelemetry
