import QueryTelemetry.Collection

/-!
# What a cycle gets out of its source

A cycle ends early if the collector has been asked to stop, if the columns of the view cannot be
found out or are not enough, or if the query for the statistics fails. `Inquiry.retrieval` tells
these endings apart by the answers of the source. The cycle goes on only with rows that it has got
without any of this (`gather_run_fst`).
-/

namespace QueryTelemetry

/-- What a cycle gets out of its source. -/
inductive Retrieval
  /-- The collector had been asked to stop before the first query. -/
  | stopped
  /-- The columns of the view could not be found out. -/
  | undiscovered (e : QueryError)
  /-- The view lacks columns without which there is nothing to report. -/
  | incomplete (missing : List String)
  /-- The query for the statistics failed. -/
  | refused (e : QueryError)
  /-- There are rows, but the collector was asked to stop while they were being fetched. -/
  | abandoned (rows : List ViewRow)
  /-- The rows of the statistics, with nothing in the way of them. -/
  | complete (rows : List ViewRow)

/-- What a cycle does with what it gets: it goes on with rows, if there are any. -/
def Retrieval.gathered : Retrieval → Except CycleOutcome (List ViewRow)
  | stopped | abandoned _ => .error .cancelled
  | undiscovered _ | incomplete _ | refused _ => .error .noRows
  | complete rows => if rows.isEmpty then .error .noRows else .ok rows

/-- Whatever is in the way of rows, there is nothing to report or the collector was asked to
stop. -/
theorem Retrieval.outcome_of_gathered {retrieval : Retrieval} {outcome : CycleOutcome}
    (h : retrieval.gathered = .error outcome) : outcome = .noRows ∨ outcome = .cancelled := by
  rcases retrieval with _ | e | missing | e | rows | rows
  case complete =>
    rw [gathered] at h
    split at h
    · exact .inl (Except.error.inj h).symm
    · cases h
  case stopped | abandoned => exact .inr (Except.error.inj h).symm
  all_goals exact .inl (Except.error.inj h).symm

namespace Inquiry

variable {σ : Type} [Source σ] {settings : Settings} {i j : Inquiry σ}

omit [Source σ] in
theorem run_bind {α β : Type} (first : StateM (Inquiry σ) α) (next : α → StateM (Inquiry σ) β)
    (i : Inquiry σ) : (first >>= next).run i = (next (first.run i).1).run (first.run i).2 := rfl

theorem ask_run (sql : String) (parameters : List String) (i : Inquiry σ) :
    (ask sql parameters).run i =
      ((Source.query sql parameters i.source).1,
        { i with
          source := (Source.query sql parameters i.source).2
          columns := match (Source.query sql parameters i.source).1 with
            | .error e => if e.kind.doubtsColumns then .empty else i.columns
            | .ok _ => i.columns }) := rfl

/-! ### The columns of the view -/

/-- Columns that are known are not asked for. -/
theorem availableColumns_of_known {columns : List String} (h : i.columns = ⟨some columns⟩) :
    (availableColumns settings).run i = (.ok columns, i) := by
  obtain ⟨source, known, diagnostics, log⟩ := i
  obtain rfl : known = ⟨some columns⟩ := h
  rfl

/-- Unknown columns are found out, and kept from then on. -/
theorem availableColumns_of_unknown (h : i.columns = .empty) :
    (availableColumns settings).run i =
      match (ask (Catalog.discoveryQuery settings.view) []).run i with
      | (.error e, j) => (.error e, j)
      | (.ok result, j) =>
        (.ok (Text.sortedSet result.columns), { j with columns := .fill result.columns }) := by
  obtain ⟨source, known, diagnostics, log⟩ := i
  obtain rfl : known = .empty := h
  rw [availableColumns, run_bind]
  change StateT.run (ask (Catalog.discoveryQuery settings.view) [] >>= _)
    (⟨source, .empty, diagnostics, log⟩ : Inquiry σ) = _
  rw [run_bind]
  generalize (ask _ _).run (⟨source, .empty, diagnostics, log⟩ : Inquiry σ) = answer
  obtain ⟨answer, j⟩ := answer
  rcases answer with e | result <;> rfl

/-- The columns that are available are known from then on, and none are known if there are none. -/
theorem columns_availableColumns (settings : Settings) (i : Inquiry σ) :
    ((availableColumns settings).run i).2.columns =
      match ((availableColumns settings).run i).1 with
      | .error _ => .empty
      | .ok available => ⟨some available⟩ := by
  rcases hcolumns : i.columns with ⟨_ | columns⟩
  · rw [availableColumns_of_unknown hcolumns, ask_run]
    generalize Source.query (Catalog.discoveryQuery settings.view) [] i.source = answered
    obtain ⟨answer, source⟩ := answered
    rcases answer with e | result
    · -- an error leaves unknown columns unknown, whether it casts doubt on them or not
      simp only [hcolumns]
      exact ite_self _
    · rfl
  · rw [availableColumns_of_known hcolumns]
    exact hcolumns

/-! ### The rows of the statistics -/

theorem fetch_of_undiscovered {e : QueryError}
    (h : (availableColumns settings).run i = (.error e, j)) :
    (fetch settings).run i = ([], ((queryFailed settings e).run j).2) := by
  rw [fetch, run_bind, h]
  rfl

theorem fetch_of_incomplete {available : List String}
    (h : (availableColumns settings).run i = (.ok available, j))
    (hmissing : (Catalog.missingColumns available).isEmpty = false) :
    ∃ entry, (fetch settings).run i =
      ([], { j with
        diagnostics := j.diagnostics ++ [⟨.count, Collection.errorMetric, 1.0,
          settings.tags ++ [Collection.missingColumnsTag]⟩]
        log := j.log ++ [entry] }) := by
  rw [fetch, run_bind, h]
  simp only [hmissing]
  exact ⟨_, rfl⟩

/-- With all columns that are required, the query for the statistics decides. -/
theorem fetch_of_available {available : List String}
    (h : (availableColumns settings).run i = (.ok available, j))
    (hmissing : (Catalog.missingColumns available).isEmpty = true) :
    (fetch settings).run i =
      match (ask (statisticsRequest settings available).1
        (statisticsRequest settings available).2).run j with
      | (.error e, k) => ([], ((queryFailed settings e).run k).2)
      | (.ok result, k) => (result.rows, k) := by
  rw [fetch, run_bind, h]
  simp only [hmissing, if_true]
  rw [run_bind]
  generalize (ask _ _).run j = answer
  obtain ⟨answer, k⟩ := answer
  cases answer <;> rfl

/-! ### The whole inquiry -/

variable [Interruptible σ]

theorem gather_of_stopped (h : Interruptible.isRunning i.source = false) :
    (gather settings).run i = (.error .cancelled, i) := by
  have hflag : (isRunning : StateM (Inquiry σ) Bool).run i = (false, i) := Prod.ext h rfl
  rw [gather, run_bind, hflag]
  rfl

/-- Without rows the inquiry ends. Behind the last query the flag is looked at once more. -/
theorem gather_of_running (h : Interruptible.isRunning i.source = true) :
    (gather settings).run i =
      let fetched := (fetch settings).run i
      if fetched.1.isEmpty then (.error .noRows, fetched.2)
      else
        let occupied := ((reportOccupancy settings).run fetched.2).2
        (if Interruptible.isRunning occupied.source then .ok fetched.1 else .error .cancelled,
          occupied) := by
  have hflag : (isRunning : StateM (Inquiry σ) Bool).run i = (true, i) := Prod.ext h rfl
  rw [gather, run_bind, hflag]
  simp only [Bool.not_true, Bool.false_eq_true, if_false]
  rw [run_bind]
  generalize (fetch settings).run i = fetched
  obtain ⟨rows, j⟩ := fetched
  rcases rows with _ | ⟨row, rows⟩
  · rfl
  simp only [List.isEmpty_cons, Bool.false_eq_true, if_false]
  rw [run_bind, run_bind]
  generalize ((reportOccupancy settings).run j).2 = k
  have hlast : (isRunning : StateM (Inquiry σ) Bool).run k =
    (Interruptible.isRunning k.source, k) := rfl
  rw [hlast]
  cases Interruptible.isRunning k.source <;> rfl

/-- What an inquiry gets out of the source. -/
def retrieval (settings : Settings) (i : Inquiry σ) : Retrieval :=
  if Interruptible.isRunning i.source then
    match (availableColumns settings).run i with
    | (.error e, _) => .undiscovered e
    | (.ok available, j) =>
      let missing := Catalog.missingColumns available
      if missing.isEmpty then
        let (sql, parameters) := statisticsRequest settings available
        match (ask sql parameters).run j with
        | (.error e, _) => .refused e
        | (.ok result, k) =>
          if result.rows.isEmpty ||
              Interruptible.isRunning ((reportOccupancy settings).run k).2.source then
            .complete result.rows
          else .abandoned result.rows
      else .incomplete missing
  else .stopped

/-- The inquiry goes on with the rows that it has got completely. -/
theorem gather_run_fst (settings : Settings) (i : Inquiry σ) :
    ((gather settings).run i).1 = (retrieval settings i).gathered := by
  rw [retrieval]
  cases hrunning : Interruptible.isRunning i.source with
  | false =>
    rw [gather_of_stopped hrunning]
    rfl
  | true =>
    rw [gather_of_running hrunning, if_pos rfl]
    cases havailable : (availableColumns settings).run i with
    | mk answer j =>
      cases answer with
      | error e =>
        rw [fetch_of_undiscovered havailable]
        rfl
      | ok available =>
        simp only
        cases hmissing : (Catalog.missingColumns available).isEmpty with
        | false =>
          obtain ⟨entry, hfetch⟩ := fetch_of_incomplete havailable hmissing
          rw [hfetch]
          rfl
        | true =>
          rw [fetch_of_available havailable hmissing, if_pos rfl]
          generalize (ask _ _).run j = answer
          obtain ⟨answer, k⟩ := answer
          cases answer with
          | error e => rfl
          | ok result =>
            simp only
            generalize Interruptible.isRunning ((reportOccupancy settings).run k).2.source = running
            cases result.rows <;> cases running <;> rfl

end Inquiry

end QueryTelemetry
