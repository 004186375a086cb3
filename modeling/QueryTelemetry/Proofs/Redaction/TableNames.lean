import QueryTelemetry.Proofs.Delivery.Contents
import QueryTelemetry.Proofs.Redaction.Mentions

/-!
# The names of the tables reach the event

The tables of a statement are kept as one text with commas between their names. No name has a comma
or a blank in it, not even where a quoted identifier has: it is cut there. So the names that are
read back are the ones that were collected, and these stand in the metrics of the statement and in
their document (`tables?_reach_event`).
-/

namespace QueryTelemetry

namespace Redaction

open Json

/-- The tables of a redacted statement are read back as they were collected, each of them whole and
in their order, and not at all if there are none. A row of metrics of the statement has them, and so
does the document of the row. -/
theorem tables?_reach_event (document statement : String) (options : Options) (redacted : Redacted)
    (hoptions : Options.parse? document = some options) (hcollect : options.collectTables = true)
    (h : redact document statement = .ok redacted) :
    redacted.mentions.tables? =
        (if tables redacted.text.toList = [] then none
        else some ((tables redacted.text.toList).map String.ofList)) ∧
      ∀ s : NormalStatement, s.mentions = redacted.mentions →
        (MetricsRow.ofStatement s).tables = redacted.mentions.tables? ∧
          (MetricsRow.ofStatement s).toJson.node.field? "dd_tables" (Node.orNull? Node.texts?) =
            some redacted.mentions.tables? := by
  refine ⟨tables?_eq_of_redact hoptions hcollect h, fun s hs => ?_⟩
  have htables : (MetricsRow.ofStatement s).tables = redacted.mentions.tables? :=
    congrArg Mentions.tables? hs
  refine ⟨htables, ?_⟩
  rw [← htables]
  exact (MetricsRow.ofStatement s).field?_tables

/-- Of the quoted identifiers in `SELECT * FROM "a,b" JOIN "c d"`, with a blank that does not break,
the parts in front of the comma and the blank are collected, and they are read back. -/
theorem tables?_reach_event_quoted :
    ∃ redacted, redact "" "SELECT * FROM \"a,b\" JOIN \"c\u00a0d\"" = .ok redacted ∧
      Options.default.collectTables = true ∧
      redacted.mentions.tables? = some ["\"a", "\"c"] ∧
      ∀ s : NormalStatement, s.mentions = redacted.mentions →
        (MetricsRow.ofStatement s).tables = redacted.mentions.tables? ∧
          (MetricsRow.ofStatement s).toJson.node.field? "dd_tables" (Node.orNull? Node.texts?) =
            some redacted.mentions.tables? := by
  have hstrip : strip false "SELECT * FROM \"a,b\" JOIN \"c\u00a0d\"".toList =
      .ok "SELECT * FROM \"a,b\" JOIN \"c\u00a0d\"".toList :=
    strip_eq_of_place? 22 "\"d\u00a0c\" NIOJ \"b,a\" MORF * TCELES".toList (by decide) (by decide)
  obtain ⟨mentions, hredact⟩ := exists_redact_of_strip (by decide) hstrip
  obtain ⟨hread, hevent⟩ := tables?_reach_event "" _ Options.default _ rfl rfl hredact
  have hcollected : tables "SELECT * FROM \"a,b\" JOIN \"c\u00a0d\"".toList =
      ["\"a".toList, "\"c".toList] := by
    have hfound : tableWords false (words "SELECT * FROM \"a,b\" JOIN \"c\u00a0d\"".toList) =
        ["\"a".toList, "\"c".toList] := by
      decide +kernel
    rw [tables, hfound]
    simp [List.eraseDups_cons]
  rw [hcollected] at hread
  exact ⟨_, hredact, rfl, hread, hevent⟩

end Redaction

end QueryTelemetry
