import Mathlib.Data.List.Nodup
import QueryTelemetry.Event
import QueryTelemetry.Proofs.Json.Members

/-!
# The contents of an event are read back

`Payload.ofNode?` reads the contents of an event out of its document. It expects each member under
its name and with a value of its kind, and tells the two kinds of events apart by their tag. Of a
double it only sees that it is one: a number with a point or an exponent, or `null`.

Reading what was written gives the contents without their doubles (`Payload.ofNode?_node`). The
names in each record of a document are different (`Payload.hasDistinctNames_toJson`): the columns of
the metrics stand in a row beside its other names and are none of them.
-/

namespace QueryTelemetry

open Json

/-! ### Parts of a document -/

namespace Json.Node

variable {α : Type}

/-- Reads the member of a record with a name. -/
def field? (name : String) (read : Node → Option α) (node : Node) : Option α :=
  (node.member? name).bind read

/-- Reads a part that may be `null`. -/
def orNull? (read : Node → Option α) : Node → Option (Option α)
  | .null => some none
  | node => (read node).map some

/-- Reads the member of a record with a name, if it is there. -/
def optionalField? (name : String) (read : Node → Option α) (node : Node) : Option (Option α) :=
  orDefault (fun value => (read value).map some) none (node.member? name)

/-- Reads the items of a list. -/
def items? (read : Node → Option α) : Node → Option (List α)
  | .list items => items.mapM read
  | _ => none

/-- A whole number of 64 bits. -/
def int64? : Node → Option Int64
  | .number n =>
    match n.value? with
    | some (.whole k) =>
      if Int64.minValue.toInt ≤ k ∧ k ≤ Int64.maxValue.toInt then some (Int64.ofInt k) else none
    | _ => none
  | _ => none

/-- Whether a part stands for a double. -/
def isDouble : Node → Bool
  | .null => true
  | .number n => !n.isWhole
  | _ => false

/-- A double, of which nothing is kept. -/
def double? (node : Node) : Option Float := if node.isDouble then some 0 else none

end Json.Node

/-! ### Contents without their doubles -/

/-- The counter, with zero in the place of a double. -/
def Counter.withoutDouble : Counter → Counter
  | whole n => whole n
  | real _ => real 0

/-- The values, with zero in the place of each double. -/
def Metrics.withoutDoubles (m : Metrics) : Metrics :=
  ofFn fun metric => (m.get? metric).map Counter.withoutDouble

/-- The row, with zero in the place of each double. -/
def MetricsRow.withoutDoubles (r : MetricsRow) : MetricsRow :=
  { r with metrics := r.metrics.withoutDoubles }

/-- The contents, with zero in the place of each double. -/
def Payload.withoutDoubles : Payload → Payload
  | text payload => .text { payload with timestamp := 0 }
  | metrics payload => .metrics
    { payload with timestamp := 0, interval := 0, rows := payload.rows.map (·.withoutDoubles) }

/-! ### Reading -/

/-- Reads a counter. -/
def Counter.ofNode? (node : Node) : Option Counter :=
  if node.isDouble then some (.real 0) else node.int64?.map .whole

/-- Reads the counters of a row. -/
def Metrics.ofNode (node : Node) : Metrics :=
  ofFn fun metric => node.field? metric.column Counter.ofNode?

/-- Reads a row of metrics. -/
def MetricsRow.ofNode? (node : Node) : Option MetricsRow := do
  let query ← node.field? "query" Node.text?
  let fingerprint ← node.field? "query_signature" Node.text?
  let database ← node.optionalField? "datname" Node.text?
  let role ← node.optionalField? "rolname" Node.text?
  let queryId ← node.optionalField? "queryid" Node.int64?
  let tables ← node.field? "dd_tables" (Node.orNull? Node.texts?)
  let commands ← node.field? "dd_commands" Node.texts?
  return ⟨.ofNode node, query, fingerprint, database, role, queryId, tables, commands⟩

/-- Reads the contents of a metrics event. -/
def MetricsPayload.ofNode? (node : Node) : Option MetricsPayload := do
  let host ← node.field? "host" Node.text?
  let timestamp ← node.field? "timestamp" Node.double?
  let interval ← node.field? "min_collection_interval" Node.double?
  let tags ← node.field? "tags" Node.texts?
  let rows ← node.field? "postgres_rows" (Node.items? MetricsRow.ofNode?)
  let serverVersion ← node.field? "postgres_version" Node.text?
  let collectorVersion ← node.field? "ddagentversion" Node.text?
  return ⟨host, timestamp, interval, tags, rows, serverVersion, collectorVersion⟩

/-- Reads the contents of a text event. -/
def TextPayload.ofNode? (node : Node) : Option TextPayload := do
  let timestamp ← node.field? "timestamp" Node.double?
  let host ← node.field? "host" Node.text?
  let collectorVersion ← node.field? "ddagentversion" Node.text?
  let source ← node.field? "ddsource" Node.text?
  let tags ← node.field? "ddtags" Node.text?
  let kind ← node.field? "dbm_type" Node.text?
  let instanceName ← node.field? "db" (·.field? "instance" (Node.orNull? Node.text?))
  let fingerprint ← node.field? "db" (·.field? "query_signature" Node.text?)
  let statement ← node.field? "db" (·.field? "statement" Node.text?)
  let database ← node.field? "postgres" (·.field? "datname" (Node.orNull? Node.text?))
  let role ← node.field? "postgres" (·.field? "rolname" (Node.orNull? Node.text?))
  return ⟨timestamp, host, collectorVersion, source, tags, kind, instanceName, fingerprint,
    statement, database, role⟩

/-- Reads the contents of an event of the kind that its tag says. -/
def Payload.ofNode? (node : Node) : Option Payload := do
  let tag ← node.field? "type" Node.text?
  if tag = "dbm-samples" then (node.field? "event" TextPayload.ofNode?).map .text
  else if tag = "dbm-metrics" then (node.field? "event" MetricsPayload.ofNode?).map .metrics
  else none

/-! ### Parts are read back -/

section Parts

variable {α β : Type}

theorem text?_node (s : String) : (Value.text s).node.text? = some s := decodeText?_unitsOf s

theorem texts?_node (texts : List String) : (Value.ofTexts texts).node.texts? = some texts := by
  have hitems : (texts.map (Value.node ∘ Value.text)).mapM Node.text? = some (texts.map id) :=
    mapM_map_eq_some fun s _ => text?_node s
  rw [Value.ofTexts, Value.node, nodesOf_eq_map, List.map_map, Node.texts?, hitems, List.map_id]

theorem orNull?_text?_node (s : Option String) :
    (Value.ofText? s).node.orNull? Node.text? = some s := by
  cases s with
  | none => rfl
  | some s => exact congrArg (Option.map some) (text?_node s)

theorem orNull?_texts?_node (texts : Option (List String)) :
    (Value.ofTexts? texts).node.orNull? Node.texts? = some texts := by
  cases texts with
  | none => rfl
  | some texts => exact congrArg (Option.map some) (texts?_node texts)

theorem int64?_node (n : Int64) : (Value.whole n.toInt).node.int64? = some n := by
  have hmin : Int64.minValue.toInt = -2 ^ 63 := by decide
  have hmax : Int64.maxValue.toInt = 2 ^ 63 - 1 := by decide
  have hlow : -2 ^ 63 ≤ n.toInt := Int64.le_toInt n
  have hhigh : n.toInt < 2 ^ 63 := Int64.toInt_lt n
  have hvalue := value?_wholeNumber hlow (by omega)
  simp only [Value.node, Node.int64?, hvalue]
  rw [if_pos (by omega), Int64.ofInt_toInt]

theorem isDouble_node (x : Float) : (Value.real x).node.isDouble = true := by
  rw [Value.node, doubleNode]
  rcases doubleToken_cases x with ⟨-, htoken⟩ | ⟨n, -, hwhole, -, htoken⟩
  · rw [htoken]
    rfl
  · rw [htoken, Node.isDouble, hwhole]
    rfl

theorem double?_node (x : Float) : (Value.real x).node.double? = some 0 := by
  rw [Node.double?, isDouble_node]
  rfl

end Parts

/-! ### Counters and their columns -/

theorem Metric.column_injective : Function.Injective Metric.column := by
  intro a b h
  have hfound : ∀ metric : Metric, Metric.ofColumn? metric.column = some metric := by
    intro metric
    cases metric <;> decide
  have := congrArg Metric.ofColumn? h
  rw [hfound, hfound] at this
  exact Option.some.inj this

/-- A counter is read back, a double as zero. -/
theorem Counter.ofNode?_node (c : Counter) : ofNode? c.toJson.node = some c.withoutDouble := by
  cases c with
  | whole n =>
    have hwhole : (Value.whole n.toInt).node.isDouble = false := rfl
    rw [toJson, ofNode?, hwhole, int64?_node]
    rfl
  | real x =>
    rw [toJson, ofNode?, isDouble_node]
    rfl

/-- The column of a counter that is there is the name of its member. -/
theorem Metrics.lookup_members (m : Metrics) (name : String) :
    m.members.lookup name =
      (Metric.ofColumn? name).bind fun metric => (m.get? metric).map Counter.toJson := by
  rw [members, toList, Metric.ofColumn?]
  induction Metric.all.toList with
  | nil => rfl
  | cons metric metrics ih =>
    rw [List.filterMap_cons, List.find?_cons]
    by_cases hname : metric.column = name
    · subst hname
      cases hvalue : m.get? metric with
      | some value => simp [hvalue]
      | none =>
        -- no other counter has this column
        have hrest : (metrics.find? fun other => other.column = metric.column).bind
            (fun other => (m.get? other).map Counter.toJson) = none := by
          rw [Option.bind_eq_none_iff]
          intro other hother
          have hcolumn : other.column = metric.column := by simpa using List.find?_some hother
          rw [Metric.column_injective hcolumn, hvalue]
          rfl
        simpa [hvalue, hrest] using ih
    · have hlookup : (name == metric.column) = false := by simpa using Ne.symm hname
      cases hvalue : m.get? metric with
      | some value => simpa [hname, hlookup, List.lookup_cons] using ih
      | none => simpa [hname] using ih

theorem lookup_optionalMember (name other : String) (value : Option Value) :
    (optionalMember name value).lookup other = if other = name then value else none := by
  cases value with
  | none => simp [optionalMember]
  | some value =>
    have hlookup : (optionalMember name (some value)).lookup other =
        if other == name then some value else none := by
      rw [optionalMember, Option.map_some, Option.toList_some, List.lookup_cons, List.lookup_nil]
      cases other == name <;> rfl
    simpa using hlookup

/-! ### Events are read back -/

/-- A member of a record is read under its name. -/
theorem field?_node {α : Type} {members : List (String × Value)} {name : String} {value : Value}
    (h : members.lookup name = some value) (read : Node → Option α) :
    (Value.record members).node.field? name read = read value.node := by
  rw [Node.field?, member?_node, h]
  rfl

/-- A member that may be left out is read under its name. -/
theorem optionalField?_node {α : Type} {members : List (String × Value)} {name : String}
    {value : Option α} {write : α → Value} (h : members.lookup name = value.map write)
    {read : Node → Option α} (hread : ∀ x, read (write x).node = some x) :
    (Value.record members).node.optionalField? name read = some value := by
  rw [Node.optionalField?, member?_node, h]
  cases value with
  | none => rfl
  | some x => exact congrArg (Option.map some) (hread x)

/-- The names in a row that stand beside the columns. -/
def statementNames : List String :=
  ["query", "query_signature", "datname", "rolname", "queryid", "dd_tables", "dd_commands"]

theorem column_not_mem_statementNames (metric : Metric) : metric.column ∉ statementNames := by
  cases metric <;> decide

theorem map_fst_optionalMember_sublist (name : String) (value : Option Value) :
    ((optionalMember name value).map Prod.fst).Sublist [name] := by
  cases value with
  | none => exact List.nil_sublist [name]
  | some value => exact List.Sublist.refl [name]

theorem map_fst_statementMembers_sublist (r : MetricsRow) :
    (r.statementMembers.map Prod.fst).Sublist statementNames := by
  have hdatabase := map_fst_optionalMember_sublist "datname" (r.database.map .text)
  have hrole := map_fst_optionalMember_sublist "rolname" (r.role.map .text)
  have hqueryId := map_fst_optionalMember_sublist "queryid" (r.queryId.map fun n => .whole n.toInt)
  simp only [MetricsRow.statementMembers, List.map_append]
  have hquery := List.Sublist.refl ["query", "query_signature"]
  exact (((hquery.append hdatabase).append hrole).append hqueryId).append
    (List.Sublist.refl ["dd_tables", "dd_commands"])

/-- The counters in a row come in the order of their columns. -/
theorem map_fst_members_sublist (m : Metrics) :
    (m.members.map Prod.fst).Sublist (Metric.all.toList.map Metric.column) := by
  rw [Metrics.members, Metrics.toList]
  induction Metric.all.toList with
  | nil => exact List.Sublist.slnil
  | cons metric metrics ih =>
    cases hvalue : m.get? metric with
    | none => simpa [hvalue] using ih.trans (List.sublist_cons_self _ _)
    | some value => simpa [hvalue] using ih

/-- A column is looked up among the counters of a row. -/
theorem MetricsRow.lookup_column (r : MetricsRow) (metric : Metric) :
    (r.metrics.members ++ r.statementMembers).lookup metric.column =
      (r.metrics.get? metric).map Counter.toJson := by
  have hcolumn : Metric.ofColumn? metric.column = some metric := by cases metric <;> decide
  have hother : r.statementMembers.lookup metric.column = none := by
    rw [List.lookup_eq_none_iff]
    intro member hmember
    have hname : member.1 ∈ statementNames :=
      (map_fst_statementMembers_sublist r).subset (List.mem_map_of_mem hmember)
    rw [bne_iff_ne]
    intro heq
    rw [← heq] at hname
    exact column_not_mem_statementNames metric hname
  rw [List.lookup_append, Metrics.lookup_members, hcolumn, hother, Option.or_none]
  rfl

/-- A name that is no column is looked up among the other members of a row. -/
theorem MetricsRow.lookup_name (r : MetricsRow) {name : String}
    (h : Metric.ofColumn? name = none) :
    (r.metrics.members ++ r.statementMembers).lookup name = r.statementMembers.lookup name := by
  rw [List.lookup_append, Metrics.lookup_members, h]
  rfl

/-- The counters of a row are read back without their doubles. -/
theorem Metrics.ofNode_node (r : MetricsRow) : ofNode r.toJson.node = r.metrics.withoutDoubles := by
  refine ext_get? fun metric => ?_
  rw [ofNode, get?_ofFn, withoutDoubles, get?_ofFn, MetricsRow.toJson, Node.field?, member?_node,
    r.lookup_column]
  cases r.metrics.get? metric with
  | none => rfl
  | some value => exact Counter.ofNode?_node value

/-- The members of a row that may be left out, and those behind them. -/
theorem MetricsRow.lookup_statementMembers (r : MetricsRow) :
    r.statementMembers.lookup "datname" = r.database.map .text ∧
      r.statementMembers.lookup "rolname" = r.role.map .text ∧
      r.statementMembers.lookup "queryid" = r.queryId.map (fun n => .whole n.toInt) ∧
      r.statementMembers.lookup "dd_tables" = some (.ofTexts? r.tables) ∧
      r.statementMembers.lookup "dd_commands" = some (.ofTexts r.commands) := by
  simp [statementMembers, List.lookup_append, lookup_optionalMember, List.lookup_cons]

/-- A name that is no column is looked up where it stands among the other members of a row. -/
theorem MetricsRow.lookup_of_lookup (r : MetricsRow) {name : String} {value : Option Value}
    (h : Metric.ofColumn? name = none) (hvalue : r.statementMembers.lookup name = value) :
    (r.metrics.members ++ r.statementMembers).lookup name = value :=
  (r.lookup_name h).trans hvalue

/-- The tables of a row are read back. -/
theorem MetricsRow.field?_tables (r : MetricsRow) :
    r.toJson.node.field? "dd_tables" (Node.orNull? Node.texts?) = some r.tables := by
  have hlookup := r.lookup_of_lookup (by decide) r.lookup_statementMembers.2.2.2.1
  exact (field?_node hlookup _).trans (orNull?_texts?_node r.tables)

/-- A row of metrics is read back without its doubles. -/
theorem MetricsRow.ofNode?_node (r : MetricsRow) :
    ofNode? r.toJson.node = some r.withoutDoubles := by
  obtain ⟨hdatname, hrolname, hqueryid, -, hddCommands⟩ := r.lookup_statementMembers
  have hquery : r.toJson.node.field? "query" Node.text? = some r.query :=
    (field?_node (r.lookup_of_lookup (by decide) rfl) _).trans (text?_node r.query)
  have hfingerprint : r.toJson.node.field? "query_signature" Node.text? = some r.fingerprint :=
    (field?_node (r.lookup_of_lookup (by decide) rfl) _).trans (text?_node r.fingerprint)
  have hdatabase : r.toJson.node.optionalField? "datname" Node.text? = some r.database :=
    optionalField?_node (r.lookup_of_lookup (by decide) hdatname) text?_node
  have hrole : r.toJson.node.optionalField? "rolname" Node.text? = some r.role :=
    optionalField?_node (r.lookup_of_lookup (by decide) hrolname) text?_node
  have hqueryId : r.toJson.node.optionalField? "queryid" Node.int64? = some r.queryId :=
    optionalField?_node (r.lookup_of_lookup (by decide) hqueryid) int64?_node
  have hcommands : r.toJson.node.field? "dd_commands" Node.texts? = some r.commands :=
    (field?_node (r.lookup_of_lookup (by decide) hddCommands) _).trans (texts?_node r.commands)
  simp only [ofNode?, hquery, hfingerprint, hdatabase, hrole, hqueryId, r.field?_tables, hcommands,
    Option.bind_eq_bind, Option.bind_some, Metrics.ofNode_node]
  rfl

/-- The contents of a metrics event are read back without their doubles. -/
theorem MetricsPayload.ofNode?_node (p : MetricsPayload) :
    (ofNode? p.toJson.node).map .metrics = some (Payload.metrics p).withoutDoubles := by
  have hhost : p.toJson.node.field? "host" Node.text? = some p.host :=
    (field?_node rfl _).trans (text?_node p.host)
  have htimestamp : p.toJson.node.field? "timestamp" Node.double? = some 0 :=
    (field?_node rfl _).trans (double?_node p.timestamp)
  have hinterval : p.toJson.node.field? "min_collection_interval" Node.double? = some 0 :=
    (field?_node rfl _).trans (double?_node p.interval)
  have htags : p.toJson.node.field? "tags" Node.texts? = some p.tags :=
    (field?_node rfl _).trans (texts?_node p.tags)
  have hrows : p.toJson.node.field? "postgres_rows" (Node.items? MetricsRow.ofNode?) =
      some (p.rows.map (·.withoutDoubles)) := by
    have hitems : (p.rows.map (Value.node ∘ MetricsRow.toJson)).mapM MetricsRow.ofNode? =
        some (p.rows.map (·.withoutDoubles)) :=
      mapM_map_eq_some fun r _ => r.ofNode?_node
    rw [toJson, field?_node rfl, Value.node, nodesOf_eq_map, List.map_map]
    exact hitems
  have hserver : p.toJson.node.field? "postgres_version" Node.text? = some p.serverVersion :=
    (field?_node rfl _).trans (text?_node p.serverVersion)
  have hcollector : p.toJson.node.field? "ddagentversion" Node.text? = some p.collectorVersion :=
    (field?_node rfl _).trans (text?_node p.collectorVersion)
  simp only [ofNode?, hhost, htimestamp, hinterval, htags, hrows, hserver, hcollector,
    Option.bind_eq_bind, Option.bind_some]
  rfl

/-- The contents of a text event are read back without their doubles. -/
theorem TextPayload.ofNode?_node (p : TextPayload) :
    (ofNode? p.toJson.node).map .text = some (Payload.text p).withoutDoubles := by
  have htimestamp : p.toJson.node.field? "timestamp" Node.double? = some 0 :=
    (field?_node rfl _).trans (double?_node p.timestamp)
  have hhost : p.toJson.node.field? "host" Node.text? = some p.host :=
    (field?_node rfl _).trans (text?_node p.host)
  have hcollector : p.toJson.node.field? "ddagentversion" Node.text? = some p.collectorVersion :=
    (field?_node rfl _).trans (text?_node p.collectorVersion)
  have hsource : p.toJson.node.field? "ddsource" Node.text? = some p.source :=
    (field?_node rfl _).trans (text?_node p.source)
  have htags : p.toJson.node.field? "ddtags" Node.text? = some p.tags :=
    (field?_node rfl _).trans (text?_node p.tags)
  have hkind : p.toJson.node.field? "dbm_type" Node.text? = some p.kind :=
    (field?_node rfl _).trans (text?_node p.kind)
  have hinstance : p.toJson.node.field? "db" (·.field? "instance" (Node.orNull? Node.text?)) =
      some p.instanceName :=
    (field?_node rfl _).trans ((field?_node rfl _).trans (orNull?_text?_node p.instanceName))
  have hfingerprint : p.toJson.node.field? "db" (·.field? "query_signature" Node.text?) =
      some p.fingerprint :=
    (field?_node rfl _).trans ((field?_node rfl _).trans (text?_node p.fingerprint))
  have hstatement : p.toJson.node.field? "db" (·.field? "statement" Node.text?) =
      some p.statement :=
    (field?_node rfl _).trans ((field?_node rfl _).trans (text?_node p.statement))
  have hdatabase : p.toJson.node.field? "postgres" (·.field? "datname" (Node.orNull? Node.text?)) =
      some p.database :=
    (field?_node rfl _).trans ((field?_node rfl _).trans (orNull?_text?_node p.database))
  have hrole : p.toJson.node.field? "postgres" (·.field? "rolname" (Node.orNull? Node.text?)) =
      some p.role :=
    (field?_node rfl _).trans ((field?_node rfl _).trans (orNull?_text?_node p.role))
  simp only [ofNode?, htimestamp, hhost, hcollector, hsource, htags, hkind, hinstance, hfingerprint,
    hstatement, hdatabase, hrole, Option.bind_eq_bind, Option.bind_some]
  rfl

/-- The tag of an event is read back. -/
theorem Payload.tag_node (p : Payload) : p.toJson.node.field? "type" Node.text? = some p.tag :=
  (field?_node rfl _).trans (text?_node p.tag)

/-- The contents of an event are read back without their doubles. -/
theorem Payload.ofNode?_node (p : Payload) : ofNode? p.toJson.node = some p.withoutDoubles := by
  rw [ofNode?, p.tag_node]
  cases p with
  | text payload =>
    have hread : (Payload.text payload).toJson.node.field? "event" TextPayload.ofNode? =
        TextPayload.ofNode? payload.toJson.node := field?_node rfl _
    simp [tag, hread, payload.ofNode?_node]
  | metrics payload =>
    have hread : (Payload.metrics payload).toJson.node.field? "event" MetricsPayload.ofNode? =
        MetricsPayload.ofNode? payload.toJson.node := field?_node rfl _
    simp [tag, hread, payload.ofNode?_node]

/-! ### The names in a document -/

@[simp] theorem hasDistinctNames_ofTexts (texts : List String) :
    (Value.ofTexts texts).HasDistinctNames := by
  refine .list fun item hitem => ?_
  obtain ⟨s, -, rfl⟩ := List.mem_map.mp hitem
  exact .text s

@[simp] theorem hasDistinctNames_ofText? (s : Option String) :
    (Value.ofText? s).HasDistinctNames := by
  cases s with
  | none => exact .null
  | some s => exact .text s

@[simp] theorem hasDistinctNames_ofTexts? (texts : Option (List String)) :
    (Value.ofTexts? texts).HasDistinctNames := by
  cases texts with
  | none => exact .null
  | some texts => exact hasDistinctNames_ofTexts texts

theorem Metrics.forall_mem_members (m : Metrics) :
    ∀ member ∈ m.members, member.2.HasDistinctNames := by
  intro member hmember
  obtain ⟨⟨metric, value⟩, -, rfl⟩ := List.mem_map.mp hmember
  cases value with
  | whole n => exact .whole n.toInt
  | real x => exact .real x

theorem MetricsRow.forall_mem_statementMembers (r : MetricsRow) :
    ∀ member ∈ r.statementMembers, member.2.HasDistinctNames := by
  obtain ⟨metrics, query, fingerprint, database, role, queryId, tables, commands⟩ := r
  cases database <;> cases role <;> cases queryId <;> simp [statementMembers, optionalMember]

/-- No column is the name of another member of a row, so the names in a row are different. -/
theorem MetricsRow.hasDistinctNames_toJson (r : MetricsRow) : r.toJson.HasDistinctNames := by
  have hnodup : (Metric.all.toList.map Metric.column ++ statementNames).Nodup := by decide
  refine .record ?_ ?_
  · rw [List.map_append]
    exact hnodup.sublist
      ((map_fst_members_sublist r.metrics).append (map_fst_statementMembers_sublist r))
  · intro member hmember
    rcases List.mem_append.mp hmember with hmember | hmember
    · exact r.metrics.forall_mem_members member hmember
    · exact r.forall_mem_statementMembers member hmember

theorem MetricsPayload.hasDistinctNames_toJson (p : MetricsPayload) :
    p.toJson.HasDistinctNames := by
  have hrows : (Value.list (p.rows.map MetricsRow.toJson)).HasDistinctNames := by
    refine .list fun item hitem => ?_
    obtain ⟨r, -, rfl⟩ := List.mem_map.mp hitem
    exact r.hasDistinctNames_toJson
  simp [toJson, hasDistinctNames_record_iff, hrows]

theorem TextPayload.hasDistinctNames_toJson (p : TextPayload) : p.toJson.HasDistinctNames := by
  simp [toJson, hasDistinctNames_record_iff]

/-- The names in each record of the document of an event are different. -/
theorem Payload.hasDistinctNames_toJson (p : Payload) : p.toJson.HasDistinctNames := by
  have hbody : p.body.HasDistinctNames := by
    cases p with
    | text payload => exact payload.hasDistinctNames_toJson
    | metrics payload => exact payload.hasDistinctNames_toJson
  simp [toJson, hasDistinctNames_record_iff, hbody]

end QueryTelemetry
