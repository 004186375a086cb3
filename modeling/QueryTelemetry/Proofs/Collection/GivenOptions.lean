import QueryTelemetry.Collection
import QueryTelemetry.Proofs.Json.Values
import QueryTelemetry.Proofs.Redaction.Acceptance

/-!
# Options of the redaction in the settings

The settings hold the options of the redaction as they are given, and each statement is redacted
with their text. So the options are read twice: first as any JSON value, of which validation says
nothing, and then as options. `Settings.givenOptions?` reads them from the settings document
directly. Both ways lead to the same options or to none (`parse?_redactionOptionsText`).

If there are options, a row is left out only for its query, and otherwise all rows are left out
(`Collector.normalStatements_of_parse`).
-/

namespace QueryTelemetry

open Json (Node)

namespace Redaction.Options

/-! ### Reading options from a document -/

/-- The options of which each is given as a truth value or not at all. -/
def ofParts? (replaceDigits collectTables collectCommands : Option Node) : Option Options := do
  let replaceDigits ← Node.orDefault Node.bool? default.replaceDigits replaceDigits
  let collectTables ← Node.orDefault Node.bool? default.collectTables collectTables
  let collectCommands ← Node.orDefault Node.bool? default.collectCommands collectCommands
  some ⟨replaceDigits, collectTables, collectCommands⟩

/-- The options that a part of a document gives: as a record, in which the last member with a name
counts and other names are passed over, or as a list of the first few. -/
def given? (part : Node) : Option Options :=
  match part with
  | .record _ =>
    ofParts? (part.lastMember? "replace_digits") (part.lastMember? "collect_tables")
      (part.lastMember? "collect_commands")
  | .list items => if items.length ≤ 3 then ofParts? items[0]? items[1]? items[2]? else none
  | _ => none

/-- The options are read field by field. -/
theorem ofNode?_of_fields? {node : Node} {a b c : Option Node}
    (h : node.fields? names = some [a, b, c]) : ofNode? node = ofParts? a b c := by
  rw [ofNode?, h]
  rfl

theorem ofNode?_of_fields?_eq_none {node : Node} (h : node.fields? names = none) :
    ofNode? node = none := by
  rw [ofNode?, h]

end Redaction.Options

namespace Json

variable {levels : Nat} {node : Node} {v : Value}

/-! ### Values and their documents -/

/-- A truth value stays what it is, and nothing else becomes one. -/
theorem bool?_node_of_value? (h : node.value? levels = some v) : v.node.bool? = node.bool? := by
  cases follows_of_value? h with
  | number h => obtain ⟨n', hnode⟩ | hnode := h <;> rw [hnode] <;> rfl
  | _ => rfl

/-- A truth value is read from a part as from the value of the part. -/
theorem orDefault_bool?_of_rel {part : Option Node} {value : Option Value} (fallback : Bool)
    (h : Option.Rel (fun node v => node.value? levels = some v) part value) :
    Node.orDefault Node.bool? fallback (value.map Value.node) =
      Node.orDefault Node.bool? fallback part := by
  cases h with
  | none => rfl
  | some h => exact bool?_node_of_value? h

/-! ### Texts that are not blank -/

theorem NumberText.IsProper.exists_not_isBlank {n : NumberText} (h : n.IsProper) :
    ∃ c ∈ n.write, Text.isBlank c = false := by
  obtain ⟨first, more, hmagnitude, hdigit⟩ := h.exists_eq_cons
  refine ⟨first, ?_, Bool.eq_false_iff.mpr fun hblank => ?_⟩
  · rw [NumberText.write, hmagnitude]
    split <;> simp
  · rw [Redaction.isDigit_eq_false_of_isBlank hblank] at hdigit
    cases hdigit

/-- The text of a value is more than blanks. -/
theorem exists_not_isBlank_of_write (v : Value) : ∃ c ∈ v.write, Text.isBlank c = false := by
  cases v with
  | null => exact ⟨'n', by rw [Value.write]; decide, rfl⟩
  | bool b => cases b <;> exact ⟨'e', by rw [Value.write]; decide, rfl⟩
  | whole k =>
    rw [Value.write, ← write_wholeNumber]
    exact (isProper_wholeNumber k).exists_not_isBlank
  | real x =>
    rw [Value.write]
    obtain hnull | ⟨n, hproper, -, hwrite⟩ := writeDouble_cases x
    · exact ⟨'n', by rw [hnull]; decide, rfl⟩
    · rw [hwrite]
      exact hproper.exists_not_isBlank
  | text s => exact ⟨'"', by rw [Value.write, quote]; exact List.mem_cons_self, rfl⟩
  | list items => exact ⟨'[', by rw [Value.write]; exact List.mem_cons_self, rfl⟩
  | record members => exact ⟨'\x7b', by rw [Value.write]; exact List.mem_cons_self, rfl⟩

end Json

namespace Redaction.Options

variable {levels : Nat} {node : Node} {v : Json.Value}

/-! ### Reading options twice -/

theorem ofParts?_of_rel {a b c : Option Node} {a' b' c' : Option Json.Value}
    (ha : Option.Rel (fun node v => node.value? levels = some v) a a')
    (hb : Option.Rel (fun node v => node.value? levels = some v) b b')
    (hc : Option.Rel (fun node v => node.value? levels = some v) c c') :
    ofParts? (a'.map Json.Value.node) (b'.map Json.Value.node) (c'.map Json.Value.node) =
      ofParts? a b c := by
  rw [ofParts?, Json.orDefault_bool?_of_rel _ ha, Json.orDefault_bool?_of_rel _ hb,
    Json.orDefault_bool?_of_rel _ hc, ofParts?]

/-- The items of a list have their values in the same places. -/
theorem rel_getElem? {items : List Node} {values : List Json.Value}
    (h : List.Forall₂ (fun node v => node.value? levels = some v) items values) (i : Nat) :
    Option.Rel (fun node v => node.value? levels = some v) items[i]? values[i]? := by
  induction h generalizing i with
  | nil => exact .none
  | cons hfirst _ ih =>
    cases i with
    | zero => exact .some hfirst
    | succ i => exact ih i

/-- Options are read from a list item by item. -/
theorem ofNode?_list {items : List Node} (h : items.length ≤ 3) :
    ofNode? (.list items) = ofParts? items[0]? items[1]? items[2]? := by
  have hnames : names.length = 3 := rfl
  refine ofNode?_of_fields? ?_
  rw [Node.fields?, if_pos (hnames ▸ h)]
  rcases items with _ | ⟨a, _ | ⟨b, _ | ⟨c, _ | ⟨d, rest⟩⟩⟩⟩
  · rfl
  · rfl
  · rfl
  · rfl
  · simp only [List.length_cons] at h
    omega

/-- Options are read from a part as from its value. -/
theorem ofNode?_node_of_value? (h : node.value? levels = some v) :
    ofNode? v.node = given? node := by
  cases Json.follows_of_value? h with
  | number h => obtain ⟨n', hnode⟩ | hnode := h <;> rw [hnode] <;> rfl
  | @list levels items values hitems =>
    have hlength : (values.map Json.Value.node).length = items.length := by
      rw [List.length_map, hitems.length_eq]
    rw [given?, Json.Value.node, Json.nodesOf_eq_map]
    by_cases hfew : items.length ≤ 3
    · rw [if_pos hfew, ofNode?_list (hlength ▸ hfew), List.getElem?_map, List.getElem?_map,
        List.getElem?_map]
      exact ofParts?_of_rel (rel_getElem? hitems 0) (rel_getElem? hitems 1) (rel_getElem? hitems 2)
    · have hnames : ¬ (values.map Json.Value.node).length ≤ names.length := hlength ▸ hfew
      rw [if_neg hfew]
      exact ofNode?_of_fields?_eq_none (by rw [Node.fields?, if_neg hnames])
  | record hnodup hlast =>
    have hparts := ofParts?_of_rel (hlast "replace_digits") (hlast "collect_tables")
      (hlast "collect_commands")
    rw [given?, ← hparts]
    exact ofNode?_of_fields? (Json.fields?_node_record hnodup names)
  | _ => rfl

/-- What is read from the text of a value is what is read from its document. -/
theorem parse?_render (v : Json.Value) : parse? v.render = ofNode? v.node := by
  have hsolid : ¬ (Text.trim v.render.toList).isEmpty = true := by
    rw [List.isEmpty_iff, trim_eq_nil_iff, Json.Value.render, String.toList_ofList]
    intro hblank
    obtain ⟨c, hc, hsolid⟩ := Json.exists_not_isBlank_of_write v
    rw [hblank c hc] at hsolid
    cases hsolid
  rw [parse?, if_neg hsolid, Json.parse?_render]
  rfl

end Redaction.Options

namespace Settings

open Redaction (Options)

variable {text : String} {s : Settings}

theorem validate_eq_ok_iff : s.validate = .ok () ↔ s.problem? = none := by
  rw [validate]
  cases s.problem? with
  | none => exact iff_of_true rfl rfl
  | some problem => exact iff_of_false nofun nofun

/-! ### Options in the settings -/

/-- The part of a settings document that is about the options of the redaction. -/
def optionsPart? (document : Node) : Option Node :=
  match document with
  | .record _ => document.lastMember? "obfuscator_options"
  | .list items => items[7]?
  | _ => none

/-- The options of the redaction that a settings document gives; the defaults if it does not mention
them. -/
def givenOptions? (document : Node) : Option Options :=
  match optionsPart? document with
  | none => some .default
  | some part => Options.given? part

/-- The options are among the fields of the settings. -/
theorem getElem?_of_fields? {document : Node} {said : List (Option Node)}
    (h : document.fields? names = some said) : said[7]? = some (optionsPart? document) := by
  cases document with
  | record parts =>
    rw [Json.said_eq_of_fields?_record h]
    rfl
  | list items => exact Json.getElem?_of_fields?_list h (by decide)
  | _ => cases h

/-- The settings hold the value of what the document gives as options. -/
theorem exists_of_parse? (h : parse? text = some s) :
    ∃ document, Node.parse? text = some document ∧
      Node.orDefault (Node.value? optionLevels) (.record []) (optionsPart? document) =
        some s.redactionOptions := by
  rw [parse?, Option.bind_eq_some_iff] at h
  obtain ⟨document, hdocument, h⟩ := h
  refine ⟨document, hdocument, ?_⟩
  rw [ofNode?] at h
  split at h
  · rename_i interval view database onlyDatabase rowLimit textCacheSize textsPerHour
      redactionOptions tags host collectorVersion hfields
    have hpart : redactionOptions = optionsPart? document :=
      Option.some.inj (getElem?_of_fields? hfields)
    simp only [Option.bind_eq_bind, Option.bind_eq_some_iff] at h
    obtain ⟨_, -, _, -, _, -, _, -, _, -, _, -, _, -, options, hoptions, _, -, _, -, _, -, h⟩ := h
    obtain rfl := Option.some.inj h
    rw [← hpart]
    exact hoptions
  · cases h

/-- The options that statements are redacted with are those that the settings document gives. -/
theorem parse?_redactionOptionsText (h : parse? text = some s) :
    ∃ document, Node.parse? text = some document ∧
      Options.parse? s.redactionOptionsText = givenOptions? document := by
  obtain ⟨document, hdocument, hoptions⟩ := exists_of_parse? h
  refine ⟨document, hdocument, ?_⟩
  rw [redactionOptionsText, Options.parse?_render, givenOptions?]
  cases hpart : optionsPart? document with
  | none =>
    rw [hpart] at hoptions
    rw [← Option.some.inj hoptions]
    rfl
  | some part =>
    rw [hpart] at hoptions
    exact Options.ofNode?_node_of_value? hoptions

end Settings

namespace Redaction

variable {optionsText : String} {options : Options} {row : ViewRow}

/-! ### Rows that are left out -/

/-- Why a row holds no statement that can be redacted. -/
inductive Unfit
  | noQuery
  | empty
  | unterminated (lexeme : Unterminated)

/-- What is wrong with a row for the redaction, if anything is. -/
def unfit? (options : Options) (row : ViewRow) : Option Unfit :=
  match row.text? "query" with
  | none => some .noQuery
  | some query =>
    match redactWith options query with
    | .error .empty => some .empty
    | .error (.unterminated lexeme) => some (.unterminated lexeme)
    | _ => none

/-- Options that have been read cannot be the reason for a failure. -/
theorem redactWith_ne_invalidOptions (options : Options) (query : String) :
    redactWith options query ≠ .error .invalidOptions := by
  rw [redactWith]
  split <;> rintro ⟨⟩

/-- With options only what is wrong with a row keeps it out. -/
theorem isSome_normalStatement? (h : Options.parse? optionsText = some options) (row : ViewRow) :
    (normalStatement? (redact optionsText) row).isSome = (unfit? options row).isNone := by
  rw [normalStatement?, Statement.ofRow, unfit?]
  cases row.text? "query" with
  | none => rfl
  | some query =>
    simp only [redact, h]
    cases hredact : redactWith options query with
    | ok redacted => rfl
    | error failure =>
      cases failure with
      | invalidOptions => exact absurd hredact (redactWith_ne_invalidOptions options query)
      | unterminated lexeme => rfl
      | empty => rfl

/-- Without options all rows are kept out. -/
theorem normalStatement?_eq_none (h : Options.parse? optionsText = none) (row : ViewRow) :
    normalStatement? (redact optionsText) row = none := by
  rw [normalStatement?]
  cases Statement.ofRow row with
  | error _ => rfl
  | ok statement => simp only [redact, h]

/-- The rows that are kept are those with which nothing is wrong. -/
theorem length_normalStatements (h : Options.parse? optionsText = some options)
    (rows : List ViewRow) :
    (normalStatements (redact optionsText) rows).length =
      rows.countP fun row => (unfit? options row).isNone := by
  rw [normalStatements, List.length_filterMap_eq_countP]
  exact List.countP_congr fun row _ => by rw [isSome_normalStatement? h]

theorem normalStatements_eq_nil (h : Options.parse? optionsText = none) (rows : List ViewRow) :
    normalStatements (redact optionsText) rows = [] :=
  List.filterMap_eq_nil_iff.mpr fun row _ => normalStatement?_eq_none h row

end Redaction

namespace Collector

open Redaction (Options)

/-- **Options out of the settings.** A collector whose settings have been read and pass redacts with
exactly the options that the settings document gives, if it gives any: a row is left out only
because it has no query, or because the query is empty or does not end. If the document gives
something else in their place, all rows are left out. -/
theorem normalStatements_of_parse {text : String} {s : Settings}
    (hparse : Settings.parse? text = some s) (hvalid : s.validate = .ok ()) :
    ∃ document collector, Node.parse? text = some document ∧
      create Redaction.redact s = .ok collector ∧
      Options.parse? s.redactionOptionsText = Settings.givenOptions? document ∧
      (∀ options, Settings.givenOptions? document = some options → ∀ rows : List ViewRow,
        (∀ row ∈ rows, (Redaction.normalStatement? collector.redact row).isSome =
          (Redaction.unfit? options row).isNone) ∧
        (Redaction.normalStatements collector.redact rows).length =
          rows.countP fun row => (Redaction.unfit? options row).isNone) ∧
      (Settings.givenOptions? document = none → ∀ rows : List ViewRow,
        Redaction.normalStatements collector.redact rows = []) := by
  obtain ⟨document, hdocument, hoptions⟩ := Settings.parse?_redactionOptionsText hparse
  have hproblem := Settings.validate_eq_ok_iff.mp hvalid
  refine ⟨document, _, hdocument, by rw [create, hproblem], hoptions, fun options hgiven rows => ?_,
    fun hgiven rows => ?_⟩
  · rw [hgiven] at hoptions
    exact ⟨fun row _ => Redaction.isSome_normalStatement? hoptions row,
      Redaction.length_normalStatements hoptions rows⟩
  · rw [hgiven] at hoptions
    exact Redaction.normalStatements_eq_nil hoptions rows

/-- A row that holds nothing but a query. -/
def queryRow (query : String) : ViewRow := ⟨[("query", .text query)]⟩

/-- A settings document that gives an option twice, and something that is no option. -/
def repeatedDocument : Json.Value :=
  .record [("obfuscator_options", .record [("replace_digits", .bool false), ("other", .null),
    ("collect_tables", .bool false), ("replace_digits", .bool true)])]

/-- The settings that this document gives. -/
def repeatedOptions : Settings :=
  { Settings.default with
    redactionOptions := Json.Value.record
      [("collect_tables", .bool false), ("other", .null), ("replace_digits", .bool true)] }

/-- The last member of a name counts and others than options are passed over. Of four rows the one
with a statement is kept; the others have a comment only, a string without an end, and no query. -/
theorem normalStatements_of_parse_repeated :
    Settings.parse? repeatedDocument.render = some repeatedOptions ∧
      repeatedOptions.validate = .ok () ∧
      Options.parse? repeatedOptions.redactionOptionsText = some ⟨true, false, true⟩ ∧
      ∃ collector, create Redaction.redact repeatedOptions = .ok collector ∧
        (Redaction.normalStatements collector.redact
          [queryRow "SELECT 1", queryRow "--", queryRow "'", ⟨[]⟩]).length = 1 := by
  have hparse : Settings.parse? repeatedDocument.render = some repeatedOptions := by
    rw [Settings.parse?, Json.parse?_render]
    rfl
  have hvalid : repeatedOptions.validate = .ok () :=
    Settings.validate_eq_ok_iff.mpr (Option.isNone_iff_eq_none.mp (by decide +kernel))
  obtain ⟨document, collector, hdocument, hcreate, hoptions, hgiven, -⟩ :=
    normalStatements_of_parse hparse hvalid
  rw [Json.parse?_render, Option.some.injEq] at hdocument
  have hsame : Settings.givenOptions? document = some ⟨true, false, true⟩ := by
    rw [← hdocument]
    rfl
  refine ⟨hparse, hvalid, hoptions.trans hsame, collector, hcreate, ?_⟩
  rw [(hgiven _ hsame _).2]
  decide +kernel

/-- Settings in which the options of the redaction are null. -/
def nullOptions : Settings := { Settings.default with redactionOptions := .null }

/-- Such settings can be read and pass, but no statement is redacted with them, whatever it is. -/
theorem normalStatements_of_nullOptions :
    Settings.parse? "\x7b\"obfuscator_options\":null\x7d" = some nullOptions ∧
      nullOptions.validate = .ok () ∧
      Options.parse? nullOptions.redactionOptionsText = none ∧
      (Redaction.unfit? .default (queryRow "SELECT 1")).isNone = true ∧
      Redaction.normalStatements (Redaction.redact nullOptions.redactionOptionsText)
        [queryRow "SELECT 1"] = [] := by
  have htext : "\x7b\"obfuscator_options\":null\x7d" =
      (Json.Value.record [("obfuscator_options", .null)]).render := by decide +kernel
  have hvalid : nullOptions.validate = .ok () :=
    Settings.validate_eq_ok_iff.mpr (Option.isNone_iff_eq_none.mp (by decide +kernel))
  have hoptions : Options.parse? nullOptions.redactionOptionsText = none := by
    rw [Settings.redactionOptionsText, Options.parse?_render]
    rfl
  refine ⟨?_, hvalid, hoptions, by decide +kernel,
    Redaction.normalStatements_eq_nil hoptions _⟩
  rw [htext, Settings.parse?, Json.parse?_render]
  rfl

end Collector

end QueryTelemetry
