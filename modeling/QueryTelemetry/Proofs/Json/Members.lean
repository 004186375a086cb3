import Mathlib.Data.List.Nodup
import QueryTelemetry.Proofs.Json.Documents

/-!
# The members of a JSON document

If the names in each record of a value are different, so are the keys in its document, escapes
resolved (`hasDistinctKeys_node`), and each member is found under its name (`member?_node`). The
text of a value has no control characters, and in particular no line break
(`toNat_ge_of_mem_write`).
-/

namespace QueryTelemetry

namespace Json

/-! ### Names -/

/-- In each record of a value the names are different. -/
inductive Value.HasDistinctNames : Value → Prop
  | null : HasDistinctNames .null
  | bool (b : Bool) : HasDistinctNames (.bool b)
  | whole (k : Int) : HasDistinctNames (.whole k)
  | real (x : Float) : HasDistinctNames (.real x)
  | text (s : String) : HasDistinctNames (.text s)
  | list {items : List Value} :
      (∀ item ∈ items, HasDistinctNames item) → HasDistinctNames (.list items)
  | record {members : List (String × Value)} :
      (members.map Prod.fst).Nodup → (∀ member ∈ members, HasDistinctNames member.2) →
      HasDistinctNames (.record members)

attribute [simp] Value.HasDistinctNames.null Value.HasDistinctNames.bool
  Value.HasDistinctNames.whole Value.HasDistinctNames.real Value.HasDistinctNames.text

theorem hasDistinctNames_record_iff {members : List (String × Value)} :
    (Value.record members).HasDistinctNames ↔
      (members.map Prod.fst).Nodup ∧ ∀ member ∈ members, member.2.HasDistinctNames := by
  constructor
  · rintro (_ | _ | _ | _ | _ | _ | ⟨hnames, hmembers⟩)
    exact ⟨hnames, hmembers⟩
  · rintro ⟨hnames, hmembers⟩
    exact .record hnames hmembers

namespace Node

/-- In each record of a document the keys are different, with their escapes resolved. -/
inductive HasDistinctKeys : Node → Prop
  | null : HasDistinctKeys .null
  | bool (b : Bool) : HasDistinctKeys (.bool b)
  | number (n : NumberText) : HasDistinctKeys (.number n)
  | text (units : List TextUnit) : HasDistinctKeys (.text units)
  | list {items : List Node} :
      (∀ item ∈ items, HasDistinctKeys item) → HasDistinctKeys (.list items)
  | record {members : List (List TextUnit × Node)} :
      (members.map fun member => decodeText? member.1).Nodup →
      (∀ member ∈ members, HasDistinctKeys member.2) → HasDistinctKeys (.record members)

/-- The first member of a record with a name. -/
def member? (name : String) : Node → Option Node
  | .record members =>
    (members.find? fun member => decodeText? member.1 = some name).map Prod.snd
  | _ => none

end Node

theorem nodesOf_eq_map (items : List Value) : nodesOf items = items.map Value.node := by
  induction items with
  | nil => rfl
  | cons item items ih => rw [nodesOf, ih, List.map_cons]

theorem memberNodesOf_eq_map (members : List (String × Value)) :
    memberNodesOf members = members.map fun member => (unitsOf member.1, member.2.node) := by
  induction members with
  | nil => rfl
  | cons member members ih =>
    obtain ⟨name, value⟩ := member
    rw [memberNodesOf, ih, List.map_cons]

/-- A list is read item by item. -/
theorem mapM_map_eq_some {α β γ : Type} {write : β → γ} {read : γ → Option α} {kept : β → α}
    {xs : List β} (h : ∀ x ∈ xs, read (write x) = some (kept x)) :
    (xs.map write).mapM read = some (xs.map kept) := by
  induction xs with
  | nil => rfl
  | cons x xs ih =>
    have hx := h x List.mem_cons_self
    have hxs := ih fun y hy => h y (List.mem_cons_of_mem x hy)
    rw [List.map_cons, List.mapM_cons, hx, hxs]
    rfl

/-- A double is a leaf of the document. -/
theorem hasDistinctKeys_doubleNode (x : Float) : (doubleNode x).HasDistinctKeys := by
  unfold doubleNode
  split
  · exact .number _
  · exact .null

/-- Different names are different keys. -/
theorem hasDistinctKeys_node {v : Value} (h : v.HasDistinctNames) : v.node.HasDistinctKeys := by
  induction h with
  | null => exact .null
  | bool b => exact .bool b
  | whole k => exact .number _
  | real x => exact hasDistinctKeys_doubleNode x
  | text s => exact .text _
  | @list items _ ih =>
    rw [Value.node, nodesOf_eq_map]
    refine .list fun node hnode => ?_
    obtain ⟨item, hitem, rfl⟩ := List.mem_map.mp hnode
    exact ih item hitem
  | @record members hnames _ ih =>
    rw [Value.node, memberNodesOf_eq_map]
    refine .record ?_ fun node hnode => ?_
    · have hkeys : (members.map fun member => (unitsOf member.1, member.2.node)).map
          (fun member => decodeText? member.1) = (members.map Prod.fst).map some := by
        rw [List.map_map, List.map_map]
        exact List.map_congr_left fun member _ => decodeText?_unitsOf member.1
      rw [hkeys]
      exact hnames.map fun _ _ h => Option.some.inj h
    · obtain ⟨member, hmember, rfl⟩ := List.mem_map.mp hnode
      exact ih member hmember

/-- A member of a record is found under its name. -/
theorem member?_node (members : List (String × Value)) (name : String) :
    (Value.record members).node.member? name = (members.lookup name).map Value.node := by
  rw [Value.node, memberNodesOf_eq_map, Node.member?]
  induction members with
  | nil => rfl
  | cons member members ih =>
    obtain ⟨other, value⟩ := member
    rw [List.map_cons, List.find?_cons, decodeText?_unitsOf, List.lookup_cons]
    by_cases hname : name = other
    · subst hname
      simp
    · have hother : other ≠ name := fun h => hname h.symm
      have hlookup : (name == other) = false := by simpa using hname
      simpa [hlookup, hother] using ih

/-! ### Control characters -/

theorem toNat_ge_of_isDigit {c : Char} (h : c.isDigit = true) : 0x20 ≤ c.toNat := by
  simp only [Char.isDigit, Bool.and_eq_true, decide_eq_true_eq, ge_iff_le, UInt32.le_iff_toNat_le,
    Char.reduceVal, UInt32.reduceToNat] at h
  simp only [Char.toNat]
  omega

/-- No control character is written in a number. -/
theorem NumberText.IsProper.toNat_ge {n : NumberText} (h : n.IsProper) {c : Char}
    (hc : c ∈ n.write) : 0x20 ≤ c.toNat := by
  have hwhole : ∀ d ∈ n.whole, 0x20 ≤ d.toNat := by
    intro d hd
    rcases h.whole with hzero | ⟨hdigits, -⟩
    · rw [hzero, List.mem_singleton] at hd
      rw [hd]
      decide
    · exact toNat_ge_of_isDigit (hdigits.2 d hd)
  have hfraction : ∀ d ∈ writeFraction n.fraction, 0x20 ≤ d.toNat := by
    intro d hd
    cases hsome : n.fraction with
    | none =>
      rw [hsome] at hd
      cases hd
    | some digits =>
      rw [hsome, writeFraction, List.mem_cons] at hd
      rcases hd with rfl | hd
      · decide
      · exact toNat_ge_of_isDigit ((h.fraction digits hsome).2 d hd)
  have hexponent : ∀ d ∈ writeExponent n.exponent, 0x20 ≤ d.toNat := by
    intro d hd
    cases hsome : n.exponent with
    | none =>
      rw [hsome] at hd
      cases hd
    | some exponent =>
      obtain ⟨negative, digits⟩ := exponent
      rw [hsome, writeExponent, List.mem_cons, List.mem_cons] at hd
      rcases hd with rfl | rfl | hd
      · decide
      · cases negative <;> decide
      · exact toNat_ge_of_isDigit ((h.exponent negative digits hsome).2 d hd)
  have hmagnitude : ∀ d ∈ n.writeMagnitude, 0x20 ≤ d.toNat := by
    intro d hd
    rw [writeMagnitude, List.mem_append, List.mem_append] at hd
    rcases hd with hd | hd | hd
    · exact hwhole d hd
    · exact hfraction d hd
    · exact hexponent d hd
  rw [write] at hc
  split at hc
  · rcases List.mem_cons.mp hc with rfl | hc
    · decide
    · exact hmagnitude c hc
  · exact hmagnitude c hc

theorem toNat_ge_of_mem {text : List Char}
    (h : (text.all fun c => decide (0x20 ≤ c.toNat)) = true) {c : Char} (hc : c ∈ text) :
    0x20 ≤ c.toNat :=
  of_decide_eq_true (List.all_eq_true.mp h c hc)

mutual

/-- No control character is written. -/
theorem toNat_ge_of_mem_write : ∀ (v : Value) {c : Char}, c ∈ v.write → 0x20 ≤ c.toNat
  | .null, c, h => by
    rw [Value.write] at h
    exact toNat_ge_of_mem (by decide) h
  | .bool true, c, h => by
    rw [Value.write] at h
    exact toNat_ge_of_mem (by decide) h
  | .bool false, c, h => by
    rw [Value.write] at h
    exact toNat_ge_of_mem (by decide) h
  | .whole k, c, h => by
    rw [Value.write, ← write_wholeNumber] at h
    exact (isProper_wholeNumber k).toNat_ge h
  | .real x, c, h => by
    rw [Value.write] at h
    rcases writeDouble_cases x with hnull | ⟨n, hproper, -, hwrite⟩
    · rw [hnull] at h
      exact toNat_ge_of_mem (by decide) h
    · rw [hwrite] at h
      exact hproper.toNat_ge h
  | .text s, c, h => toNat_ge_of_mem_quote (by rwa [Value.write] at h)
  | .list items, c, h => by
    rw [Value.write, List.mem_cons] at h
    rcases h with rfl | h
    · decide
    · exact toNat_ge_of_mem_writeItems items h
  | .record members, c, h => by
    rw [Value.write, List.mem_cons] at h
    rcases h with rfl | h
    · decide
    · exact toNat_ge_of_mem_writeMembers members h

theorem toNat_ge_of_mem_writeItems :
    ∀ (items : List Value) {c : Char}, c ∈ writeItems items → 0x20 ≤ c.toNat
  | [], c, h => by
    rw [writeItems, List.mem_singleton] at h
    rw [h]
    decide
  | [item], c, h => by
    rw [writeItems, List.mem_append, List.mem_singleton] at h
    rcases h with h | rfl
    · exact toNat_ge_of_mem_write item h
    · decide
  | item :: next :: items, c, h => by
    rw [writeItems, List.mem_append, List.mem_cons] at h
    rcases h with h | rfl | h
    · exact toNat_ge_of_mem_write item h
    · decide
    · exact toNat_ge_of_mem_writeItems (next :: items) h

theorem toNat_ge_of_mem_writeMembers :
    ∀ (members : List (String × Value)) {c : Char}, c ∈ writeMembers members → 0x20 ≤ c.toNat
  | [], c, h => by
    rw [writeMembers, List.mem_singleton] at h
    rw [h]
    decide
  | [(name, value)], c, h => by
    have hcases : c ∈ quote name ∨ c = ':' ∨ c ∈ value.write ∨ c = '}' := by
      simpa [writeMembers] using h
    rcases hcases with h | rfl | h | rfl
    · exact toNat_ge_of_mem_quote h
    · decide
    · exact toNat_ge_of_mem_write value h
    · decide
  | (name, value) :: next :: members, c, h => by
    have hcases : c ∈ quote name ∨ c = ':' ∨ c ∈ value.write ∨ c = ',' ∨
        c ∈ writeMembers (next :: members) := by
      simpa [writeMembers] using h
    rcases hcases with h | rfl | h | rfl | h
    · exact toNat_ge_of_mem_quote h
    · decide
    · exact toNat_ge_of_mem_write value h
    · decide
    · exact toNat_ge_of_mem_writeMembers (next :: members) h

end

end Json

end QueryTelemetry
