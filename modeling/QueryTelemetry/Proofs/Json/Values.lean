import Mathlib.Data.List.Forall2
import Mathlib.Data.List.Induction
import Mathlib.Data.String.Basic
import QueryTelemetry.Json.Reading
import QueryTelemetry.Proofs.Json.Members
import QueryTelemetry.Statement

/-!
# Values out of JSON documents

A value that is read from a document and written again is a document too, but not the same one: its
records hold each name once, in order, and what is under a name is the last that the first document
has there (`follows_of_value?`). Records with known fields do not mind which of the two they
are read from, except that the first may say twice what the second says once
(`fields?_node_record`, `said_eq_of_fields?_record`).
-/

namespace QueryTelemetry

namespace Json

/-! ### Lists that are read item by item -/

section

variable {α β γ δ : Type}

/-- What is read from a list are the items in order. -/
theorem forall₂_of_mapM_eq_some {read : α → Option β} {xs : List α} {ys : List β}
    (h : xs.mapM read = some ys) : List.Forall₂ (fun x y => read x = some y) xs ys := by
  induction xs generalizing ys with
  | nil =>
    obtain rfl := Option.some.inj h
    exact .nil
  | cons x xs ih =>
    rw [List.mapM_cons, Option.bind_eq_bind, Option.bind_eq_some_iff] at h
    obtain ⟨y, hy, h⟩ := h
    rw [Option.bind_eq_bind, Option.bind_eq_some_iff] at h
    obtain ⟨ys', hys, h⟩ := h
    obtain rfl := Option.some.inj h
    exact .cons hy (ih hys)

theorem rel_head? {R : α → β → Prop} {xs : List α} {ys : List β} (h : List.Forall₂ R xs ys) :
    Option.Rel R xs.head? ys.head? := by
  cases h with
  | nil => exact .none
  | cons hfirst _ => exact .some hfirst

/-- The last items of two lists that agree item by item agree. -/
theorem rel_getLast? {R : α → β → Prop} {xs : List α} {ys : List β} (h : List.Forall₂ R xs ys) :
    Option.Rel R xs.getLast? ys.getLast? := by
  rw [← List.head?_reverse, ← List.head?_reverse]
  exact rel_head? (List.forall₂_reverse_iff.mpr h)

end

/-! ### The last member with a name -/

/-- The values of the members with a name. -/
def valuesNamed {α : Type} (name : String) (members : List (String × α)) : List α :=
  (members.filter fun member => member.1 = name).map Prod.snd

namespace Node

/-- The parts that a record has under a name. -/
def partsNamed (name : String) (members : List (List TextUnit × Node)) : List Node :=
  (members.filter fun member => decodeText? member.1 = some name).map Prod.snd

/-- The last member of a record with a name. -/
def lastMember? (name : String) : Node → Option Node
  | .record members => (partsNamed name members).getLast?
  | _ => none

end Node

open Node (partsNamed lastMember?)

variable {members : List (String × Value)} {name other : String} {value : Value}

/-- If the names are read and the values agree, so do those with one name. -/
theorem forall₂_valuesNamed {α : Type} {R : Node → α → Prop}
    {parts : List (List TextUnit × Node)} {members : List (String × α)}
    (h : List.Forall₂ (fun part member => decodeText? part.1 = some member.1 ∧ R part.2 member.2)
      parts members) (name : String) :
    List.Forall₂ R (partsNamed name parts) (valuesNamed name members) := by
  induction h with
  | nil => exact .nil
  | @cons part member parts members hfirst _ ih =>
    rw [partsNamed, valuesNamed, List.filter_cons, List.filter_cons, hfirst.1]
    by_cases hname : member.1 = name
    · simp only [hname, decide_true, if_true, List.map_cons]
      exact .cons hfirst.2 ih
    · simp only [hname, Option.some.injEq, decide_false, Bool.false_eq_true, if_false]
      exact ih

/-! ### Records in order -/

/-- A member that is set is found under its name, and the others stay. -/
theorem lookup_setMember (name : String) (value : Value) (members : List (String × Value))
    (other : String) :
    (setMember name value members).lookup other =
      if other = name then some value else members.lookup other := by
  induction members with
  | nil => rw [setMember, lookup_cons_eq]
  | cons first rest ih =>
    obtain ⟨key, v⟩ := first
    rw [setMember]
    by_cases hkey : name = key
    · rw [if_pos hkey, lookup_cons_eq, lookup_cons_eq, ← hkey]
      split <;> rfl
    · rw [if_neg hkey]
      by_cases hlt : name < key
      · rw [if_pos hlt, lookup_cons_eq]
      · rw [if_neg hlt, lookup_cons_eq, lookup_cons_eq, ih]
        by_cases hother : other = key
        · rw [if_pos hother, if_pos hother, if_neg fun h => hkey (h.symm.trans hother)]
        · rw [if_neg hother, if_neg hother]

theorem mem_setMember {member : String × Value} (h : member ∈ setMember name value members) :
    member.1 = name ∨ member ∈ members := by
  induction members with
  | nil =>
    obtain rfl := List.mem_singleton.mp h
    exact .inl rfl
  | cons first rest ih =>
    obtain ⟨key, v⟩ := first
    rw [setMember] at h
    split_ifs at h with hkey hlt
    · rcases List.mem_cons.mp h with rfl | h
      · exact .inl rfl
      · exact .inr (List.mem_cons_of_mem _ h)
    · rcases List.mem_cons.mp h with rfl | h
      · exact .inl rfl
      · exact .inr h
    · rcases List.mem_cons.mp h with rfl | h
      · exact .inr List.mem_cons_self
      · exact (ih h).imp_right (List.mem_cons_of_mem _)

/-- Members stay in the order of their names. -/
theorem pairwise_setMember (h : members.Pairwise fun a b => a.1 < b.1) (name : String)
    (value : Value) : (setMember name value members).Pairwise fun a b => a.1 < b.1 := by
  induction members with
  | nil => exact List.pairwise_singleton _ _
  | cons first rest ih =>
    obtain ⟨key, v⟩ := first
    rw [setMember]
    have hrest := List.pairwise_cons.mp h
    split_ifs with hkey hlt
    · exact List.pairwise_cons.mpr ⟨fun member hmember => hkey ▸ hrest.1 member hmember, hrest.2⟩
    · refine List.pairwise_cons.mpr ⟨fun member hmember => ?_, h⟩
      rcases List.mem_cons.mp hmember with rfl | hmember
      · exact hlt
      · exact lt_trans hlt (hrest.1 member hmember)
    · refine List.pairwise_cons.mpr ⟨fun member hmember => ?_, ih hrest.2⟩
      rcases mem_setMember hmember with hname | hmember
      · exact hname ▸ lt_of_le_of_ne (not_lt.mp hlt) (Ne.symm hkey)
      · exact hrest.1 member hmember

/-- The record that comes of setting members one after the other. -/
def setMembers (members : List (String × Value)) : List (String × Value) :=
  members.foldl (fun done (name, value) => setMember name value done) []

theorem setMembers_concat (members : List (String × Value)) (member : String × Value) :
    setMembers (members ++ [member]) = setMember member.1 member.2 (setMembers members) :=
  List.foldl_append ..

/-- The last of the values under a name counts. -/
theorem lookup_setMembers (members : List (String × Value)) (name : String) :
    (setMembers members).lookup name = (valuesNamed name members).getLast? := by
  induction members using List.reverseRecOn with
  | nil => rfl
  | append_singleton members member ih =>
    rw [setMembers_concat, lookup_setMember, ih, valuesNamed, valuesNamed, List.filter_append,
      List.map_append]
    by_cases hname : member.1 = name
    · simp [hname]
    · simp [hname, Ne.symm hname]

/-- Each name is there once. -/
theorem nodup_setMembers (members : List (String × Value)) :
    ((setMembers members).map Prod.fst).Nodup := by
  have hsorted : (setMembers members).Pairwise fun a b => a.1 < b.1 := by
    induction members using List.reverseRecOn with
    | nil => exact List.Pairwise.nil
    | append_singleton members member ih =>
      rw [setMembers_concat]
      exact pairwise_setMember ih _ _
  exact List.pairwise_map.mpr (hsorted.imp fun hlt => ne_of_lt hlt)

/-! ### Records out of documents -/

/-- The value of a record has each name once, and under it the value of the last member that the
record has there. -/
theorem exists_record_of_value? {levels : Nat} {parts : List (List TextUnit × Node)}
    (h : (Node.record parts).value? (levels + 1) = some value) :
    ∃ members, value = .record members ∧ (members.map Prod.fst).Nodup ∧
      ∀ name, Option.Rel (fun part v => part.value? levels = some v)
        (lastMember? name (.record parts)) (members.lookup name) := by
  rw [Node.value?, Option.bind_eq_bind, Option.bind_eq_some_iff] at h
  obtain ⟨members, hmembers, h⟩ := h
  obtain rfl := Option.some.inj h
  refine ⟨setMembers members, rfl, nodup_setMembers members, fun name => ?_⟩
  have hread : List.Forall₂ (fun part member =>
      decodeText? part.1 = some member.1 ∧ part.2.value? levels = some member.2) parts members := by
    refine (forall₂_of_mapM_eq_some hmembers).imp fun part member hpart => ?_
    simp only [Option.bind_eq_bind, Option.bind_eq_some_iff] at hpart
    obtain ⟨name, hname, v, hvalue, hmember⟩ := hpart
    obtain rfl := Option.some.inj hmember
    exact ⟨hname, hvalue⟩
  rw [lookup_setMembers]
  exact rel_getLast? (forall₂_valuesNamed hread name)

/-! ### Values of documents -/

/-- How a value follows from the document that it is read from. -/
inductive Follows : Node → Value → Prop
  | null : Follows .null .null
  | bool (b : Bool) : Follows (.bool b) (.bool b)
  /-- A number may be too large for a double, of which the document is `null`. -/
  | number {n : NumberText} {v : Value} (h : (∃ n', v.node = .number n') ∨ v.node = .null) :
    Follows (.number n) v
  | text (units : List TextUnit) (s : String) : Follows (.text units) (.text s)
  | list {levels : Nat} {items : List Node} {values : List Value}
      (h : List.Forall₂ (fun node v => node.value? levels = some v) items values) :
    Follows (.list items) (.list values)
  | record {levels : Nat} {parts : List (List TextUnit × Node)} {members : List (String × Value)}
      (hnodup : (members.map Prod.fst).Nodup)
      (hlast : ∀ name, Option.Rel (fun part v => part.value? levels = some v)
        (lastMember? name (.record parts)) (members.lookup name)) :
    Follows (.record parts) (.record members)

/-- A number has a number as its value, or `null` if it is no finite one. -/
theorem node_of_value?_number {n : NumberText} (h : n.value? = some value) :
    (∃ n', value.node = .number n') ∨ value.node = .null := by
  have hreal : ∀ x, (∃ n', (Value.real x).node = .number n') ∨ (Value.real x).node = .null := by
    intro x
    rw [Value.node, doubleNode]
    split
    · exact .inl ⟨_, rfl⟩
    · exact .inr rfl
  rw [NumberText.value?] at h
  split at h
  · obtain rfl := Option.some.inj h
    exact .inl ⟨_, rfl⟩
  · split at h
    · obtain rfl := Option.some.inj h
      exact .inl ⟨_, rfl⟩
    · obtain ⟨x, -, rfl⟩ := Option.map_eq_some_iff.mp h
      exact hreal _

/-- A value follows from the document that it is read from. -/
theorem follows_of_value? {levels : Nat} {node : Node} (h : node.value? levels = some value) :
    Follows node value := by
  cases node with
  | null =>
    rw [Node.value?] at h
    obtain rfl := Option.some.inj h
    exact .null
  | bool b =>
    rw [Node.value?] at h
    obtain rfl := Option.some.inj h
    exact .bool b
  | number n =>
    rw [Node.value?] at h
    exact .number (node_of_value?_number h)
  | text units =>
    rw [Node.value?] at h
    obtain ⟨s, -, rfl⟩ := Option.map_eq_some_iff.mp h
    exact .text units s
  | list items =>
    cases levels with
    | zero =>
      rw [Node.value?] at h
      cases h
    | succ levels =>
      rw [Node.value?] at h
      obtain ⟨values, hvalues, rfl⟩ := Option.map_eq_some_iff.mp h
      exact .list (forall₂_of_mapM_eq_some hvalues)
  | record parts =>
    cases levels with
    | zero =>
      rw [Node.value?] at h
      cases h
    | succ levels =>
      obtain ⟨members, rfl, hnodup, hlast⟩ := exists_record_of_value? h
      exact .record hnodup hlast

/-! ### Records with known fields -/

/-- What a record says about a field that it gives at most once. -/
def single? : List Node → Option (Option Node)
  | [] => some none
  | [node] => some (some node)
  | _ => none

theorem fields?_record (fields : List String) (parts : List (List TextUnit × Node)) :
    (Node.record parts).fields? fields =
      (parts.mapM fun part => (decodeText? part.1).map (·, part.2)).bind fun members =>
        fields.mapM fun field => single? (valuesNamed field members) := rfl

/-- A record that is read as one with known fields says about each what its last member there
says. -/
theorem said_eq_of_fields?_record {fields : List String} {parts : List (List TextUnit × Node)}
    {said : List (Option Node)} (h : (Node.record parts).fields? fields = some said) :
    said = fields.map fun field => lastMember? field (.record parts) := by
  rw [fields?_record, Option.bind_eq_some_iff] at h
  obtain ⟨members, hmembers, h⟩ := h
  have hread : List.Forall₂ (fun part member =>
      decodeText? part.1 = some member.1 ∧ part.2 = member.2) parts members := by
    refine (forall₂_of_mapM_eq_some hmembers).imp fun part member hpart => ?_
    obtain ⟨name, hname, rfl⟩ := Option.map_eq_some_iff.mp hpart
    exact ⟨hname, rfl⟩
  have hsaid := forall₂_of_mapM_eq_some h
  clear h
  induction hsaid with
  | nil => rfl
  | @cons field part fields said hfield _ ih =>
    have hparts := forall₂_valuesNamed hread field
    rw [List.forall₂_eq_eq_eq] at hparts
    rw [List.map_cons, ← ih, lastMember?, hparts]
    congr 1
    unfold single? at hfield
    split at hfield
    · rename_i hnone
      rw [hnone]
      exact (Option.some.inj hfield).symm
    · rename_i node hone
      rw [hone]
      exact (Option.some.inj hfield).symm
    · cases hfield

/-- A list that is read as a record with known fields says about each what its item in this place
says. -/
theorem getElem?_of_fields?_list {fields : List String} {items : List Node}
    {said : List (Option Node)} (h : (Node.list items).fields? fields = some said) {i : Nat}
    (hi : i < fields.length) : said[i]? = some items[i]? := by
  rw [Node.fields?] at h
  split at h
  · rename_i hlength
    obtain rfl := Option.some.inj h
    by_cases hitem : i < items.length
    · rw [List.getElem?_append_left (by simpa using hitem)]
      simp [hitem]
    · rw [List.getElem?_append_right (by simpa using hitem), List.getElem?_replicate_of_lt]
      · rw [List.getElem?_eq_none (Nat.not_lt.mp hitem)]
      · rw [List.length_map]
        omega
  · cases h

/-- Where each name stands once, there is at most one value under a name. -/
theorem valuesNamed_of_nodup {α : Type} {members : List (String × α)}
    (h : (members.map Prod.fst).Nodup) (name : String) :
    valuesNamed name members = (members.lookup name).toList := by
  induction members with
  | nil => rfl
  | cons first rest ih =>
    obtain ⟨key, v⟩ := first
    rw [List.map_cons, List.nodup_cons] at h
    rw [valuesNamed, List.filter_cons, lookup_cons_eq]
    by_cases hkey : key = name
    · have hrest : rest.filter (fun member => member.1 = name) = [] := by
        rw [List.filter_eq_nil_iff]
        intro member hmember hname
        rw [decide_eq_true_iff] at hname
        exact h.1 (List.mem_map.mpr ⟨member, hmember, hname.trans hkey.symm⟩)
      rw [if_pos (decide_eq_true hkey), hrest, if_pos hkey.symm]
      rfl
    · rw [if_neg (by simpa using hkey), if_neg (Ne.symm hkey)]
      exact ih h.2

theorem lookup_map_snd {α β : Type} (f : α → β) (members : List (String × α)) (name : String) :
    (members.map fun member => (member.1, f member.2)).lookup name =
      (members.lookup name).map f := by
  induction members with
  | nil => rfl
  | cons first rest ih =>
    obtain ⟨key, v⟩ := first
    rw [List.map_cons, lookup_cons_eq, lookup_cons_eq, ih]
    split <;> rfl

/-- A record in which each name stands once can be read as one with known fields. -/
theorem fields?_node_record (h : (members.map Prod.fst).Nodup) (fields : List String) :
    (Value.record members).node.fields? fields =
      some (fields.map fun field => (members.lookup field).map Value.node) := by
  have hmembers : (members.map fun member => (unitsOf member.1, member.2.node)).mapM
      (fun part => (decodeText? part.1).map (·, part.2)) =
        some (members.map fun member => (member.1, member.2.node)) := by
    refine mapM_map_eq_some fun member _ => ?_
    rw [decodeText?_unitsOf]
    rfl
  have hnodup : ((members.map fun member => (member.1, member.2.node)).map Prod.fst).Nodup := by
    rwa [List.map_map]
  have hfields : (fields.map id).mapM (fun field => single? (valuesNamed field
      (members.map fun member => (member.1, member.2.node)))) =
        some (fields.map fun field => (members.lookup field).map Value.node) := by
    refine mapM_map_eq_some fun field _ => ?_
    rw [id, valuesNamed_of_nodup hnodup, lookup_map_snd]
    cases members.lookup field <;> rfl
  rw [List.map_id] at hfields
  rw [Value.node, memberNodesOf_eq_map, fields?_record, hmembers, Option.bind_some, hfields]

end Json

end QueryTelemetry
