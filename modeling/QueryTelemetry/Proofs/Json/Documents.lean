import QueryTelemetry.Proofs.Json.Doubles
import QueryTelemetry.Proofs.Json.Quoted

/-!
# JSON documents are read back

The compact text of a value is cut into the tokens of the value (`tokens?_write`), and these lead
the reader from waiting for the value to having it (`foldlM_tokens`). So the text is one JSON
document, and what it describes is the value, with numbers and texts as they are written
(`parse?_render`).
-/

namespace QueryTelemetry

namespace Json

/-! ### What is read of a value -/

/-- The token that a double is read as. -/
def doubleToken (x : Float) : Token := ((tokens? (writeDouble x)).bind List.head?).getD .null

/-- What is read of a double. -/
def doubleNode (x : Float) : Node :=
  match doubleToken x with
  | .number n => .number n
  | _ => .null

mutual

/-- What is read of a value. -/
def Value.node : Value → Node
  | .null => .null
  | .bool b => .bool b
  | .whole k => .number (wholeNumber k)
  | .real x => doubleNode x
  | .text s => .text (unitsOf s)
  | .list items => .list (nodesOf items)
  | .record members => .record (memberNodesOf members)

/-- What is read of the items of a list. -/
def nodesOf : List Value → List Node
  | [] => []
  | item :: items => item.node :: nodesOf items

/-- What is read of the members of a record. -/
def memberNodesOf : List (String × Value) → List (List TextUnit × Node)
  | [] => []
  | (name, value) :: members => (unitsOf name, value.node) :: memberNodesOf members

end

mutual

/-- The tokens of a value. -/
def Value.tokens : Value → List Token
  | .null => [.null]
  | .bool b => [.bool b]
  | .whole k => [.number (wholeNumber k)]
  | .real x => [doubleToken x]
  | .text s => [.text (unitsOf s)]
  | .list items => .listStart :: itemTokens items
  | .record members => .recordStart :: memberTokens members

/-- The tokens of the items of a list and of its closing bracket. -/
def itemTokens : List Value → List Token
  | [] => [.listEnd]
  | [item] => item.tokens ++ [.listEnd]
  | item :: next :: items => item.tokens ++ .comma :: itemTokens (next :: items)

/-- The tokens of the members of a record and of its closing brace. -/
def memberTokens : List (String × Value) → List Token
  | [] => [.recordEnd]
  | [(name, value)] => .text (unitsOf name) :: .colon :: (value.tokens ++ [.recordEnd])
  | (name, value) :: next :: members =>
    .text (unitsOf name) :: .colon :: (value.tokens ++ .comma :: memberTokens (next :: members))

end

/-! ### Cutting a text into tokens -/

variable {rest : List Char}

/-- The token at the front of a text is cut off. -/
theorem tokens?_cons {first : Char} {more after : List Char} {token : Token}
    (hgap : isGap first = false) (h : token? first more = some (token, after)) :
    tokens? (first :: more) = (tokens? after).map (token :: ·) := by
  rw [tokens?, if_neg (by simp [hgap])]
  split
  · rename_i hnone
    rw [h] at hnone
    cases hnone
  · rename_i token' after' hsome
    rw [h] at hsome
    obtain ⟨rfl, rfl⟩ := by simpa using hsome
    rfl

theorem tokens?_number {n : NumberText} (h : n.IsProper)
    (hrest : rest.head?.any continuesNumber = false) :
    tokens? (n.write ++ rest) = (tokens? rest).map (.number n :: ·) := by
  obtain ⟨first, more, hwrite, hgap, hread⟩ := h.token? hrest
  rw [hwrite, List.cons_append, tokens?_cons hgap hread]

theorem tokens?_quote (s : String) :
    tokens? (quote s ++ rest) = (tokens? rest).map (.text (unitsOf s) :: ·) := by
  have hread : token? '"' (s.toList.flatMap escape ++ '"' :: rest) =
      some (.text (unitsOf s), rest) := by
    change (textUnits? _).map _ = _
    rw [textUnits?_quote]
    rfl
  have hquote : quote s ++ rest = '"' :: (s.toList.flatMap escape ++ '"' :: rest) := by
    simp [quote]
  rw [hquote, tokens?_cons rfl hread]

theorem tokens?_null : tokens? ("null".toList ++ rest) = (tokens? rest).map (.null :: ·) :=
  tokens?_cons rfl rfl

theorem tokens?_true : tokens? ("true".toList ++ rest) = (tokens? rest).map (.bool true :: ·) :=
  tokens?_cons rfl rfl

theorem tokens?_false : tokens? ("false".toList ++ rest) = (tokens? rest).map (.bool false :: ·) :=
  tokens?_cons rfl rfl

/-- A token of one character. -/
theorem tokens?_mark {first : Char} {mark : Token} (hgap : isGap first = false)
    (h : mark? first = some mark) : tokens? (first :: rest) = (tokens? rest).map (mark :: ·) :=
  tokens?_cons hgap (by unfold token?; rw [h])

/-- A double is read as `null` or as a number with a point or an exponent. -/
theorem doubleToken_cases (x : Float) :
    (writeDouble x = "null".toList ∧ doubleToken x = .null) ∨
      ∃ n : NumberText, n.IsProper ∧ n.isWhole = false ∧ writeDouble x = n.write ∧
        doubleToken x = .number n := by
  rcases writeDouble_cases x with hnull | ⟨n, hproper, hwhole, hwrite⟩
  · refine .inl ⟨hnull, ?_⟩
    have htokens : tokens? ("null".toList ++ []) = some [.null] := by
      rw [tokens?_null, tokens?]
      rfl
    rw [doubleToken, hnull, ← List.append_nil "null".toList, htokens]
    rfl
  · refine .inr ⟨n, hproper, hwhole, hwrite, ?_⟩
    have htokens : tokens? (n.write ++ []) = some [.number n] := by
      rw [tokens?_number hproper rfl, tokens?]
      rfl
    rw [doubleToken, hwrite, ← List.append_nil n.write, htokens]
    rfl

theorem tokens?_double (x : Float) (hrest : rest.head?.any continuesNumber = false) :
    tokens? (writeDouble x ++ rest) = (tokens? rest).map (doubleToken x :: ·) := by
  rcases doubleToken_cases x with ⟨hwrite, htoken⟩ | ⟨n, hproper, -, hwrite, htoken⟩
  · rw [hwrite, htoken, tokens?_null]
  · rw [hwrite, htoken, tokens?_number hproper hrest]

mutual

/-- The text of a value is cut into its tokens, if no number goes on behind it. -/
theorem tokens?_write : ∀ (v : Value) (rest : List Char),
    rest.head?.any continuesNumber = false →
      tokens? (v.write ++ rest) = (tokens? rest).map (v.tokens ++ ·)
  | .null, rest, _ => by
    rw [Value.write, tokens?_null]
    rfl
  | .bool true, rest, _ => by
    rw [Value.write, tokens?_true]
    rfl
  | .bool false, rest, _ => by
    rw [Value.write, tokens?_false]
    rfl
  | .whole k, rest, hrest => by
    rw [Value.write, ← write_wholeNumber, tokens?_number (isProper_wholeNumber k) hrest]
    rfl
  | .real x, rest, hrest => by
    rw [Value.write, tokens?_double x hrest]
    rfl
  | .text s, rest, _ => by
    rw [Value.write, tokens?_quote]
    rfl
  | .list items, rest, _ => by
    have hitems := tokens?_writeItems items rest
    rw [Value.write, List.cons_append, tokens?_mark rfl rfl, hitems, Option.map_map]
    rfl
  | .record members, rest, _ => by
    have hmembers := tokens?_writeMembers members rest
    rw [Value.write, List.cons_append, tokens?_mark rfl rfl, hmembers, Option.map_map]
    rfl

/-- The text of the items of a list is cut into their tokens. -/
theorem tokens?_writeItems : ∀ (items : List Value) (rest : List Char),
    tokens? (writeItems items ++ rest) = (tokens? rest).map (itemTokens items ++ ·)
  | [], rest => by
    rw [writeItems, List.singleton_append, tokens?_mark rfl rfl]
    rfl
  | [item], rest => by
    have hitem := tokens?_write item (']' :: rest) rfl
    rw [writeItems, List.append_assoc, List.singleton_append, hitem, tokens?_mark rfl rfl,
      Option.map_map, itemTokens]
    simp [Function.comp_def]
  | item :: next :: items, rest => by
    have hitem := tokens?_write item (',' :: (writeItems (next :: items) ++ rest)) rfl
    have hitems := tokens?_writeItems (next :: items) rest
    rw [writeItems, List.append_assoc, List.cons_append, hitem, tokens?_mark rfl rfl, hitems,
      Option.map_map, Option.map_map, itemTokens]
    simp [Function.comp_def]

/-- The text of the members of a record is cut into their tokens. -/
theorem tokens?_writeMembers : ∀ (members : List (String × Value)) (rest : List Char),
    tokens? (writeMembers members ++ rest) = (tokens? rest).map (memberTokens members ++ ·)
  | [], rest => by
    rw [writeMembers, List.singleton_append, tokens?_mark rfl rfl]
    rfl
  | [(name, value)], rest => by
    have hvalue := tokens?_write value ('}' :: rest) rfl
    have hmember : writeMembers [(name, value)] ++ rest =
        quote name ++ ':' :: (value.write ++ '}' :: rest) := by
      simp [writeMembers]
    rw [hmember, tokens?_quote, tokens?_mark rfl rfl, hvalue, tokens?_mark rfl rfl, Option.map_map,
      Option.map_map, Option.map_map, memberTokens]
    simp [Function.comp_def]
  | (name, value) :: next :: members, rest => by
    have hvalue := tokens?_write value (',' :: (writeMembers (next :: members) ++ rest)) rfl
    have hmembers := tokens?_writeMembers (next :: members) rest
    have hmember : writeMembers ((name, value) :: next :: members) ++ rest =
        quote name ++ ':' :: (value.write ++ ',' :: (writeMembers (next :: members) ++ rest)) := by
      simp [writeMembers]
    rw [hmember, tokens?_quote, tokens?_mark rfl rfl, hvalue, tokens?_mark rfl rfl, hmembers,
      Option.map_map, Option.map_map, Option.map_map, Option.map_map, memberTokens]
    simp [Function.comp_def]

end

/-! ### Reading the tokens -/

open Reader (read?)

/-- No value begins with the end of a list. -/
theorem Value.exists_tokens_eq_cons (v : Value) :
    ∃ token more, v.tokens = token :: more ∧ token ≠ .listEnd := by
  cases v with
  | real x =>
    refine ⟨doubleToken x, [], by rw [Value.tokens], ?_⟩
    rcases doubleToken_cases x with ⟨-, htoken⟩ | ⟨n, -, -, -, htoken⟩ <;> rw [htoken] <;> simp
  | _ => exact ⟨_, _, by rw [Value.tokens], by simp⟩

theorem exists_itemTokens_eq (item : Value) (items : List Value) :
    ∃ more, itemTokens (item :: items) = item.tokens ++ more := by
  cases items <;> exact ⟨_, by rw [itemTokens]⟩

/-- Where a first item is awaited, a value is read as elsewhere. -/
theorem foldlM_firstItem (v : Value) (more : List Token) (stack : List Frame) :
    (v.tokens ++ more).foldlM read? ⟨stack, .firstItem⟩ =
      (v.tokens ++ more).foldlM read? ⟨stack, .value⟩ := by
  obtain ⟨token, tokens, htokens, hend⟩ := v.exists_tokens_eq_cons
  have hread : read? ⟨stack, .firstItem⟩ token = read? ⟨stack, .value⟩ token := by
    cases token <;> first | rfl | exact absurd rfl hend
  rw [htokens, List.cons_append, List.foldlM_cons, List.foldlM_cons, hread]

mutual

/-- The tokens of a value lead the reader from waiting for it to having it. -/
theorem foldlM_tokens : ∀ (v : Value) (stack : List Frame),
    v.tokens.foldlM read? ⟨stack, .value⟩ = some ⟨stack, .nothing v.node⟩
  | .null, stack => rfl
  | .bool b, stack => rfl
  | .whole k, stack => rfl
  | .real x, stack => by
    rw [Value.tokens, Value.node, doubleNode]
    rcases doubleToken_cases x with ⟨-, htoken⟩ | ⟨n, -, -, -, htoken⟩ <;> rw [htoken] <;> rfl
  | .text s, stack => rfl
  | .list items, stack => by
    have hitems := foldlM_itemTokens items [] stack
    rw [Value.tokens, Value.node, List.foldlM_cons]
    change (itemTokens items).foldlM read? ⟨.list [] :: stack, .firstItem⟩ = _
    cases items with
    | nil => rfl
    | cons item items =>
      obtain ⟨more, hmore⟩ := exists_itemTokens_eq item items
      have hread := hitems (List.cons_ne_nil item items)
      rw [hmore] at hread ⊢
      rw [foldlM_firstItem, hread]
      rfl
  | .record members, stack => by
    have hmembers := foldlM_memberTokens members [] true stack (.inr rfl)
    rw [Value.tokens, Value.node, List.foldlM_cons]
    exact hmembers

/-- The items of a list are read one after the other. -/
theorem foldlM_itemTokens : ∀ (items : List Value) (before : List Node) (stack : List Frame),
    items ≠ [] → (itemTokens items).foldlM read? ⟨.list before :: stack, .value⟩ =
      some ⟨stack, .nothing (.list (before.reverse ++ nodesOf items))⟩
  | [], before, stack, hne => absurd rfl hne
  | [item], before, stack, _ => by
    have hitem := foldlM_tokens item (.list before :: stack)
    rw [itemTokens, List.foldlM_append, hitem]
    change some (Reader.mk stack (.nothing (.list (item.node :: before).reverse))) = _
    rw [List.reverse_cons]
    rfl
  | item :: next :: items, before, stack, _ => by
    have hitem := foldlM_tokens item (.list before :: stack)
    have hitems := foldlM_itemTokens (next :: items) (item.node :: before) stack
      (List.cons_ne_nil next items)
    rw [itemTokens, List.foldlM_append, hitem]
    refine hitems.trans ?_
    rw [List.reverse_cons, List.append_assoc]
    rfl

/-- The members of a record are read one after the other. -/
theorem foldlM_memberTokens : ∀ (members : List (String × Value))
    (before : List (List TextUnit × Node)) (mayEnd : Bool) (stack : List Frame),
    members ≠ [] ∨ mayEnd = true →
      (memberTokens members).foldlM read? ⟨stack, .name before mayEnd⟩ =
        some ⟨stack, .nothing (.record (before.reverse ++ memberNodesOf members))⟩
  | [], before, mayEnd, stack, h => by
    obtain rfl : mayEnd = true := h.resolve_left (absurd rfl)
    rw [memberTokens, memberNodesOf, List.append_nil]
    rfl
  | [(name, value)], before, mayEnd, stack, _ => by
    have hvalue := foldlM_tokens value (.record before (unitsOf name) :: stack)
    have hname : (memberTokens [(name, value)]).foldlM read? ⟨stack, .name before mayEnd⟩ =
        (value.tokens ++ [Token.recordEnd]).foldlM read?
          ⟨.record before (unitsOf name) :: stack, .value⟩ := by
      rw [memberTokens]
      cases mayEnd <;> rfl
    rw [hname, List.foldlM_append, hvalue]
    change some (Reader.mk stack (.nothing
      (.record ((unitsOf name, value.node) :: before).reverse))) = _
    rw [List.reverse_cons]
    rfl
  | (name, value) :: next :: members, before, mayEnd, stack, _ => by
    have hvalue := foldlM_tokens value (.record before (unitsOf name) :: stack)
    have hmembers := foldlM_memberTokens (next :: members) ((unitsOf name, value.node) :: before)
      false stack (.inl (List.cons_ne_nil _ _))
    have hname : (memberTokens ((name, value) :: next :: members)).foldlM read?
        ⟨stack, .name before mayEnd⟩ =
        (value.tokens ++ Token.comma :: memberTokens (next :: members)).foldlM read?
          ⟨.record before (unitsOf name) :: stack, .value⟩ := by
      rw [memberTokens]
      cases mayEnd <;> rfl
    rw [hname, List.foldlM_append, hvalue]
    refine hmembers.trans ?_
    rw [List.reverse_cons, List.append_assoc]
    rfl

end

/-- A value is read back from its text. -/
theorem parse?_render (v : Value) : Node.parse? v.render = some v.node := by
  have htokens := tokens?_write v [] rfl
  rw [List.append_nil, tokens?, Option.map_some, List.append_nil] at htokens
  rw [Node.parse?, Value.render, String.toList_ofList, htokens, Option.bind_some, Node.ofTokens?]
  have hread := foldlM_tokens v []
  rw [Reader.initial, hread]
  rfl

end Json

end QueryTelemetry
