import Mathlib.Data.List.Induction
import QueryTelemetry.Connection.Link
import QueryTelemetry.Proofs.Connection.Databases

/-!
# Parameters in connection strings

What is read back from the connection strings that are made from the environment and for another
database (`parameters_survive`). Both are made without regard to the ways in which a value can be
spelled: a value is written as it is, and a string is cut at its blanks even within quotes.
-/

namespace QueryTelemetry

namespace Connection

/-! ### What the new string says -/

/-- The words say the same, but for the database. -/
structure Renames (database : String) (old new : List (String × String)) : Prop where
  others : (new.filter fun pair => pair.1 ≠ "dbname") = old.filter fun pair => pair.1 ≠ "dbname"
  last : new.reverse.lookup "dbname" = some database

/-- The target with another database. -/
def Target.withDatabase (database : Option String) (t : Target) : Target :=
  { t with logIn.database := database }

section

variable {database : String} {old new : List (String × String)}

theorem renames_append (database : String) (old : List (String × String)) :
    Renames database old (old ++ [("dbname", database)]) where
  others := by simp
  last := by simp

theorem renames_words {words : List Word} (h : LastNames words) :
    Renames database (words.map Word.pair) (words.map (Word.withDatabase database)) where
  others := by
    clear h
    induction words with
    | nil => rfl
    | cons w words ih =>
      rw [List.map_cons, List.map_cons, List.filter_cons, List.filter_cons, ih,
        Word.fst_withDatabase]
      by_cases hkey : w.key = "dbname"
      · simp [hkey, Word.pair]
      · have hpair : w.withDatabase database = w.pair :=
          if_neg fun names => hkey (Word.key_of_names names)
        simp [hkey, hpair, Word.pair]
  last := by
    obtain ⟨front, w, back, rfl, names, hback⟩ := h
    have hw : w.withDatabase database = ("dbname", database) := if_pos names
    have hnone : (back.map (Word.withDatabase database)).reverse.lookup "dbname" = none := by
      refine List.lookup_eq_none_iff.mpr fun pair hpair => ?_
      obtain ⟨other, hother, rfl⟩ := List.mem_map.mp (List.mem_reverse.mp hpair)
      rw [Word.fst_withDatabase]
      simpa using fun heq => hback other hother heq.symm
    rw [List.map_append, List.map_cons, hw, List.reverse_append, List.reverse_cons,
      List.lookup_append, List.lookup_append, hnone]
    simp

/-- What is said of one parameter does not depend on the words for another one. -/
theorem lookup_filter_ne {key name : String} (h : key ≠ name) (pairs : List (String × String)) :
    (pairs.filter fun pair => pair.1 ≠ name).lookup key = pairs.lookup key := by
  induction pairs with
  | nil => rfl
  | cons pair pairs ih =>
    rw [List.filter_cons]
    split
    · rw [List.lookup_cons, List.lookup_cons, ih]
    · rename_i hpair
      have hname : pair.1 = name := by simpa using hpair
      have hne : (key == pair.1) = false := by simpa [hname] using h
      rw [List.lookup_cons, hne, ih]

theorem Renames.lookup (h : Renames database old new) (key : String) :
    new.reverse.lookup key =
      if key = "dbname" then some database else old.reverse.lookup key := by
  split
  · rename_i heq
    rw [heq, h.last]
  · rename_i hne
    rw [← lookup_filter_ne hne, List.filter_reverse, h.others, ← List.filter_reverse,
      lookup_filter_ne hne]

/-- The database is taken in without regard to anything else. -/
theorem Target.add?_withDatabase {key : String} (hkey : key ≠ "dbname") (t : Target)
    (value : String) (database : Option String) :
    (t.withDatabase database).add? key value = (t.add? key value).map (withDatabase database) := by
  unfold Target.add?
  split <;> simp_all [withDatabase, Option.map_map, Function.comp_def]

theorem Target.ofWords?_concat (pairs : List (String × String)) (pair : String × String) :
    ofWords? (pairs ++ [pair]) = (ofWords? pairs).bind fun t => t.add? pair.1 pair.2 := by
  simp [ofWords?, List.foldlM_append]

/-- The last word for the database counts, and the words for it have no other effect. -/
theorem Target.ofWords?_eq (pairs : List (String × String)) :
    ofWords? pairs =
      (ofWords? (pairs.filter fun pair => pair.1 ≠ "dbname")).map
        (withDatabase (pairs.reverse.lookup "dbname")) := by
  induction pairs using List.reverseRecOn with
  | nil => rfl
  | append_singleton pairs pair ih =>
    rw [ofWords?_concat, ih, List.filter_append, List.reverse_concat, List.lookup_cons]
    by_cases hpair : pair.1 = "dbname"
    · have hfilter : ([pair].filter fun pair => pair.1 ≠ "dbname") = [] := by simp [hpair]
      rw [hfilter, List.append_nil, hpair, beq_self_eq_true, Option.bind_map, Option.map_eq_bind]
      rfl
    · have hfilter : ([pair].filter fun pair => pair.1 ≠ "dbname") = [pair] := by simp [hpair]
      have hname : ("dbname" == pair.1) = false := by simpa using fun heq => hpair heq.symm
      rw [hfilter, hname, ofWords?_concat, Option.bind_map, Option.map_bind]
      refine congrArg _ (funext fun t => ?_)
      exact add?_withDatabase hpair t pair.2 _

theorem Renames.ofWords? (h : Renames database old new) :
    Target.ofWords? new = (Target.ofWords? old).map (Target.withDatabase (some database)) := by
  rw [Target.ofWords?_eq new, Target.ofWords?_eq old, h.others, h.last, Option.map_map]
  rfl

end

/-! ### Strings that are no URIs -/

/-- How URIs for a server begin. -/
def schemeStart : List Char := ['p', 'o', 's', 't', 'g', 'r', 'e', 's']

/-- No parameter has a name that begins as a URI does. -/
theorem Target.add?_eq_none {key : String} (h : schemeStart <+: key.toList) (t : Target)
    (value : String) : t.add? key value = none := by
  have hbounds : bounds? key = none := by
    unfold bounds?
    split
    case h_7 => rfl
    all_goals exact absurd h (by decide)
  have hpossible : isPossible key value = false := by
    rw [isPossible, hbounds, if_neg]
    rintro rfl
    exact absurd h (by decide)
  unfold Target.add?
  split
  case h_13 => rw [hpossible, if_neg Bool.false_ne_true]
  all_goals exact absurd h (by decide)

theorem Target.not_prefix_of_ofWords? {pairs : List (String × String)} {target : Target}
    (h : ofWords? pairs = some target) :
    ∀ pair ∈ pairs, ¬ schemeStart <+: pair.1.toList := by
  induction pairs using List.reverseRecOn generalizing target with
  | nil => simp
  | append_singleton pairs pair ih =>
    rw [ofWords?_concat] at h
    obtain ⟨t, ht, hadd⟩ := Option.bind_eq_some_iff.mp h
    simp only [List.forall_mem_append, List.forall_mem_singleton]
    refine ⟨ih ht, fun hprefix => ?_⟩
    rw [add?_eq_none hprefix] at hadd
    simp at hadd

theorem afterScheme?_of_separated {text : List Char} {words : List Word}
    (h : Separated text words) (keys : ∀ w ∈ words, ¬ schemeStart <+: w.key.toList) :
    Uri.afterScheme? text = none := by
  -- a text that begins so begins with a key that begins so, since no other character is in it
  have hprefix : ¬ schemeStart <+: text := by
    intro hstart
    cases h with
    | nil isBlank_of_mem =>
      exact absurd (isBlank_of_mem 'p' (hstart.subset List.mem_cons_self)) (by decide)
    | @cons blanks tail words w isBlank_of_mem ends others =>
      obtain ⟨rest, hrest⟩ := hstart
      cases blanks with
      | nil =>
        have hkeyChars : ∀ c ∈ schemeStart, isKeyChar c = true :=
          List.all_eq_true.mp (by decide)
        refine keys w List.mem_cons_self ⟨rest.takeWhile isKeyChar, ?_⟩
        have hkeys := congrArg (List.takeWhile isKeyChar) hrest
        rwa [List.takeWhile_append_of_pos hkeyChars, List.nil_append, Word.text,
          List.append_assoc, List.append_assoc, List.cons_append,
          takeWhile_append_eq w.isKeyChar_of_mem_key (w.isKeyChar_head?_behind_key _)] at hkeys
      | cons blank blanks =>
        have hblank := isBlank_of_mem blank List.mem_cons_self
        obtain rfl : 'p' = blank := (List.cons.inj hrest).1
        exact absurd hblank (by decide)
  have hstart : ∀ scheme ∈ ["postgres://", "postgresql://"], schemeStart <+: scheme.toList := by
    decide
  rw [Uri.afterScheme?, List.findSome?_eq_none_iff]
  intro scheme hscheme
  rw [if_neg]
  exact fun hwhole => hprefix
    ((hstart scheme hscheme).trans (List.isPrefixOf_iff_prefix.mp hwhole))

/-! ### The environment -/

/-- The parameters that the environment gives for a user. A password that is empty is none. -/
def given (environment : String → Option String) (user : String) : List (String × String) :=
  let password := (environment "PGPASSWORD").getD ""
  [("host", (environment "PGHOST").getD "localhost"),
    ("port", (environment "PGPORT").getD "5432"), ("user", user)] ++
      (if password.isEmpty then [] else [("password", password)]) ++
        [("dbname", (environment "PGDATABASE").getD user)]

section

variable {environment : String → Option String} {user : String}

/-- The string of the environment has each value as it is. -/
theorem ofEnvironment_eq (h : (environment "PGUSER" <|> environment "USER") = some user) :
    ofEnvironment environment =
      .ok (spellPlainly (given environment user), (environment "PGDATABASE").getD user) := by
  rw [ofEnvironment]
  simp only [h, Except.ok.injEq, Prod.mk.injEq, and_true]
  refine String.toList_inj.mp ?_
  rw [toList_spellPlainly]
  simp only [given]
  split <;> simp

theorem isKey_of_mem_given : ∀ pair ∈ given environment user, IsKey pair.1 := by
  have hsubset : (given environment user).map Prod.fst ⊆
      ["host", "port", "user", "password", "dbname"] := by
    simp only [given]
    split <;> simp
  have keys : ∀ key ∈ ["host", "port", "user", "password", "dbname"], IsKey key := by decide
  exact fun pair hpair => keys pair.1 (hsubset (List.mem_map_of_mem hpair))

theorem nodup_given : ((given environment user).map Prod.fst).Nodup := by
  rw [given]
  split <;> simp

end

/-! ### Another database -/

section

variable {connectionString database : String} {words : List Word}

/-- If all words survive, and the last one for the database is replaced, nothing is changed but the
database. -/
theorem renames_withDatabase (h : Separated connectionString.toList words)
    (plain : IsPlain database)
    (survive : NamesDatabase connectionString → LastNames words ∧ ∀ w ∈ words, w.Survives) :
    ∃ new : List Word, Separated (withDatabase connectionString database).toList new ∧
      Renames database (words.map Word.pair) (new.map Word.pair) := by
  by_cases names : NamesDatabase connectionString
  · obtain ⟨last, survive⟩ := survive names
    obtain ⟨new, separated, hpairs⟩ := separated_withDatabase_of_names h survive names plain
    exact ⟨new, separated, hpairs ▸ renames_words last⟩
  · obtain ⟨new, separated, hpairs⟩ := separated_withDatabase_of_not_names h names plain
    exact ⟨new, separated, hpairs ▸ renames_append database _⟩

theorem Separated.said?_eq {text : String} (h : Separated text.toList words) (key : String) :
    said? text key = (words.map Word.pair).reverse.lookup key := by
  rw [said?, words?_of_separated h, Option.bind_some]

/-- The target is the same, but for the database. -/
theorem parse?_withDatabase (h : Separated connectionString.toList words)
    (plain : IsPlain database)
    (survive : NamesDatabase connectionString → LastNames words ∧ ∀ w ∈ words, w.Survives)
    (no_uri : Uri.afterScheme? connectionString.toList = none) {target : Target}
    (htarget : Target.parse? connectionString = some target) :
    Target.parse? (withDatabase connectionString database) =
      some (target.withDatabase (some database)) := by
  obtain ⟨new, separated, renames⟩ := renames_withDatabase h plain survive
  rw [Target.parse?] at htarget
  simp only [no_uri, words?_of_separated h, Option.bind_some] at htarget
  have hnew := renames.ofWords?
  rw [htarget, Option.map_some] at hnew
  have keys : ∀ w ∈ new, ¬ schemeStart <+: w.key.toList := fun w hw =>
    Target.not_prefix_of_ofWords? hnew w.pair (List.mem_map_of_mem hw)
  rw [Target.parse?]
  simp only [afterScheme?_of_separated separated keys, words?_of_separated separated,
    Option.bind_some, hnew]

end

/-- A string says what another one says, but for the database. -/
def SaysInstead (new old database : String) : Prop :=
  ∀ key, said? new key = if key = "dbname" then some database else said? old key

theorem saysInstead_withDatabase {connectionString database : String} {words : List Word}
    (h : Separated connectionString.toList words) (plain : IsPlain database)
    (survive : NamesDatabase connectionString → LastNames words ∧ ∀ w ∈ words, w.Survives) :
    SaysInstead (withDatabase connectionString database) connectionString database := by
  obtain ⟨new, separated, renames⟩ := renames_withDatabase h plain survive
  intro key
  rw [separated.said?_eq, renames.lookup, h.said?_eq]

/-- In a string of plain values the new name is read back, and nothing else is changed, exactly if
the name is plain. -/
theorem saysInstead_withDatabase_spellPlainly_iff {pairs : List (String × String)}
    {database : String} (keys : ∀ pair ∈ pairs, IsKey pair.1)
    (distinct : (pairs.map Prod.fst).Nodup) (plain : ∀ pair ∈ pairs, IsPlain pair.2)
    (h : "dbname" ∈ pairs.map Prod.fst) :
    SaysInstead (withDatabase (spellPlainly pairs) database) (spellPlainly pairs) database ↔
      IsPlain database := by
  rw [withDatabase_spellPlainly keys plain h]
  have said := (said?_spellPlainly_iff keys distinct).mpr plain
  have hfst : (pairs.map (setDatabase database)).map Prod.fst = pairs.map Prod.fst := by
    rw [List.map_map]
    exact List.map_congr_left fun pair _ => fst_setDatabase database pair
  have keys_new : ∀ pair ∈ pairs.map (setDatabase database), IsKey pair.1 :=
    List.forall_mem_map.mpr fun pair hpair =>
      fst_setDatabase database pair ▸ keys pair hpair
  constructor
  · intro hinstead
    have plain_new := (said?_spellPlainly_iff keys_new (hfst ▸ distinct)).mp
      (List.forall_mem_map.mpr fun pair hpair => ?_)
    · obtain ⟨pair, hpair, hkey⟩ := List.mem_map.mp h
      have hdatabase := plain_new _ (List.mem_map_of_mem hpair)
      rwa [setDatabase_of_eq hkey] at hdatabase
    · rw [hinstead, fst_setDatabase]
      split
      · rw [setDatabase_of_eq ‹_›]
      · rw [setDatabase_of_ne ‹_›, said pair hpair]
  · intro hplain key
    have plain_new : ∀ pair ∈ pairs.map (setDatabase database), IsPlain pair.2 :=
      List.forall_mem_map.mpr fun pair hpair => by
        rw [setDatabase]
        split
        · exact hplain
        · exact plain pair hpair
    split
    · rename_i hkey
      obtain ⟨pair, hpair, heq⟩ := List.mem_map.mp h
      have hsaid := (said?_spellPlainly_iff keys_new (hfst ▸ distinct)).mpr plain_new _
        (List.mem_map_of_mem hpair)
      rwa [setDatabase_of_eq heq, ← hkey] at hsaid
    · rename_i hne
      rw [said?, said?, words?_spellPlainly keys_new plain_new, words?_spellPlainly keys plain,
        Option.bind_some, Option.bind_some, ← lookup_filter_ne hne, List.filter_reverse,
        filter_map_setDatabase, ← List.filter_reverse, lookup_filter_ne hne]

/-! ### What is read back -/

/-- The values in the environment are read back exactly if all of them are plain. In the string of
such values, the database can be replaced exactly by a database with a plain name.

In any well-formed string, nothing but the database is changed for another database with a plain
name, which is then connected to, if the string names a database in no part, or if all words survive
and the last one for the database is replaced. If no part names a database, the name is read back
only if it is plain. -/
theorem parameters_survive {environment : String → Option String} {user : String}
    (huser : (environment "PGUSER" <|> environment "USER") = some user)
    {link : Link} {words : List Word} (separated : Separated link.connectionString.toList words)
    (database : String) :
    (∃ text, ofEnvironment environment = .ok (text, (environment "PGDATABASE").getD user) ∧
      ((∀ pair ∈ given environment user, said? text pair.1 = some pair.2) ↔
        ∀ pair ∈ given environment user, IsPlain pair.2) ∧
      ((∀ pair ∈ given environment user, IsPlain pair.2) →
        words? text.toList = some (given environment user) ∧
          (SaysInstead (withDatabase text database) text database ↔ IsPlain database))) ∧
    (link.forDatabase database).database = database ∧
    (¬ NamesDatabase link.connectionString →
      (said? (link.forDatabase database).connectionString "dbname" = some database ↔
        IsPlain database)) ∧
    (IsPlain database →
      (NamesDatabase link.connectionString → LastNames words ∧ ∀ w ∈ words, w.Survives) →
      SaysInstead (link.forDatabase database).connectionString link.connectionString database ∧
        ∀ target, Uri.afterScheme? link.connectionString.toList = none →
          Target.parse? link.connectionString = some target →
          Target.parse? (link.forDatabase database).connectionString =
            some (target.withDatabase (some database))) := by
  refine ⟨?_, rfl, fun not_names => ?_, fun plain survive => ?_⟩
  · have distinct : ((given environment user).map Prod.fst).Nodup := nodup_given
    have named : "dbname" ∈ (given environment user).map Prod.fst := by simp [given]
    exact ⟨_, ofEnvironment_eq huser, said?_spellPlainly_iff isKey_of_mem_given distinct,
      fun plain => ⟨words?_spellPlainly isKey_of_mem_given plain,
        saysInstead_withDatabase_spellPlainly_iff isKey_of_mem_given distinct plain named⟩⟩
  · refine ⟨isPlain_of_said?_withDatabase separated not_names, fun plain => ?_⟩
    have hinstead := saysInstead_withDatabase separated plain fun names => absurd names not_names
    exact hinstead "dbname"
  · exact ⟨saysInstead_withDatabase separated plain survive,
      fun target no_uri htarget => parse?_withDatabase separated plain survive no_uri htarget⟩

/-- An environment that names a user, a password and a database. -/
def environmentWith (password name : String) : Option String :=
  if name = "PGUSER" then some "app"
  else if name = "PGPASSWORD" then some password
  else if name = "PGDATABASE" then some "shop"
  else none

theorem isKey_password : IsKey "password" := by decide

theorem spells_quoted (blanks : Nat) :
    Spells ('\'' :: ('a' :: (List.replicate blanks ' ' ++ ['b']) ++ ['\'']))
      (String.ofList ('a' :: (List.replicate blanks ' ' ++ ['b']))).toList := by
  rw [String.toList_ofList]
  refine .quoted (escapes_self fun c hc => ?_)
  simp only [List.mem_cons, List.mem_append, List.mem_replicate, List.not_mem_nil, or_false] at hc
  rcases hc with rfl | ⟨-, rfl⟩ | rfl <;> decide

/-- A password in quotes, of two letters with some blanks between them. -/
def quotedPassword (blanks : Nat) : Word :=
  .tight "password" isKey_password _ _ (spells_quoted blanks)

theorem spells_escaped : Spells ['a', '\\', 'b'] "ab".toList := by
  have hvalue : "ab".toList = ['a', 'b'] := by decide
  rw [hvalue]
  exact .bare (.asItIs (by decide) (by decide) (.escaped 'b' .nil)) (by decide) (by decide)

/-- A word with a backslash in its value that is read as an escape. -/
def escapedWord (key : String) (isKey : IsKey key) : Word :=
  .tight key isKey _ _ spells_escaped

/-- The link of a client with a quoted password. -/
def quotedLink (blanks : Nat) : Link :=
  .create ⟨"app", false⟩
    (String.ofList ("dbname=shop password='a".toList ++ List.replicate blanks ' ' ++ "b'".toList))
    "shop"

theorem separated_quotedLink (blanks : Nat) :
    Separated (quotedLink blanks).connectionString.toList
      [.plain ("dbname", "shop") (by decide) (by decide), quotedPassword blanks] := by
  have htext : (quotedLink blanks).connectionString.toList =
      List.intercalate [' '] ([Word.plain ("dbname", "shop") (by decide) (by decide),
        quotedPassword blanks].map Word.text) := by
    simp [quotedLink, Link.create, quotedPassword, Word.text, Word.plain, Word.tight]
  rw [htext]
  exact separated_intercalate _

theorem parameters_survive_quoted :
    (∃ text, ofEnvironment (environmentWith "secret") = .ok (text, "shop") ∧
      words? text.toList = some [("host", "localhost"), ("port", "5432"), ("user", "app"),
        ("password", "secret"), ("dbname", "shop")]) ∧
    SaysInstead ((quotedLink 1).forDatabase "orders").connectionString
      (quotedLink 1).connectionString "orders" := by
  have last : LastNames [.plain ("dbname", "shop") (by decide) (by decide), quotedPassword 1] :=
    ⟨[], _, _, rfl, by decide, by simp [quotedPassword, Word.tight]⟩
  have huser : (environmentWith "secret" "PGUSER" <|> environmentWith "secret" "USER") =
      some "app" := rfl
  obtain ⟨⟨text, htext, -, hplain⟩, -, -, hinstead⟩ :=
    parameters_survive huser (separated_quotedLink 1) "orders"
  constructor
  · exact ⟨text, htext, (hplain (by decide)).1⟩
  · refine (hinstead (by decide) fun _ => ⟨last, ?_⟩).1
    simp only [List.forall_mem_cons, List.not_mem_nil, false_implies, implies_true, and_true]
    constructor
    · exact .replaced (by decide) (Word.not_isBlank_plain _ _)
    · refine .kept ?_ ?_
      · simp [quotedPassword, Word.tight, Word.text, Text.wordsBy, Text.isBlank, databaseKey]
      · simp [quotedPassword, Word.tight, Text.respaced, Text.wordsBy, Text.isBlank]

/-- A backslash in a password of the environment is lost, and so is one in the name of another
database. In a quoted password, a blank is lost when another database is named. -/
theorem not_said?_of_unescaped :
    (∃ text, ofEnvironment (environmentWith "a\\b") = .ok (text, "shop") ∧
      said? text "password" = some "ab") ∧
    said? (withDatabase "dbname=shop" "a\\b") "dbname" = some "ab" ∧
    said? (quotedLink 2).connectionString "password" = some "a  b" ∧
      said? ((quotedLink 2).forDatabase "orders").connectionString "password" =
        some "a b" := by
  refine ⟨⟨_, ofEnvironment_eq rfl, ?_⟩, ?_, ?_, ?_⟩
  · have htext : (spellPlainly (given (environmentWith "a\\b") "app")).toList =
        List.intercalate [' '] ([Word.plain ("host", "localhost") (by decide) (by decide),
          .plain ("port", "5432") (by decide) (by decide),
          .plain ("user", "app") (by decide) (by decide), escapedWord "password" isKey_password,
          .plain ("dbname", "shop") (by decide) (by decide)].map Word.text) := by
      decide
    rw [(htext ▸ separated_intercalate _ : Separated _ _).said?_eq]
    decide
  · have hshop : "dbname=shop" = spellPlainly [("dbname", "shop")] := by decide
    have htext : (spellPlainly [("dbname", "a\\b")]).toList =
        List.intercalate [' '] ([escapedWord "dbname" isKey_dbname].map Word.text) := by
      decide
    rw [hshop, withDatabase_spellPlainly (by decide) (by decide) (by decide)]
    rw [(htext ▸ separated_intercalate _ : Separated (spellPlainly _).toList _).said?_eq]
    decide
  · rw [(separated_quotedLink 2).said?_eq]
    decide
  · have hparts : Text.wordsBy Text.isBlank (quotedLink 2).connectionString.toList =
        ["dbname=shop".toList, "password='a".toList, "b'".toList] := by
      simp [quotedLink, Link.create, Text.wordsBy, Text.isBlank]
    have names : NamesDatabase (quotedLink 2).connectionString :=
      ⟨_, hparts ▸ List.mem_cons_self, by decide⟩
    have htext : ((quotedLink 2).forDatabase "orders").connectionString.toList =
        List.intercalate [' '] ([Word.plain ("dbname", "orders") (by decide) (by decide),
          quotedPassword 1].map Word.text) := by
      rw [Link.forDatabase, Link.create, toList_withDatabase_of_names names, hparts]
      decide
    rw [(htext ▸ separated_intercalate _ : Separated _ _).said?_eq]
    decide

end Connection

end QueryTelemetry
