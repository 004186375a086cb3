import QueryTelemetry.Statement

/-!
# Tables and commands in a statement

The words of a statement are what stands between blanks, commas, parentheses and semicolons. A
command is one of a fixed list of words. A table is the word after one of the words that introduce
tables, a few optional words aside. Case does not matter for the fixed words, and in both lists each
entry stands once, where it came up first.
-/

namespace QueryTelemetry

namespace Redaction

/-- The words that are commands. -/
def commandWords : List (List Char) :=
  ["SELECT", "INSERT", "UPDATE", "DELETE", "MERGE", "CREATE", "ALTER", "DROP", "TRUNCATE", "GRANT",
    "REVOKE", "BEGIN", "COMMIT", "ROLLBACK", "COPY", "VACUUM", "ANALYZE", "EXPLAIN"].map
    String.toList

/-- The words after which a table is named. -/
def tableIntroductions : List (List Char) :=
  ["FROM", "JOIN", "INTO", "UPDATE", "TABLE"].map String.toList

/-- The words that may stand between such a word and the name of the table. -/
def tableFillers : List (List Char) :=
  ["ONLY", "IF", "NOT", "EXISTS", "LATERAL"].map String.toList

/-- Whether a character separates words. -/
def separatesWords (c : Char) : Bool :=
  Text.isBlank c || c == ',' || c == '(' || c == ')' || c == ';'

/-- The words of a text. -/
def words (text : List Char) : List (List Char) := Text.wordsBy separatesWords text

/-- The word with the letters of ASCII in upper case. -/
def upper (word : List Char) : List Char := word.map Char.toUpper

/-- Whether a word in the place of a table can be its name: it is no literal or parameter, no
command and no word that introduces a table itself. -/
def isTableName (word : List Char) : Bool :=
  word.head? != some '?' && word.head? != some '$' && !commandWords.contains (upper word) &&
    !tableIntroductions.contains (upper word)

/-- The names of tables among the words. The flag says whether a table is named next. -/
def tableWords : (named : Bool) → List (List Char) → List (List Char)
  | _, [] => []
  | false, word :: rest => tableWords (tableIntroductions.contains (upper word)) rest
  | true, word :: rest =>
    if tableFillers.contains (upper word) then tableWords true rest
    else if isTableName word then word :: tableWords false rest
    else tableWords false rest

/-- The tables that a text mentions. -/
def tables (text : List Char) : List (List Char) := (tableWords false (words text)).eraseDups

/-- The commands that a text mentions, in upper case. -/
def commands (text : List Char) : List (List Char) :=
  (((words text).map upper).filter commandWords.contains).eraseDups

end Redaction

end QueryTelemetry
