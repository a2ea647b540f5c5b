import SqlAudit.Review.Lexis
import SqlAudit.Text.UpperCase

/-!
The parser of strict reviews.  It judges a statement by its first token: a statement starts with a
word that begins statements in its dialect, or with a parenthesis.
-/

namespace SqlAudit
namespace StrictParser

/-- Words that begin a statement in all dialects. -/
def sharedWords : List String :=
  ["SELECT", "WITH", "VALUES", "FROM", "INSERT", "REPLACE", "UPDATE", "DELETE", "MERGE", "CREATE",
   "ALTER", "DROP", "TRUNCATE", "RENAME", "GRANT", "DENY", "REVOKE", "START", "BEGIN", "END",
   "COMMIT", "ROLLBACK", "SAVEPOINT", "RELEASE", "SET", "RESET", "SHOW", "USE", "EXPLAIN",
   "DESCRIBE", "DESC", "ANALYZE", "CALL", "EXECUTE", "EXEC", "PREPARE", "DEALLOCATE", "DECLARE",
   "FETCH", "OPEN", "CLOSE", "COPY", "LOAD", "UNLOAD", "ATTACH", "PRAGMA", "VACUUM", "KILL", "FLUSH",
   "DISCARD", "ASSERT", "CACHE", "UNCACHE", "MSCK", "IF", "CASE", "WHILE", "RAISE", "RAISERROR",
   "PRINT", "RETURN", "EXPORT"]

/-- Words that begin a statement in one dialect but not in all. -/
def dialectWords : Dialect → List String
  | .generic | .oracle => ["DETACH", "INSTALL", "OPTIMIZE", "COMMENT"]
  | .postgresql => ["LISTEN", "UNLISTEN", "NOTIFY", "COMMENT"]
  | _ => []

/-- Whether a statement of MySQL locks or unlocks tables. -/
def locksTables (token statement : Text) : Bool :=
  let word := Text.upper token
  (word == "LOCK".toList || word == "UNLOCK".toList) &&
    Text.upper (Lexis.mysql.firstToken (Text.trimStart (statement.drop token.length))) ==
      "TABLES".toList

/-- Whether a statement with this first token can be one. -/
def begins (d : Dialect) (token statement : Text) : Bool :=
  token == ['('] ||
  (sharedWords ++ dialectWords d).contains (String.ofList (Text.upper token)) ||
  (d = .mysql && locksTables token statement)

/-- Why a trimmed statement is rejected, if it is. -/
def verdict (d : Dialect) (statement : Text) : Option String :=
  let token := (Lexis.ofDialect d).firstToken statement
  if begins d token statement then none
  else
    let found := String.ofList token
    some s!"sql parser error: Expected: an SQL statement, found: {found} at Line: 1, Column: 1"

end StrictParser
end SqlAudit
