/-!
What the program calls itself.
-/

namespace SqlAudit
namespace Tool

def name : String := "sql-review"

def version : String := "0.3.0"

def uri : String := "https://github.com/RAprogramm/sql-review"

end Tool
end SqlAudit
