/-!
Families of data types.  Two types of one family count as convertible into each other.
-/

namespace SqlAudit

inductive TypeCategory where
  | numeric
  | string
  | dateTime
  | boolean
  | binary
  | jsonXml
  | spatial
  | network
  | uuid
  | monetary
  | interval
  | enumeration
  | composite
  | other
  deriving DecidableEq, Repr

namespace TypeCategory

/-- The name that is shown. -/
def label : TypeCategory → String
  | .numeric => "numeric"
  | .string => "string"
  | .dateTime => "date-time"
  | .boolean => "boolean"
  | .binary => "binary"
  | .jsonXml => "json/xml"
  | .spatial => "spatial"
  | .network => "network"
  | .uuid => "uuid"
  | .monetary => "monetary"
  | .interval => "interval"
  | .enumeration => "enum"
  | .composite => "composite"
  | .other => "other"

/-- The name in structured output. -/
def key : TypeCategory → String
  | .dateTime => "date_time"
  | .jsonXml => "json_xml"
  | category => category.label

/-- Every family with the names that people write for it. -/
def spellings : List (TypeCategory × List String) :=
  [(.numeric, ["numeric", "number"]), (.string, ["string", "text"]),
   (.dateTime, ["datetime", "date", "time"]), (.boolean, ["boolean", "bool"]),
   (.binary, ["binary"]), (.jsonXml, ["jsonxml", "json", "xml"]),
   (.spatial, ["spatial", "geometry"]), (.network, ["network"]), (.uuid, ["uuid"]),
   (.monetary, ["monetary", "money"]), (.interval, ["interval"]), (.enumeration, ["enum"]),
   (.composite, ["composite"]), (.other, ["other"])]

/-- The family of a name.  Only unaccented letters and digits count, in any case. -/
def ofName? (written : String) : Option TypeCategory :=
  let key := (written.toList.filter Char.isAlphanum).map Char.toLower
  (spellings.find? fun entry => entry.2.any (·.toList == key)).map (·.1)

def unknownMessage (written : String) : String := s!"unknown data type category '{written}'"

end TypeCategory
end SqlAudit
