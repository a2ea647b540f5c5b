import SqlAudit.DataType.Descriptor
import SqlAudit.Text.UpperCase

/-!
The registry of data types: look-up by name, types of a dialect that can take the place of a type,
conversion paths, and inference from samples.
-/

namespace SqlAudit

/-- A registry keeps its types in the order of registration.  An alias points at a place in that
order. -/
structure Registry where
  /-- Upper-case names with their types. -/
  types : List (String × Descriptor) := []
  /-- Upper-case aliases with the place of their type; the first registration counts. -/
  aliases : List (String × Nat) := []

/-- A type that fits samples, and how well. -/
structure TypeSuggestion where
  descriptor : Descriptor
  confidence : Float32

namespace Registry

/-- The form in which names are compared. -/
def keyOf (name : String) : String := String.ofList (Text.upper name.toList)

def place? (types : List (String × Descriptor)) (key : String) : Option Nat :=
  types.findIdx? (·.1 == key)

/-- Adds an alias unless it is the name of a type or an alias already. -/
def addAlias (r : Registry) (place : Nat) (name : String) : Registry :=
  if (place? r.types name).isSome || (r.aliases.lookup name).isSome then r
  else { r with aliases := r.aliases ++ [(name, place)] }

/-- Adds a type in the place of the type of the same name, or at the end. -/
def register (r : Registry) (d : Descriptor) : Registry :=
  let key := keyOf d.name
  let (types, place) := match place? r.types key with
    | some place => (r.types.set place (key, d), place)
    | none => (r.types ++ [(key, d)], r.types.length)
  -- The aliases of a type that was replaced stay, and lead to the new one.
  (d.aliases.map keyOf).foldl (fun r name => r.addAlias place name) { r with types }

def ofDescriptors (ds : List Descriptor) : Registry := ds.foldl register {}

def descriptors (r : Registry) : List Descriptor := r.types.map (·.2)

def named? (r : Registry) (key : String) : Option Descriptor := r.types.lookup key

/-- The key under which a written type is looked up: without arguments, with one space between
words, in upper case. -/
def lookupKey (t : Text) : String :=
  String.ofList (Text.upper (Text.squeeze (t.takeWhile (· != '('))))

/-- The type of a written name or alias.  Arguments are passed over, and brackets at the end make an
array of any type. -/
def resolve? (r : Registry) (written : String) : Option Descriptor :=
  let name := Text.trim written.toList
  if "[]".toList.isSuffixOf name then r.named? "ARRAY"
  else
    let key := lookupKey name
    if key.isEmpty then none
    else match r.named? key with
      | some d => some d
      | none => (r.aliases.lookup key).bind fun place => r.descriptors[place]?

def inCategory (r : Registry) (category : TypeCategory) : List Descriptor :=
  r.descriptors.filter (·.category = category)

/-- The types of a dialect, none if it is not known. -/
def inDialect (r : Registry) (dialect : String) : List Descriptor :=
  match Dialect.normalName? dialect with
  | none => []
  | some name => r.descriptors.filter (·.dialects.contains name)

/-- Adds a type unless one of the same name is there. -/
def addNew (found : List Descriptor) (d : Descriptor) : List Descriptor :=
  if found.any (·.name == d.name) then found else found ++ [d]

/-- The types of a dialect that can hold the values of a type: the type itself if the dialect has
it, then the target of its conversion rule, then the other types of its family. -/
def compatible (r : Registry) (source dialect : String) : List Descriptor :=
  match r.resolve? source, Dialect.normalName? dialect with
  | some d, some name =>
    let own := if d.dialects.contains name then [d] else []
    let target := ((d.conversionFor? name).bind r.resolve?).toList
    let family := r.descriptors.filter fun other =>
      other.category == d.category && other.dialects.contains name
    (own ++ target ++ family).foldl addNew []
  | _, _ => []

/-- The steps from a type to another one, with one type in between at most. -/
def path? (r : Registry) (source target : String) : Option (List String) :=
  match r.resolve? source, r.resolve? target with
  | some d, some e =>
    if d.name = e.name then some [d.name]
    -- Within a family every type converts to every other one.
    else if d.convertsTo e.name || d.category = e.category then some [d.name, e.name]
    else (r.descriptors.find? fun mid =>
      mid.category = d.category && mid.name != d.name && mid.convertsTo e.name).map fun mid =>
        [d.name, mid.name, e.name]
  | _, _ => none

/-! ## Inference -/

def mostSuggestions : Nat := 10

/-- The samples that count: trimmed, and neither blank nor `NULL`. -/
def realSamples (values : List String) : List Text :=
  (values.map fun v => Text.trim v.toList).filter fun t =>
    !t.isEmpty && !Text.sameLetters t "null".toList

/-- How well a type fits samples: the share that its format accepts, weighted by its specificity. -/
def suggestion? (samples : List Text) (d : Descriptor) : Option TypeSuggestion :=
  d.format.bind fun format =>
    let matched := samples.countP format.accepts
    let confidence :=
      Float32.ofNat matched / Float32.ofNat samples.length * d.specificity
    if confidence > 0 then some ⟨d, confidence⟩ else none

/-- The types that fit samples best, best first; types that fit equally well stand in the order of
registration. -/
def suggest (r : Registry) (values : List String) (dialect : Option String) :
    List TypeSuggestion :=
  let samples := realSamples values
  let offered := match dialect with
    | none => r.descriptors
    | some name => r.inDialect name
  if samples.isEmpty then []
  -- A confidence is positive, and positive numbers are ordered as their bits are.
  else ((offered.filterMap (suggestion? samples)).mergeSort
    fun a b => b.confidence.toBits ≤ a.confidence.toBits).take mostSuggestions

end Registry
end SqlAudit
