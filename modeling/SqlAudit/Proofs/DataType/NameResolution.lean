import Mathlib.Data.List.Nodup
import SqlAudit.DataType.Registry

/-!
What a written name resolves to.  A registry has one type for each key, the one that was registered
last, and an alias stands for the place of its type.  So the name of a type comes before any alias,
and an alias leads to a type of the name under which it was registered.  That type does not have the
alias itself only where it has replaced one of the same name.
-/

namespace SqlAudit

def Descriptor.Owns (d : Descriptor) (key : String) : Prop :=
  key = Registry.keyOf d.name ∨ key ∈ d.aliases.map Registry.keyOf

namespace Registry

/-- The key of a name as it is written. -/
def writtenKey (written : String) : String := lookupKey (Text.trim written.toList)

/-- Brackets at the end of a written name make it an array. -/
def IsArray (written : String) : Prop := "[]".toList <:+ Text.trim written.toList

instance (written : String) : Decidable (IsArray written) :=
  inferInstanceAs (Decidable ("[]".toList <:+ Text.trim written.toList))

theorem resolve?_of_isArray (r : Registry) {written : String} (h : IsArray written) :
    r.resolve? written = r.named? "ARRAY" := by
  rw [IsArray, ← List.isSuffixOf_iff_suffix] at h
  rw [resolve?]
  dsimp only
  rw [if_pos h]

theorem resolve?_of_not_isArray (r : Registry) {written : String} (h : ¬ IsArray written) :
    r.resolve? written = if writtenKey written = "" then none
      else (r.named? (writtenKey written)).or
        ((r.aliases.lookup (writtenKey written)).bind fun place => r.descriptors[place]?) := by
  rw [IsArray, ← List.isSuffixOf_iff_suffix] at h
  rw [resolve?, writtenKey]
  dsimp only
  rw [if_neg h]
  generalize lookupKey (Text.trim written.toList) = key
  simp only [String.isEmpty_iff]
  cases r.named? key <;> rfl

/-! ## Registration -/

def keys (types : List (String × Descriptor)) : List String := types.map Prod.fst

/-- The types with one more of them, and its place. -/
def put (types : List (String × Descriptor)) (d : Descriptor) : List (String × Descriptor) × Nat :=
  match place? types (keyOf d.name) with
  | some place => (types.set place (keyOf d.name, d), place)
  | none => (types ++ [(keyOf d.name, d)], types.length)

theorem register_eq (r : Registry) (d : Descriptor) :
    r.register d = (d.aliases.map keyOf).foldl
      (fun s name => s.addAlias (put r.types d).2 name) { r with types := (put r.types d).1 } := by
  unfold Registry.register put
  rfl

/-- A type of a new name comes last; one of a name that is there takes its place. -/
theorem put_cases (types : List (String × Descriptor)) (d : Descriptor) :
    (keyOf d.name ∉ keys types ∧ put types d = (types ++ [(keyOf d.name, d)], types.length)) ∨
      ∃ place, (keys types)[place]? = some (keyOf d.name) ∧
        put types d = (types.set place (keyOf d.name, d), place) := by
  rw [put, place?]
  cases hplace : types.findIdx? (·.1 == keyOf d.name) with
  | none =>
    refine .inl ⟨?_, rfl⟩
    rw [List.findIdx?_eq_none_iff] at hplace
    intro hmem
    obtain ⟨entry, hentry, hkey⟩ := List.mem_map.mp hmem
    exact absurd hkey (by simpa using hplace entry hentry)
  | some place =>
    refine .inr ⟨place, ?_, rfl⟩
    obtain ⟨hlt, hkey, -⟩ := List.findIdx?_eq_some_iff_getElem.mp hplace
    rw [keys, List.getElem?_map, List.getElem?_eq_getElem hlt, Option.map_some, beq_iff_eq.mp hkey]

theorem keys_set {types : List (String × Descriptor)} {place : Nat} {key : String}
    (h : (keys types)[place]? = some key) (d : Descriptor) :
    keys (types.set place (key, d)) = keys types := by
  obtain ⟨hlt, hkey⟩ := List.getElem?_eq_some_iff.mp h
  rw [keys, List.map_set, ← keys]
  dsimp only
  rw [← hkey, List.set_getElem_self]

/-- Every key stays at its place, so that an alias goes on pointing at the same name. -/
theorem put_spec {types : List (String × Descriptor)} (h : (keys types).Nodup) (d : Descriptor) :
    (keys (put types d).1).Nodup ∧
      (∀ entry ∈ (put types d).1, entry ∈ types ∨ entry = (keyOf d.name, d)) ∧
      (∀ (place : Nat) (key : String), (keys types)[place]? = some key →
        (keys (put types d).1)[place]? = some key) ∧
      (keys (put types d).1)[(put types d).2]? = some (keyOf d.name) := by
  rcases put_cases types d with ⟨hnew, hput⟩ | ⟨place, hplace, hput⟩
  · have hkeys : keys (types ++ [(keyOf d.name, d)]) = keys types ++ [keyOf d.name] :=
      List.map_append
    have hlength : types.length = (keys types).length := (List.length_map _).symm
    rw [hput, hkeys]
    refine ⟨?_, fun entry hentry => ?_, fun place key hkey => ?_, ?_⟩
    · rw [List.nodup_append]
      refine ⟨h, List.nodup_singleton _, fun key hkey other hother => ?_⟩
      rintro rfl
      rw [List.mem_singleton.mp hother] at hkey
      exact hnew hkey
    · rcases List.mem_append.mp hentry with hentry | hentry
      · exact .inl hentry
      · exact .inr (List.mem_singleton.mp hentry)
    · rw [List.getElem?_append_left (List.getElem?_eq_some_iff.mp hkey).1, hkey]
    · rw [hlength, List.getElem?_concat_length]
  · rw [hput, keys_set hplace d]
    exact ⟨h, fun entry hentry => List.mem_or_eq_of_mem_set hentry, fun _ _ hkey => hkey, hplace⟩

theorem types_foldl_addAlias (place : Nat) (names : List String) (r : Registry) :
    (names.foldl (fun r name => r.addAlias place name) r).types = r.types := by
  induction names generalizing r with
  | nil => rfl
  | cons name rest ih =>
    rw [List.foldl_cons, ih, addAlias]
    split
    · rfl
    · rfl

theorem mem_aliases_foldl_addAlias {place : Nat} {names : List String} {r : Registry}
    {a : String × Nat} (h : a ∈ (names.foldl (fun r name => r.addAlias place name) r).aliases) :
    a ∈ r.aliases ∨ a.2 = place ∧ a.1 ∈ names := by
  induction names generalizing r with
  | nil => exact .inl h
  | cons name rest ih =>
    rw [List.foldl_cons] at h
    rcases ih h with hold | ⟨hplace, hname⟩
    · rw [addAlias] at hold
      split at hold
      · exact .inl hold
      · rcases List.mem_append.mp hold with hold | hnew
        · exact .inl hold
        · rw [List.mem_singleton.mp hnew]
          exact .inr ⟨rfl, List.mem_cons_self⟩
    · exact .inr ⟨hplace, List.mem_cons_of_mem _ hname⟩

/-! ## Registries -/

/-- How a registry comes from the types that were registered. -/
structure Holds (r : Registry) (ds : List Descriptor) : Prop where
  nodup : (keys r.types).Nodup
  entries : ∀ entry ∈ r.types, entry.1 = keyOf entry.2.name ∧ entry.2 ∈ ds
  aliased : ∀ a ∈ r.aliases, ∃ e ∈ ds, a.1 ∈ e.aliases.map keyOf ∧
    (keys r.types)[a.2]? = some (keyOf e.name)

namespace Holds

variable {r : Registry} {ds : List Descriptor}

theorem register (h : Holds r ds) (d : Descriptor) : Holds (r.register d) (ds ++ [d]) := by
  obtain ⟨hnodup, hentries, hkept, hplaced⟩ := put_spec h.nodup d
  rw [register_eq]
  constructor
  · rw [types_foldl_addAlias]
    exact hnodup
  · rw [types_foldl_addAlias]
    intro entry hentry
    rcases hentries entry hentry with hold | rfl
    · obtain ⟨hkey, hmem⟩ := h.entries entry hold
      exact ⟨hkey, List.mem_append_left _ hmem⟩
    · exact ⟨rfl, List.mem_append_right _ (List.mem_singleton_self d)⟩
  · rw [types_foldl_addAlias]
    intro a ha
    rcases mem_aliases_foldl_addAlias ha with hold | ⟨hplace, hname⟩
    -- A replaced type leaves its alias behind, at a place whose key is still its name.
    · obtain ⟨e, he, hname, hkey⟩ := h.aliased a hold
      exact ⟨e, List.mem_append_left _ he, hname, hkept _ _ hkey⟩
    · refine ⟨d, List.mem_append_right _ (List.mem_singleton_self d), hname, ?_⟩
      rw [hplace]
      exact hplaced

theorem foldl_register (h : Holds r ds) (more : List Descriptor) :
    Holds (more.foldl Registry.register r) (ds ++ more) := by
  induction more generalizing r ds with
  | nil => rwa [List.append_nil]
  | cons d rest ih =>
    have hrest := ih (h.register d)
    rwa [List.append_assoc] at hrest

theorem empty : Holds {} [] := ⟨List.nodup_nil, by simp, by simp⟩

theorem ofDescriptors (ds : List Descriptor) : Holds (Registry.ofDescriptors ds) ds :=
  empty.foldl_register ds

/-- Under a key there is the type of that name. -/
theorem named?_eq_some_iff (h : Holds r ds) {key : String} {d : Descriptor} :
    r.named? key = some d ↔ d ∈ r.descriptors ∧ keyOf d.name = key := by
  rw [named?, List.lookup_eq_some_iff, descriptors, List.mem_map]
  constructor
  · rintro ⟨before, after, htypes, -⟩
    have hmem : (key, d) ∈ r.types := by simp [htypes]
    exact ⟨⟨(key, d), hmem, rfl⟩, (h.entries _ hmem).1.symm⟩
  · rintro ⟨⟨entry, hmem, rfl⟩, rfl⟩
    rw [← (h.entries entry hmem).1]
    obtain ⟨before, after, htypes⟩ := List.append_of_mem hmem
    refine ⟨before, after, htypes, fun earlier hearlier => ?_⟩
    have hnodup := h.nodup
    rw [keys, htypes, List.map_append, List.nodup_append] at hnodup
    have hne := hnodup.2.2 _ (List.mem_map_of_mem hearlier) _ List.mem_cons_self
    exact bne_iff_ne.mpr (Ne.symm hne)

theorem mem_of_named? (h : Holds r ds) {key : String} {d : Descriptor}
    (hd : r.named? key = some d) : d ∈ ds := by
  obtain ⟨entry, hentry, rfl⟩ := List.mem_map.mp (h.named?_eq_some_iff.mp hd).1
  exact (h.entries entry hentry).2

/-- An alias leads to a type of the name under which it was registered. -/
theorem of_alias (h : Holds r ds) {key : String} {d : Descriptor}
    (hd : ((r.aliases.lookup key).bind fun place => r.descriptors[place]?) = some d) :
    d ∈ ds ∧ ∃ e ∈ ds, keyOf e.name = keyOf d.name ∧ key ∈ e.aliases.map keyOf := by
  obtain ⟨place, hlookup, hplace⟩ := Option.bind_eq_some_iff.mp hd
  obtain ⟨before, after, haliases, -⟩ := List.lookup_eq_some_iff.mp hlookup
  have hmem : (key, place) ∈ r.aliases := by simp [haliases]
  obtain ⟨e, he, hname, hkey⟩ := h.aliased _ hmem
  rw [descriptors, List.getElem?_map, Option.map_eq_some_iff] at hplace
  obtain ⟨entry, hentry, rfl⟩ := hplace
  rw [keys, List.getElem?_map, hentry, Option.map_some, Option.some.injEq] at hkey
  obtain ⟨hentrykey, hentrymem⟩ := h.entries entry (List.mem_of_getElem? hentry)
  refine ⟨hentrymem, e, he, ?_, hname⟩
  rw [← hkey, hentrykey]

end Holds

/-- A written name resolves to a type that has its key as its name or as an alias, unless it is an
array: then to the type with the name of arrays.  The alias may be that of another type of the same
name, if there is one among those registered.  A type whose name is the key comes before an alias.
Nothing has the empty key. -/
theorem resolve?_ofDescriptors (ds : List Descriptor) (written : String) :
    (∀ d, (ofDescriptors ds).resolve? written = some d → d ∈ ds ∧
      (IsArray written ∧ (ofDescriptors ds).named? "ARRAY" = some d ∨
        ¬ IsArray written ∧ writtenKey written ≠ "" ∧
          (∃ e ∈ ds, keyOf e.name = keyOf d.name ∧ e.Owns (writtenKey written)) ∧
          ((∀ e ∈ ds, keyOf e.name = keyOf d.name → e = d) → d.Owns (writtenKey written)))) ∧
    (¬ IsArray written → writtenKey written ≠ "" →
      ∀ d ∈ (ofDescriptors ds).descriptors, keyOf d.name = writtenKey written →
        (ofDescriptors ds).resolve? written = some d) := by
  have h := Holds.ofDescriptors ds
  generalize ofDescriptors ds = r at h
  constructor
  · intro d hd
    by_cases harray : IsArray written
    · rw [resolve?_of_isArray r harray] at hd
      exact ⟨h.mem_of_named? hd, .inl ⟨harray, hd⟩⟩
    · rw [resolve?_of_not_isArray r harray] at hd
      split at hd
      · cases hd
      · rename_i hkey
        have howner : d ∈ ds ∧
            ∃ e ∈ ds, keyOf e.name = keyOf d.name ∧ e.Owns (writtenKey written) := by
          rcases Option.or_eq_some_iff.mp hd with hnamed | ⟨-, halias⟩
          · have hmem := h.mem_of_named? hnamed
            exact ⟨hmem, d, hmem, rfl, .inl (h.named?_eq_some_iff.mp hnamed).2.symm⟩
          · obtain ⟨hmem, e, he, hname, hown⟩ := h.of_alias halias
            exact ⟨hmem, e, he, hname, .inr hown⟩
        obtain ⟨hmem, e, he, hname, hown⟩ := howner
        refine ⟨hmem, .inr ⟨harray, hkey, ⟨e, he, hname, hown⟩, fun honly => ?_⟩⟩
        rwa [← honly e he hname]
  · intro harray hkey d hd hname
    rw [resolve?_of_not_isArray r harray, if_neg hkey,
      h.named?_eq_some_iff.mpr ⟨hd, hname⟩, Option.some_or]

def nameOnly (name : String) (aliases : List String) : Descriptor :=
  { name, category := .other, aliases }

/-- An alias with arguments, and the name itself. -/
theorem resolve?_ofDescriptors_bool :
    (∃ d, (ofDescriptors [nameOnly "Bool" ["bit"]]).resolve? " Bit (1)" = some d ∧
        d.Owns "BIT") ∧
      ¬ IsArray "bool" ∧ writtenKey "bool" ≠ "" ∧
      (ofDescriptors [nameOnly "Bool" ["bit"]]).resolve? "bool" =
        some (nameOnly "Bool" ["bit"]) := by
  have hname : ¬ IsArray "bool" := by decide +kernel
  have hkey : writtenKey "bool" ≠ "" := by decide +kernel
  refine ⟨?_, hname, hkey, (resolve?_ofDescriptors _ "bool").2 hname hkey _
    (List.mem_singleton_self _) (by decide +kernel)⟩
  have hsome : ((ofDescriptors [nameOnly "Bool" ["bit"]]).resolve? " Bit (1)").isSome := by
    decide +kernel
  obtain ⟨d, hd⟩ := Option.isSome_iff_exists.mp hsome
  obtain ⟨hmem, ⟨harray, -⟩ | ⟨-, -, -, hown⟩⟩ := (resolve?_ofDescriptors _ " Bit (1)").1 d hd
  · exact absurd harray (by decide +kernel)
  · have hbit : writtenKey " Bit (1)" = "BIT" := by decide +kernel
    rw [hbit] at hown
    refine ⟨d, hd, hown fun e he _ => ?_⟩
    rw [List.mem_singleton.mp he, List.mem_singleton.mp hmem]

/-- Where the two parts of the statement need their conditions: a replaced type leaves its alias
behind, and a type without a name is not found. -/
theorem resolve?_ofDescriptors_exceptions :
    (¬ ∀ d, (ofDescriptors [nameOnly "A" ["B"], nameOnly "A" []]).resolve? "B" = some d →
      IsArray "B" ∨ d.Owns (writtenKey "B")) ∧
    ¬ ∀ d ∈ (ofDescriptors [nameOnly "" []]).descriptors,
      ¬ IsArray "" → keyOf d.name = writtenKey "" →
        (ofDescriptors [nameOnly "" []]).resolve? "" = some d := by
  constructor
  · intro h
    have hfound : ((ofDescriptors [nameOnly "A" ["B"], nameOnly "A" []]).resolve? "B").map
        (fun d => (d.name, d.aliases)) = some ("A", []) := by decide +kernel
    obtain ⟨d, hd, heq⟩ := Option.map_eq_some_iff.mp hfound
    obtain ⟨hname, haliases⟩ := Prod.mk.inj heq
    rcases h d hd with harray | hown
    · exact absurd harray (by decide +kernel)
    · rw [Descriptor.Owns, hname, haliases] at hown
      exact absurd hown (by decide +kernel)
  · intro h
    have hnone : ((ofDescriptors [nameOnly "" []]).resolve? "").isNone := by decide +kernel
    rw [h _ (List.mem_singleton_self _) (by decide +kernel) (by decide +kernel)] at hnone
    cases hnone

end Registry
end SqlAudit
