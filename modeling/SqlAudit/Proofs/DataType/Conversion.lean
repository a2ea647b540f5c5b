import Mathlib.Data.List.Find
import SqlAudit.DataType.Catalog
import SqlAudit.Proofs.DataType.NameResolution
import SqlAudit.Proofs.Text.Identifier
import SqlAudit.Report.TypeMigration

/-!
Conversions between types.  The steps from a type to another one are found by a search that is cut
off after one intermediate type.  `Route` says what it should find; in a registry, where names are
those of one type each, it is what is found.
-/

namespace SqlAudit

namespace Descriptor

/-- Some rule of the type gives the name of the other one. -/
def HasRule (d e : Descriptor) : Prop := ∃ rule ∈ d.conversions, sameName rule.2 e.name = true

/-- The one type can be converted to the other one in one step. -/
def Steps (d e : Descriptor) : Prop := d.HasRule e ∨ d.category = e.category

theorem convertsTo_iff {d e : Descriptor} : d.convertsTo e.name = true ↔ d.HasRule e := by
  rw [convertsTo, List.any_eq_true]
  rfl

end Descriptor

namespace Registry

/-! ## The types of a registry -/

section

variable {r : Registry} {ds : List Descriptor}

theorem Holds.eq_of_name (h : Holds r ds) {d e : Descriptor} (hd : d ∈ r.descriptors)
    (he : e ∈ r.descriptors) (hname : d.name = e.name) : d = e := by
  have hd' := h.named?_eq_some_iff.mpr ⟨hd, rfl⟩
  have he' := h.named?_eq_some_iff.mpr ⟨he, rfl⟩
  rw [hname, he', Option.some.injEq] at hd'
  exact hd'.symm

theorem Holds.mem_of_resolve? (h : Holds r ds) {written : String} {d : Descriptor}
    (hd : r.resolve? written = some d) : d ∈ r.descriptors := by
  by_cases harray : IsArray written
  · rw [resolve?_of_isArray r harray] at hd
    exact (h.named?_eq_some_iff.mp hd).1
  · rw [resolve?_of_not_isArray r harray] at hd
    split at hd
    · cases hd
    · rcases Option.or_eq_some_iff.mp hd with hnamed | ⟨-, halias⟩
      · exact (h.named?_eq_some_iff.mp hnamed).1
      · obtain ⟨place, -, hplace⟩ := Option.bind_eq_some_iff.mp halias
        exact List.mem_of_getElem? hplace

/-! ## Paths -/

/-- An intermediate type: it is of the family of `s` and has a rule to `t`. -/
def Bridges (s t m : Descriptor) : Prop := m.category = s.category ∧ m.HasRule t

def FirstBridge (r : Registry) (s t m : Descriptor) : Prop :=
  ∃ before after, r.descriptors = before ++ m :: after ∧ Bridges s t m ∧
    ∀ e ∈ before, ¬ Bridges s t e

/-- The steps from `s` to `t`, as few of them as there can be. -/
inductive Route (r : Registry) (s t : Descriptor) : Option (List String) → Prop where
  | stay : s.name = t.name → Route r s t (some [s.name])
  | step : s.name ≠ t.name → s.Steps t → Route r s t (some [s.name, t.name])
  | bridge {m : Descriptor} : s.name ≠ t.name → ¬ s.Steps t → FirstBridge r s t m →
      Route r s t (some [s.name, m.name, t.name])
  | missing : s.name ≠ t.name → ¬ s.Steps t → (∀ m ∈ r.descriptors, ¬ Bridges s t m) →
      Route r s t none

theorem path?_eq_none_of_resolve? {source target : String}
    (h : r.resolve? source = none ∨ r.resolve? target = none) : r.path? source target = none := by
  unfold path?
  rcases h with h | h
  · rw [h]
  · rw [h]
    cases r.resolve? source <;> rfl

def isBridge (s t m : Descriptor) : Bool := decide (m.category = s.category) && m.convertsTo t.name

theorem isBridge_iff {s t m : Descriptor} : isBridge s t m = true ↔ Bridges s t m := by
  rw [isBridge, Bool.and_eq_true, decide_eq_true_iff, Descriptor.convertsTo_iff]
  rfl

theorem firstBridge_iff {s t m : Descriptor} :
    FirstBridge r s t m ↔ r.descriptors.find? (isBridge s t) = some m := by
  rw [List.find?_eq_some_iff_append, FirstBridge, isBridge_iff]
  simp only [Bool.not_eq_true', ← Bool.not_eq_true, isBridge_iff]
  constructor
  · rintro ⟨before, after, hsplit, hm, hbefore⟩
    exact ⟨hm, before, after, hsplit, hbefore⟩
  · rintro ⟨hm, before, after, hsplit, hbefore⟩
    exact ⟨before, after, hsplit, hm, hbefore⟩

/-- An intermediate type is not the source itself, from which one step would do. -/
theorem Holds.find?_bridge (h : Holds r ds) {s t : Descriptor} (hs : s ∈ r.descriptors)
    (hsteps : ¬ s.Steps t) :
    r.descriptors.find? (fun m =>
        decide (m.category = s.category) && m.name != s.name && m.convertsTo t.name) =
      r.descriptors.find? (isBridge s t) := by
  apply List.find?_congr
  intro m hm
  rw [isBridge]
  by_cases hname : m.name = s.name
  · have hrule : m.convertsTo t.name = false := by
      rw [h.eq_of_name hm hs hname, Bool.eq_false_iff, ne_eq, Descriptor.convertsTo_iff]
      exact fun hrule => hsteps (.inl hrule)
    rw [hrule, Bool.and_false, Bool.and_false]
  · rw [bne_iff_ne.mpr hname, Bool.and_true]

theorem Holds.route_path? (h : Holds r ds) {source target : String} {s t : Descriptor}
    (hs : r.resolve? source = some s) (ht : r.resolve? target = some t) :
    Route r s t (r.path? source target) := by
  rw [path?, hs, ht]
  dsimp only
  by_cases hname : s.name = t.name
  · rw [if_pos hname]
    exact .stay hname
  rw [if_neg hname]
  have hiff : (s.convertsTo t.name || decide (s.category = t.category)) = true ↔ s.Steps t := by
    rw [Bool.or_eq_true, Descriptor.convertsTo_iff, decide_eq_true_iff]
    rfl
  by_cases hsteps : s.Steps t
  · rw [if_pos (hiff.mpr hsteps)]
    exact .step hname hsteps
  rw [if_neg (fun hstep => hsteps (hiff.mp hstep)), h.find?_bridge (h.mem_of_resolve? hs) hsteps]
  cases hfind : r.descriptors.find? (isBridge s t) with
  | none =>
    rw [List.find?_eq_none] at hfind
    exact .missing hname hsteps fun m hm hbridge => hfind m hm (isBridge_iff.mpr hbridge)
  | some m => exact .bridge hname hsteps (firstBridge_iff.mpr hfind)

theorem FirstBridge.eq {s t m m' : Descriptor} (h : FirstBridge r s t m)
    (h' : FirstBridge r s t m') : m = m' := by
  rw [firstBridge_iff] at h h'
  rw [h, Option.some.injEq] at h'
  exact h'

theorem FirstBridge.bridges {s t m : Descriptor} (h : FirstBridge r s t m) : Bridges s t m := by
  obtain ⟨-, -, -, hbridges, -⟩ := h
  exact hbridges

theorem FirstBridge.mem {s t m : Descriptor} (h : FirstBridge r s t m) : m ∈ r.descriptors :=
  List.mem_of_find?_eq_some (firstBridge_iff.mp h)

/-! ## What the path tells -/

namespace Route

variable {s t : Descriptor} {found : Option (List String)}

theorem eq_stay_iff (h : Route r s t found) : found = some [s.name] ↔ s.name = t.name := by
  cases h with
  | stay hname => simp [hname]
  | step hname => simp [hname]
  | bridge hname => simp [hname]
  | missing hname => simp [hname]

theorem eq_step_iff (h : Route r s t found) :
    found = some [s.name, t.name] ↔ s.name ≠ t.name ∧ s.Steps t := by
  cases h with
  | stay hname => simp [hname]
  | step hname hsteps => simp [hname, hsteps]
  | bridge _ hsteps => simp [hsteps]
  | missing _ hsteps => simp [hsteps]

theorem eq_bridge_iff (h : Route r s t found) (mid : String) :
    found = some [s.name, mid, t.name] ↔
      s.name ≠ t.name ∧ ¬ s.Steps t ∧ ∃ m, FirstBridge r s t m ∧ m.name = mid := by
  cases h with
  | stay hname => simp [hname]
  | step _ hsteps => simp [hsteps]
  | @bridge m hname hsteps hm =>
    constructor
    · intro heq
      simp only [Option.some.injEq, List.cons.injEq, true_and, and_true] at heq
      exact ⟨hname, hsteps, m, hm, heq⟩
    · rintro ⟨-, -, m', hm', rfl⟩
      rw [hm.eq hm']
  | missing _ _ hnone =>
    constructor
    · intro heq
      cases heq
    · rintro ⟨-, -, m, hm, -⟩
      exact (hnone m hm.mem hm.bridges).elim

theorem eq_none_iff (h : Route r s t found) :
    found = none ↔ s.name ≠ t.name ∧ ¬ s.Steps t ∧ ∀ m ∈ r.descriptors, ¬ Bridges s t m := by
  cases h with
  | stay hname => simp [hname]
  | step _ hsteps => simp [hsteps]
  | @bridge m hname hsteps hm =>
    constructor
    · intro heq
      cases heq
    · rintro ⟨-, -, hnone⟩
      exact (hnone m hm.mem hm.bridges).elim
  | missing hname hsteps hnone => exact ⟨fun _ => ⟨hname, hsteps, hnone⟩, fun _ => rfl⟩

/-- No type is passed twice: an intermediate one is neither the source nor the target, as either
would be in reach of one step. -/
theorem path (h : Route r s t found) (hr : Holds r ds) (hs : s ∈ r.descriptors)
    (ht : t ∈ r.descriptors) {p : List String} (hp : found = some p) :
    p.head? = some s.name ∧ p.getLast? = some t.name ∧ p.Nodup ∧ p.length ≤ 3 := by
  cases h with
  | stay hname =>
    rw [← Option.some.inj hp]
    simp [hname]
  | step hname =>
    rw [← Option.some.inj hp]
    simp [hname]
  | @bridge m hname hsteps hm =>
    have hbridges := hm.bridges
    have hsource : s.name ≠ m.name := by
      intro heq
      rw [← hr.eq_of_name hs hm.mem heq] at hbridges
      exact hsteps (.inl hbridges.2)
    have htarget : m.name ≠ t.name := by
      intro heq
      rw [hr.eq_of_name hm.mem ht heq] at hbridges
      exact hsteps (.inr hbridges.1.symm)
    rw [← Option.some.inj hp]
    simp [hname, hsource, htarget]
  | missing => cases hp

end Route

end

/-- The path between two names goes from the one type to the other one through at most one more and
comes through none twice.  It is the shortest one: no step between two spellings of one type, one
step where a rule or the family allows it, else two by way of the first type of the family that has
a rule to the target; and without such a type there is none. -/
theorem path?_ofDescriptors (ds : List Descriptor) (source target : String) :
    ((ofDescriptors ds).resolve? source = none ∨ (ofDescriptors ds).resolve? target = none →
      (ofDescriptors ds).path? source target = none) ∧
    ∀ s t, (ofDescriptors ds).resolve? source = some s →
      (ofDescriptors ds).resolve? target = some t →
      (∀ p, (ofDescriptors ds).path? source target = some p →
        p.head? = some s.name ∧ p.getLast? = some t.name ∧ p.Nodup ∧ p.length ≤ 3) ∧
      ((ofDescriptors ds).path? source target = some [s.name] ↔ s.name = t.name) ∧
      ((ofDescriptors ds).path? source target = some [s.name, t.name] ↔
        s.name ≠ t.name ∧ s.Steps t) ∧
      (∀ mid, (ofDescriptors ds).path? source target = some [s.name, mid, t.name] ↔
        s.name ≠ t.name ∧ ¬ s.Steps t ∧ ∃ m, FirstBridge (ofDescriptors ds) s t m ∧ m.name = mid) ∧
      ((ofDescriptors ds).path? source target = none ↔
        s.name ≠ t.name ∧ ¬ s.Steps t ∧ ∀ m ∈ (ofDescriptors ds).descriptors, ¬ Bridges s t m) := by
  have h := Holds.ofDescriptors ds
  generalize ofDescriptors ds = r at h
  refine ⟨path?_eq_none_of_resolve?, fun s t hs ht => ?_⟩
  have hroute := h.route_path? hs ht
  exact ⟨fun p hp => hroute.path h (h.mem_of_resolve? hs) (h.mem_of_resolve? ht) hp,
    hroute.eq_stay_iff, hroute.eq_step_iff, hroute.eq_bridge_iff, hroute.eq_none_iff⟩

deriving instance DecidableEq for Descriptor

def plainType (name : String) (category : TypeCategory) : Descriptor :=
  { name, category, dialects := ["mysql"] }

def ruledType (name : String) (category : TypeCategory) (target : String) : Descriptor :=
  { name, category, conversions := [("mysql", target)] }

/-- Two types of one family have a rule to the target, neither of them the source; the first one is
passed. -/
theorem path?_ofDescriptors_bridged :
    (ofDescriptors [plainType "Jsonb" .jsonXml, ruledType "json" .jsonXml "text",
      ruledType "xml" .jsonXml "text", plainType "Text" .string]).path? " jsonb " "TEXT" =
        some ["Jsonb", "json", "Text"] ∧
    (ofDescriptors [plainType "Text" .string]).path? "text" "jsonb" = none := by
  constructor
  · refine (((path?_ofDescriptors _ " jsonb " "TEXT").2 (plainType "Jsonb" .jsonXml)
      (plainType "Text" .string) (by decide +kernel) (by decide +kernel)).2.2.2.1 "json").mpr
      ⟨by decide, ?_, ruledType "json" .jsonXml "text", ?_, rfl⟩
    · rintro (hrule | hcategory)
      · rw [← Descriptor.convertsTo_iff] at hrule
        exact absurd hrule (by decide)
      · cases hcategory
    · rw [firstBridge_iff]
      decide +kernel
  · exact (path?_ofDescriptors _ "text" "jsonb").1 (.inr (by decide +kernel))

/-! ## Types that can take the place of another one -/

theorem mem_foldl_addNew {found new : List Descriptor} {d : Descriptor}
    (h : d ∈ new.foldl addNew found) : d ∈ found ∨ d ∈ new := by
  induction new generalizing found with
  | nil => exact .inl h
  | cons e rest ih =>
    rw [List.foldl_cons] at h
    rcases ih h with hfound | hrest
    · rw [addNew] at hfound
      split at hfound
      · exact .inl hfound
      · rcases List.mem_append.mp hfound with hfound | he
        · exact .inl hfound
        · rw [List.mem_singleton.mp he]
          exact .inr List.mem_cons_self
    · exact .inr (List.mem_cons_of_mem _ hrest)

theorem normalName?_name (dialect : Dialect) :
    Dialect.normalName? dialect.name = some dialect.name := by
  cases dialect <;> decide

theorem conversionFor?_normalName? {dialect name : String}
    (h : Dialect.normalName? dialect = some name) (d : Descriptor) :
    d.conversionFor? name = d.conversionFor? dialect := by
  obtain ⟨known, -, hname⟩ := Option.map_eq_some_iff.mp h
  rw [Descriptor.conversionFor?, Descriptor.conversionFor?, h, ← hname, normalName?_name]

/-- A compatible type is the source, the target of its rule for the dialect, or of its family. -/
theorem of_mem_compatible {r : Registry} {source dialect : String} {d : Descriptor}
    (h : d ∈ r.compatible source dialect) :
    ∃ s, r.resolve? source = some s ∧ (d = s ∨
      (∃ target, s.conversionFor? dialect = some target ∧ r.resolve? target = some d) ∨
      d ∈ r.descriptors ∧ d.category = s.category) := by
  rw [compatible] at h
  cases hs : r.resolve? source with
  | none =>
    rw [hs] at h
    cases h
  | some s =>
    cases hname : Dialect.normalName? dialect with
    | none =>
      rw [hs, hname] at h
      cases h
    | some name =>
      rw [hs, hname] at h
      refine ⟨s, rfl, ?_⟩
      rcases mem_foldl_addNew h with hnil | hnew
      · cases hnil
      · rcases List.mem_append.mp hnew with hnew | hfamily
        · rcases List.mem_append.mp hnew with hown | htarget
          · left
            split at hown
            · exact List.mem_singleton.mp hown
            · cases hown
          · right
            left
            obtain ⟨target, htarget, hd⟩ :=
              Option.bind_eq_some_iff.mp (Option.mem_toList.mp htarget)
            rw [conversionFor?_normalName? hname] at htarget
            exact ⟨target, htarget, hd⟩
        · right
          right
          obtain ⟨hmem, hd⟩ := List.mem_filter.mp hfamily
          rw [Bool.and_eq_true, beq_iff_eq] at hd
          exact ⟨hmem, hd.1⟩

theorem Holds.mem_of_mem_compatible {r : Registry} {ds : List Descriptor} (h : Holds r ds)
    {source dialect : String} {d : Descriptor} (hd : d ∈ r.compatible source dialect) :
    d ∈ r.descriptors := by
  obtain ⟨s, hs, heq | ⟨target, -, htarget⟩ | ⟨hmem, -⟩⟩ := of_mem_compatible hd
  · rw [heq]
    exact h.mem_of_resolve? hs
  · exact h.mem_of_resolve? htarget
  · exact hmem

/-- The type is found under its name; and a rule of `s` for the dialect that leads to it from
another family gives this name. -/
structure Named (r : Registry) (s : Descriptor) (dialect : String) (d : Descriptor) : Prop where
  own : r.resolve? d.name = some d
  rule : ∀ target, s.conversionFor? dialect = some target → r.resolve? target = some d →
    s.category = d.category ∨ sameName target d.name = true

theorem mem_conversions_of_conversionFor? {d : Descriptor} {dialect target : String}
    (h : d.conversionFor? dialect = some target) : ∃ rule ∈ d.conversions, rule.2 = target := by
  obtain ⟨name, -, hlookup⟩ := Option.bind_eq_some_iff.mp h
  obtain ⟨before, after, hrules, -⟩ := List.lookup_eq_some_iff.mp hlookup
  refine ⟨(name, target), ?_, rfl⟩
  rw [hrules]
  exact List.mem_append_right _ List.mem_cons_self

theorem Holds.path?_of_named {r : Registry} {ds : List Descriptor} (h : Holds r ds)
    {source dialect : String} {s d : Descriptor} (hs : r.resolve? source = some s)
    (hd : d ∈ r.compatible source dialect) (hnamed : Named r s dialect d) :
    r.path? source d.name = some (if d.name = s.name then [s.name] else [s.name, d.name]) := by
  have hroute := h.route_path? hs hnamed.own
  by_cases hname : d.name = s.name
  · rw [if_pos hname]
    exact hroute.eq_stay_iff.mpr hname.symm
  · rw [if_neg hname]
    refine hroute.eq_step_iff.mpr ⟨fun heq => hname heq.symm, ?_⟩
    obtain ⟨s', hs', hcases⟩ := of_mem_compatible hd
    rw [hs, Option.some.injEq] at hs'
    rw [← hs'] at hcases
    rcases hcases with heq | ⟨target, hrule, htarget⟩ | ⟨-, hcategory⟩
    · rw [heq] at hname
      exact absurd rfl hname
    · rcases hnamed.rule target hrule htarget with hcategory | hsame
      · exact .inr hcategory
      · obtain ⟨rule, hmem, hrule⟩ := mem_conversions_of_conversionFor? hrule
        rw [← hrule] at hsame
        exact .inl ⟨rule, hmem, hsame⟩
    · exact .inr hcategory.symm

/-- The first candidate of a migration is a type that can take the place of the column's one. -/
theorem exists_compatible_of_migration {r : Registry} {dialect : Dialect} {table : Table}
    {column : Column} {e : Descriptor} {m : TypeMigration} {first : String}
    (he : r.resolve? column.type = some e)
    (hm : TypeMigration.ofColumn? r dialect table column = some m)
    (hfirst : m.candidates.head? = some first) :
    ∃ s d, r.resolve? e.name = some s ∧ d ∈ r.compatible e.name dialect.name ∧ d.name = first ∧
      m.path = r.path? e.name d.name := by
  rw [TypeMigration.ofColumn?, he, Option.filter_some] at hm
  split at hm
  · rw [Option.map_some, Option.some.injEq] at hm
    subst hm
    dsimp only at hfirst ⊢
    rw [List.head?_map, Option.map_eq_some_iff] at hfirst
    obtain ⟨d, hd, hname⟩ := hfirst
    have hmem := List.mem_of_head? hd
    obtain ⟨s, hs, -⟩ := of_mem_compatible hmem
    refine ⟨s, d, hs, hmem, hname, ?_⟩
    rw [List.head?_map, hd]
    rfl
  · cases hm

/-- A type that can take the place of another one, and is found by its name, is reached in one step,
or in none if it is the type itself.  So a migration to such a type has its path. -/
theorem path?_of_mem_compatible (ds : List Descriptor) :
    (∀ source dialect s d, (ofDescriptors ds).resolve? source = some s →
      d ∈ (ofDescriptors ds).compatible source dialect → Named (ofDescriptors ds) s dialect d →
      (d = s → (ofDescriptors ds).path? source d.name = some [s.name]) ∧
      (d ≠ s → (ofDescriptors ds).path? source d.name = some [s.name, d.name])) ∧
    ∀ dialect table column e m first, (ofDescriptors ds).resolve? column.type = some e →
      TypeMigration.ofColumn? (ofDescriptors ds) dialect table column = some m →
      m.candidates.head? = some first →
      ∃ s d, (ofDescriptors ds).resolve? e.name = some s ∧
        d ∈ (ofDescriptors ds).compatible e.name dialect.name ∧ d.name = first ∧
        (Named (ofDescriptors ds) s dialect.name d →
          m.path = some (if d.name = s.name then [s.name] else [s.name, d.name])) := by
  have h := Holds.ofDescriptors ds
  generalize ofDescriptors ds = r at h
  constructor
  · intro source dialect s d hs hd hnamed
    have hpath := h.path?_of_named hs hd hnamed
    constructor
    · intro heq
      rwa [if_pos (congrArg Descriptor.name heq)] at hpath
    · intro hne
      rwa [if_neg fun hname =>
        hne (h.eq_of_name (h.mem_of_resolve? hnamed.own) (h.mem_of_resolve? hs) hname)] at hpath
  · intro dialect table column e m first he hm hfirst
    obtain ⟨s, d, hs, hd, hname, hpath⟩ := exists_compatible_of_migration he hm hfirst
    refine ⟨s, d, hs, hd, hname, fun hnamed => ?_⟩
    rw [hpath, h.path?_of_named hs hd hnamed]

/-- A rule that gives the name of its target, in other letters. -/
def ruledByName : List Descriptor :=
  [ruledType "UUID" .uuid "char", plainType "CHAR" .string]

/-- A rule that gives an alias of its target. -/
def ruledByAlias : List Descriptor :=
  [ruledType "UUID" .uuid "CHARACTER",
    { plainType "CHAR" .string with aliases := ["CHARACTER"] }]

/-- A name with an argument, which a look-up passes over. -/
def namedWithArgument : List Descriptor :=
  [plainType "UUID" .string, plainType "CHAR(36)" .string]

def sourceColumn : Column := { name := "a", type := "UUID" }

theorem path?_of_mem_compatible_ruled :
    (ofDescriptors ruledByName).path? "uuid" "CHAR" = some ["UUID", "CHAR"] ∧
    ∃ m, TypeMigration.ofColumn? (ofDescriptors ruledByName) .mysql { name := "t", line := 1 }
        sourceColumn = some m ∧ m.path = some ["UUID", "CHAR"] := by
  have hnamed : ∀ dialect, (ruledType "UUID" .uuid "char").conversionFor? dialect = some "char" →
      Named (ofDescriptors ruledByName) (ruledType "UUID" .uuid "char") dialect
        (plainType "CHAR" .string) := by
    intro dialect hrule
    refine ⟨by decide +kernel, fun target htarget _ => ?_⟩
    rw [hrule, Option.some.injEq] at htarget
    rw [← htarget]
    exact .inr (by decide)
  have huuid : (ofDescriptors ruledByName).resolve? "UUID" =
      some (ruledType "UUID" .uuid "char") := by decide +kernel
  constructor
  · exact ((path?_of_mem_compatible ruledByName).1 "uuid" "MariaDB" (ruledType "UUID" .uuid "char")
      (plainType "CHAR" .string) (by decide +kernel) (by decide +kernel)
      (hnamed "MariaDB" (by decide +kernel))).2 (by decide)
  · have hmigrates : (TypeMigration.ofColumn? (ofDescriptors ruledByName) .mysql
        { name := "t", line := 1 } sourceColumn).bind (·.candidates.head?) = some "CHAR" := by
      decide +kernel
    obtain ⟨m, hm, hfirst⟩ := Option.bind_eq_some_iff.mp hmigrates
    obtain ⟨s, d, hs, hd, -, hpath⟩ := (path?_of_mem_compatible ruledByName).2 .mysql _
      sourceColumn (ruledType "UUID" .uuid "char") m "CHAR" huuid hm hfirst
    have hsource := hs.symm.trans huuid
    rw [Option.some.injEq] at hsource
    have hcompatible : (ofDescriptors ruledByName).compatible "UUID" "mysql" =
        [plainType "CHAR" .string] := by decide +kernel
    have htarget := List.mem_singleton.mp (hcompatible ▸ hd)
    rw [hsource, htarget] at hpath
    exact ⟨m, hm, hpath (hnamed _ (by decide +kernel))⟩

/-- Where the conditions are needed. -/
theorem path?_of_mem_compatible_exceptions :
    (¬ ∀ s d, (ofDescriptors namedWithArgument).resolve? "UUID" = some s →
      d ∈ (ofDescriptors namedWithArgument).compatible "UUID" "mysql" → d ≠ s →
      (ofDescriptors namedWithArgument).path? "UUID" d.name = some [s.name, d.name]) ∧
    ¬ ∀ s d, (ofDescriptors ruledByAlias).resolve? "UUID" = some s →
      d ∈ (ofDescriptors ruledByAlias).compatible "UUID" "mysql" → d ≠ s →
      (ofDescriptors ruledByAlias).path? "UUID" d.name = some [s.name, d.name] := by
  constructor
  · intro h
    have hpath := h (plainType "UUID" .string) (plainType "CHAR(36)" .string) (by decide +kernel)
      (by decide +kernel) (by decide)
    exact absurd hpath (by decide +kernel)
  · intro h
    have hpath := h (ruledType "UUID" .uuid "CHARACTER")
      { plainType "CHAR" .string with aliases := ["CHARACTER"] } (by decide +kernel)
      (by decide +kernel) (by decide)
    exact absurd hpath (by decide +kernel)

/-! ## Types in their canonical form -/

/-- Names are their own keys, and rules give names. -/
structure Canonical (ds : List Descriptor) : Prop where
  names : ∀ d ∈ ds, ¬ IsArray d.name ∧ d.name ≠ "" ∧ writtenKey d.name = d.name ∧
    keyOf d.name = d.name
  rules : ∀ d ∈ ds, ∀ rule ∈ d.conversions, rule.2 ∈ ds.map Descriptor.name

/-- A key that is registered stays. -/
theorem mem_keys_register {r : Registry} (h : (keys r.types).Nodup) (d : Descriptor) :
    keyOf d.name ∈ keys (r.register d).types ∧
      ∀ key ∈ keys r.types, key ∈ keys (r.register d).types := by
  obtain ⟨-, -, hkept, hplaced⟩ := put_spec h d
  rw [register_eq, types_foldl_addAlias]
  refine ⟨List.mem_of_getElem? hplaced, fun key hkey => ?_⟩
  obtain ⟨place, hplace⟩ := List.mem_iff_getElem?.mp hkey
  exact List.mem_of_getElem? (hkept place key hplace)

theorem mem_keys_foldl_register {r : Registry} {ds : List Descriptor} (h : Holds r ds)
    (more : List Descriptor) :
    (∀ key ∈ keys r.types, key ∈ keys (more.foldl register r).types) ∧
      ∀ d ∈ more, keyOf d.name ∈ keys (more.foldl register r).types := by
  induction more generalizing r ds with
  | nil => exact ⟨fun _ hkey => hkey, fun d hd => absurd hd List.not_mem_nil⟩
  | cons d rest ih =>
    obtain ⟨hnew, hold⟩ := mem_keys_register h.nodup d
    obtain ⟨hkept, hrest⟩ := ih (h.register d)
    refine ⟨fun key hkey => hkept key (hold key hkey), fun e he => ?_⟩
    rcases List.mem_cons.mp he with he | he
    · rw [he]
      exact hkept _ hnew
    · exact hrest e he

theorem Canonical.resolve?_name {ds : List Descriptor} (hds : Canonical ds) {name : String}
    (hname : name ∈ ds.map Descriptor.name) :
    ∃ e, (ofDescriptors ds).resolve? name = some e ∧ e.name = name := by
  have h := Holds.ofDescriptors ds
  obtain ⟨d, hd, hdname⟩ := List.mem_map.mp hname
  obtain ⟨harray, hempty, hwritten, hkey⟩ := hds.names d hd
  rw [hdname] at harray hempty hwritten hkey
  have hmem : name ∈ keys (ofDescriptors ds).types := by
    have hfold := (mem_keys_foldl_register .empty ds).2 d hd
    rwa [hdname, hkey] at hfold
  obtain ⟨entry, hentry, hentrykey⟩ := List.mem_map.mp hmem
  obtain ⟨hown, hin⟩ := h.entries entry hentry
  have hentryname : entry.2.name = name := by
    rw [← (hds.names entry.2 hin).2.2.2, ← hown, hentrykey]
  have hnamed : (ofDescriptors ds).named? name = some entry.2 := by
    rw [h.named?_eq_some_iff]
    exact ⟨List.mem_map_of_mem hentry, by rw [hentryname, hkey]⟩
  refine ⟨entry.2, ?_, hentryname⟩
  rw [resolve?_of_not_isArray _ harray, hwritten, if_neg hempty, hnamed, Option.some_or]

theorem Canonical.named {ds : List Descriptor} (hds : Canonical ds) {s d : Descriptor}
    (hs : s ∈ (ofDescriptors ds).descriptors) (hd : d ∈ (ofDescriptors ds).descriptors)
    (dialect : String) : Named (ofDescriptors ds) s dialect d := by
  have h := Holds.ofDescriptors ds
  have hin : ∀ e ∈ (ofDescriptors ds).descriptors, e ∈ ds := by
    intro e he
    obtain ⟨entry, hentry, hentryeq⟩ := List.mem_map.mp he
    rw [← hentryeq]
    exact (h.entries entry hentry).2
  constructor
  · obtain ⟨e, he, hname⟩ := hds.resolve?_name (List.mem_map_of_mem (hin d hd))
    rw [he, h.eq_of_name (h.mem_of_resolve? he) hd hname]
  · intro target htarget hresolve
    right
    obtain ⟨rule, hmem, hrule⟩ := mem_conversions_of_conversionFor? htarget
    have hname := hds.rules s (hin s hs) rule hmem
    rw [hrule] at hname
    obtain ⟨e, he, hename⟩ := hds.resolve?_name hname
    rw [he, Option.some.injEq] at hresolve
    rw [← hresolve, hename]
    exact sameName_refl target

theorem canonical_builtin : Canonical Catalog.descriptors :=
  ⟨by decide +kernel, by decide +kernel⟩

/-- Every built-in type that can take the place of another one is reached in one step. -/
theorem path?_builtin {source dialect : String} {s d : Descriptor}
    (hs : Catalog.registry.resolve? source = some s)
    (hd : d ∈ Catalog.registry.compatible source dialect) :
    Catalog.registry.path? source d.name =
      some (if d.name = s.name then [s.name] else [s.name, d.name]) := by
  have h := Holds.ofDescriptors Catalog.descriptors
  exact h.path?_of_named hs hd
    (canonical_builtin.named (h.mem_of_resolve? hs) (h.mem_of_mem_compatible hd) dialect)

end Registry
end SqlAudit
