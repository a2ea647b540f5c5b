import SqlAudit.Proofs.Schema.ColumnReading

/-!
Columns with modifiers in any order and any default value.  Modifiers are looked for with literals
blanked, so a default value could as well be blank wherever it has no quote: it decides where the
other modifiers stand, but not what they say.
-/

namespace SqlAudit
namespace Declaration

open Text Pattern

/-- A modifier whose default value may be any text. -/
inductive FreeModifier where
  | fixed (m : Modifier) (other : m.default? = none)
  | default (value : Text)

namespace FreeModifier

def print : FreeModifier → Text
  | .fixed m _ => m.print
  | .default value => joined ["DEFAULT"] ++ ' ' :: quoted value

def default? : FreeModifier → Option String
  | .fixed _ _ => none
  | .default value => some (String.ofList value)

def printAll (ms : List FreeModifier) : Text := ms.flatMap fun m => ' ' :: m.print

theorem printAll_cons (m : FreeModifier) (ms : List FreeModifier) :
    printAll (m :: ms) = ' ' :: (m.print ++ printAll ms) := rfl

theorem printAll_append (front back : List FreeModifier) :
    printAll (front ++ back) = printAll front ++ printAll back := List.flatMap_append

/-! ## Outlines -/

/-- A value of which the quotes are left, and blanks for everything else. -/
def outlined (value : Text) : Text := value.flatMap fun c => if c = '\x27' then [c] else blanks c

theorem eq_of_mem_outlined {value : Text} {c : Char} (h : c ∈ outlined value) :
    c = '\x27' ∨ c = ' ' := by
  obtain ⟨d, -, hc⟩ := List.mem_flatMap.mp h
  by_cases hd : d = '\x27'
  · rw [if_pos hd] at hc
    exact .inl ((List.mem_singleton.mp hc).trans hd)
  · rw [if_neg hd] at hc
    exact .inr (List.eq_of_mem_replicate hc)

theorem blanked_replicate (n : Nat) : blanked (List.replicate n ' ') = List.replicate n ' ' := by
  induction n with
  | zero => rfl
  | succ n ih =>
    rw [List.replicate_succ, blanked, List.flatMap_cons, ← blanked, ih]
    rfl

theorem blanked_outlined (value : Text) : blanked (outlined value) = blanked value := by
  induction value with
  | nil => rfl
  | cons c rest ih =>
    have happend : ∀ a b : Text, blanked (a ++ b) = blanked a ++ blanked b :=
      fun a b => List.flatMap_append
    have hcons : ∀ t : Text, blanked (c :: t) = (if c = '\x27' then [c, c] else blanks c) ++
      blanked t := fun t => List.flatMap_cons
    rw [outlined, List.flatMap_cons, ← outlined, happend, ih, hcons]
    by_cases hc : c = '\x27'
    · rw [if_pos hc, if_pos hc, hc]
      rfl
    · rw [if_neg hc, if_neg hc, blanks, blanked_replicate]

theorem not_create_outlined (value : Text) :
    ¬ "create".toList <:+: (outlined value).map Char.toLower := by
  intro h
  have hmem : 'c' ∈ (outlined value).map Char.toLower := h.subset (by decide)
  obtain ⟨d, hd, hlower⟩ := List.mem_map.mp hmem
  rcases eq_of_mem_outlined hd with rfl | rfl
  · exact absurd hlower (by decide)
  · exact absurd hlower (by decide)

/-- The modifier as a search for modifiers sees it. -/
def outline : FreeModifier → Modifier
  | .fixed m _ => m
  | .default value => .default ⟨outlined value, not_create_outlined value⟩

/-! ## Reading -/

theorem tidy_print (m : FreeModifier) : Tidy false m.print := by
  cases m with
  | fixed m other => exact (tidy_joined m.isPhraseWord_of_mem_words).append m.tidy_operand
  | default value =>
    have hliteral : Tidy false (quoted value ++ []) := .literal value .nil
    rw [List.append_nil] at hliteral
    exact (tidy_joined (by decide)).append (tidy_cons_space hliteral)

theorem tidy_printAll (ms : List FreeModifier) : Tidy false (printAll ms) := by
  induction ms with
  | nil => exact .nil
  | cons m ms ih => exact tidy_cons_space (m.tidy_print.append ih)

theorem maskFrom_print (m : FreeModifier) (t : Text) :
    maskFrom .standard .outside (m.print ++ t) =
      m.outline.masked ++ maskFrom .standard .outside t := by
  have hwords : ∀ (x : Modifier) (rest : Text),
      maskFrom .standard .outside (joined x.words ++ rest) =
        joined x.words ++ maskFrom .standard .outside rest :=
    fun x rest => maskFrom_append_of_not_mem x.quote_not_mem_joined_words rest
  cases m with
  | fixed m other =>
    rw [print, outline, Modifier.print, Modifier.masked, List.append_assoc, hwords,
      m.maskFrom_operand, List.append_assoc]
  | default value =>
    have hdefault := hwords (outline (.default value)) (' ' :: (quoted value ++ t))
    rw [maskFrom, if_neg (by decide), maskFrom_quoted, ← blanked_outlined] at hdefault
    rw [print, List.append_assoc, Modifier.masked, List.append_assoc]
    exact hdefault.trans (by simp [outline, Modifier.maskedOperand])

theorem mask_printAll (ms : List FreeModifier) :
    mask (printAll ms) = Modifier.maskedAll (ms.map outline) := by
  rw [mask, (tidy_printAll ms).escapes_eq]
  induction ms with
  | nil => rfl
  | cons m ms ih =>
    rw [printAll_cons, maskFrom, if_neg (by decide), maskFrom_print, ih, List.map_cons,
      Modifier.maskedAll_cons]

theorem default?_outline {ms : List FreeModifier} (h : ∀ m ∈ ms, m.default? = none) :
    ∀ m ∈ ms.map outline, m.default? = none := by
  rw [List.forall_mem_map]
  intro m hm
  have hdefault := h m hm
  cases m with
  | fixed m other => exact other
  | default value => cases hdefault

/-- The value of the first default is read as it is, whatever it says. -/
theorem find?_defaultPattern_printAll (ms : List FreeModifier) :
    ((Column.defaultPattern.find? (mask (printAll ms))).bind fun m =>
      (Column.defaultValue? ((printAll ms).dropBytes m.stop.offset)).map String.ofList) =
      ms.findSome? default? := by
  rw [mask_printAll]
  cases hfind : ms.findSome? default? with
  | none =>
    rw [Modifier.find?_defaultPattern_eq_none
      (default?_outline (List.findSome?_eq_none_iff.mp hfind))]
    rfl
  | some literal =>
    obtain ⟨front, m, back, rfl, hm, hfront⟩ := List.findSome?_eq_some_iff.mp hfind
    cases m with
    | fixed m other => cases hm
    | default value =>
      cases hm
      have hprint : printAll (front ++ default value :: back) =
          printAll front ++ ' ' :: ("DEFAULT".toList ++ [' ']) ++ (quoted value ++ printAll back) := by
        rw [printAll_append, printAll_cons, print, joined_singleton]
        simp
      have hsize : size (printAll front) = size (Modifier.maskedAll (front.map outline)) := by
        rw [← mask_printAll, size_mask]
      have hback : Stops (· == '\x27') (printAll back) := by
        cases back with
        | nil => exact stops_nil _
        | cons m back => exact stops_of_head rfl
      rw [List.map_append, hprint]
      exact Modifier.find?_defaultPattern_append (default?_outline hfront) _ hsize hback value

/-- Only the default depends on more than the outlines. -/
theorem withModifiers_printAll (column : Column) (ms : List FreeModifier) :
    column.withModifiers (printAll ms) =
      { column with
        nullable := column.nullable && !(ms.map outline).any Modifier.isNotNull &&
          !(ms.map outline).any Modifier.isPrimaryKey
        isPrimaryKey := (ms.map outline).any Modifier.isPrimaryKey
        isUnique := (ms.map outline).any Modifier.isUnique
        isAutoIncrement := column.isAutoIncrement || (ms.map outline).any Modifier.isCounting
        default := ms.findSome? default?
        reference := (ms.map outline).findSome? Modifier.reference? } := by
  rw [Column.withModifiers, find?_defaultPattern_printAll, mask_printAll]
  simp only [Modifier.occursIn_notNullPattern, Modifier.occursIn_primaryKeyPattern,
    Modifier.occursIn_uniquePattern, Modifier.occursIn_autoIncrementPattern,
    Modifier.find?_referencesPattern]

theorem startsModifiers_printAll (ms : List FreeModifier) : StartsModifiers (printAll ms) := by
  cases ms with
  | nil => exact .inl rfl
  | cons m ms =>
    cases m with
    | fixed m other => exact m.startsModifiers_print (printAll ms)
    | default value =>
      refine .inr ⟨"DEFAULT", by decide, ' ' :: (quoted value ++ printAll ms), ?_⟩
      rw [printAll_cons, print, joined_singleton, List.append_assoc, List.cons_append]

theorem stops_reverse_printAll (ms : List FreeModifier) : Stops isBlank (printAll ms).reverse := by
  induction ms with
  | nil => exact stops_nil _
  | cons m ms ih =>
    have hprint : m.print ≠ [] ∧ Stops isBlank m.print.reverse := by
      cases m with
      | fixed m other =>
        obtain ⟨s, hs, tail, hwords⟩ := m.exists_joined_words_eq
        have hne := (of_isPhraseWord (Modifier.isPhraseWord_of_mem_firstWords hs)).1
        exact ⟨by simp [print, Modifier.print, hwords, hne], m.stops_reverse_print⟩
      | default value =>
        refine ⟨by simp [print], ?_⟩
        simp [print, quoted]
        decide
    exact stops_reverse_cons (by simp [hprint.1]) (stops_reverse_append hprint.2 ih)

end FreeModifier

/-! ## Columns -/

/-- What the definition of a column says: a name, a type and each modifier at most once. -/
structure ColumnSpec where
  name : NameBesides constraintWords
  type : String
  known : type ∈ typeNames
  arguments : Arguments
  notNull : Bool
  unique : Bool
  primaryKey : Bool
  counting : Option Counting
  default : Option Text
  reference : Option (NameBesides modifierWords × Option (NameBesides modifierWords))

namespace ColumnSpec

variable (spec : ColumnSpec)

def modifiers : List FreeModifier :=
  (if spec.notNull then [.fixed .notNull rfl] else []) ++
  (if spec.unique then [.fixed .unique rfl] else []) ++
  (if spec.primaryKey then [.fixed .primaryKey rfl] else []) ++
  spec.counting.toList.map (fun spelling => .fixed (.counting spelling) rfl) ++
  spec.default.toList.map .default ++
  spec.reference.toList.map fun reference => .fixed (.references reference.1 reference.2) rfl

/-- The definition with its modifiers in some order. -/
def print (order : List FreeModifier) : Text :=
  spec.name.text ++ ' ' :: (spec.type.toList ++ (spec.arguments.print ++
    FreeModifier.printAll order))

def column : Column :=
  { spec.arguments.apply { name := spec.name.name, type := spec.type } with
    nullable := !(spec.notNull || spec.primaryKey)
    isPrimaryKey := spec.primaryKey
    isUnique := spec.unique
    isAutoIncrement := spec.type ∈ Column.serialTypes || spec.counting.isSome
    default := spec.default.map String.ofList
    reference := spec.reference.map fun reference =>
      ⟨reference.1.name, reference.2.map (·.name)⟩ }

theorem any_modifiers (f : Modifier → Bool) :
    (spec.modifiers.map FreeModifier.outline).any f =
      (spec.notNull && f .notNull || spec.unique && f .unique || spec.primaryKey && f .primaryKey ||
        spec.counting.any (fun spelling => f (.counting spelling)) ||
        spec.default.any (fun value => f (FreeModifier.outline (.default value))) ||
        spec.reference.any fun reference => f (.references reference.1 reference.2)) := by
  have hflag : ∀ (b : Bool) (m : FreeModifier),
      ((if b then [m] else []).map FreeModifier.outline).any f = (b && f m.outline) := by
    intro b m
    cases b <;> simp
  have hoption : ∀ {α : Type} (o : Option α) (g : α → FreeModifier),
      ((o.toList.map g).map FreeModifier.outline).any f = o.any fun a => f (g a).outline := by
    intro α o g
    cases o <;> simp
  simp only [modifiers, List.map_append, List.any_append, hflag, hoption]
  rfl

theorem any_isNotNull :
    (spec.modifiers.map FreeModifier.outline).any Modifier.isNotNull = spec.notNull := by
  rw [any_modifiers]
  simp [Modifier.isNotNull, FreeModifier.outline]

theorem any_isUnique :
    (spec.modifiers.map FreeModifier.outline).any Modifier.isUnique = spec.unique := by
  rw [any_modifiers]
  simp [Modifier.isUnique, FreeModifier.outline]

theorem any_isPrimaryKey :
    (spec.modifiers.map FreeModifier.outline).any Modifier.isPrimaryKey = spec.primaryKey := by
  rw [any_modifiers]
  simp [Modifier.isPrimaryKey, FreeModifier.outline]

theorem any_isCounting :
    (spec.modifiers.map FreeModifier.outline).any Modifier.isCounting = spec.counting.isSome := by
  rw [any_modifiers]
  simp [Modifier.isCounting, FreeModifier.outline]

theorem filterMap_modifiers {β : Type} (f : FreeModifier → Option β) :
    spec.modifiers.filterMap f =
      (if spec.notNull then (f (.fixed .notNull rfl)).toList else []) ++
      (if spec.unique then (f (.fixed .unique rfl)).toList else []) ++
      (if spec.primaryKey then (f (.fixed .primaryKey rfl)).toList else []) ++
      (spec.counting.bind fun spelling => f (.fixed (.counting spelling) rfl)).toList ++
      (spec.default.bind fun value => f (.default value)).toList ++
      (spec.reference.bind fun reference =>
        f (.fixed (.references reference.1 reference.2) rfl)).toList := by
  have hflag : ∀ (b : Bool) (m : FreeModifier),
      (if b then [m] else []).filterMap f = if b then (f m).toList else [] := by
    intro b m
    cases b with
    | false => rfl
    | true => cases h : f m <;> simp [h]
  have hoption : ∀ {α : Type} (o : Option α) (g : α → FreeModifier),
      (o.toList.map g).filterMap f = (o.bind fun a => f (g a)).toList := by
    intro α o g
    cases o with
    | none => rfl
    | some a => cases h : f (g a) <;> simp [h]
  simp only [modifiers, List.filterMap_append, hflag, hoption]

/-- In whatever order, what only one modifier says is said. -/
theorem findSome?_eq_of_perm {β : Type} {f : FreeModifier → Option β} {o : Option β}
    (h : spec.modifiers.filterMap f = o.toList) {order : List FreeModifier}
    (horder : order.Perm spec.modifiers) : order.findSome? f = o := by
  have hperm := horder.filterMap f
  rw [h] at hperm
  rw [← List.head?_filterMap]
  cases o with
  | none => rw [List.perm_nil.mp hperm]; rfl
  | some a => rw [List.perm_singleton.mp hperm]; rfl

theorem parse_print {order : List FreeModifier} (horder : order.Perm spec.modifiers) :
    Column.parse (spec.print order) = .ok spec.column := by
  have hany : ∀ f, (order.map FreeModifier.outline).any f =
      (spec.modifiers.map FreeModifier.outline).any f :=
    fun f => (horder.map FreeModifier.outline).any_eq
  have hdefault : order.findSome? FreeModifier.default? = spec.default.map String.ofList := by
    apply spec.findSome?_eq_of_perm _ horder
    rw [filterMap_modifiers]
    cases spec.default <;> simp [FreeModifier.default?]
  have hreference : (order.map FreeModifier.outline).findSome? Modifier.reference? =
      spec.reference.map fun reference => ⟨reference.1.name, reference.2.map (·.name)⟩ := by
    rw [List.findSome?_map]
    apply spec.findSome?_eq_of_perm _ horder
    rw [filterMap_modifiers]
    cases spec.reference <;> simp [FreeModifier.outline, Modifier.reference?]
  rw [print, parse_column spec.name spec.known spec.arguments
    (FreeModifier.startsModifiers_printAll order) (FreeModifier.stops_reverse_printAll order),
    FreeModifier.withModifiers_printAll, hdefault, hreference, hany, hany, hany, hany, any_isNotNull,
    any_isUnique, any_isPrimaryKey, any_isCounting]
  simp [column, Arguments.nullable_apply]

/-- A column is read as it is written, in whatever order its modifiers stand, and its default value
changes nothing but the default. -/
theorem parse_print_perm {order : List FreeModifier} (horder : order.Perm spec.modifiers) :
    Column.parse (spec.print order) = .ok spec.column ∧
    (∀ other : List FreeModifier, other.Perm spec.modifiers →
      Column.parse (spec.print other) = Column.parse (spec.print order)) ∧
    ∀ (value : Text) (other : List FreeModifier),
      other.Perm { spec with default := some value }.modifiers →
      Column.parse ({ spec with default := some value }.print other) =
        .ok { spec.column with default := some (String.ofList value) } := by
  refine ⟨spec.parse_print horder, fun other hother => ?_, fun value other hother => ?_⟩
  · rw [spec.parse_print hother, spec.parse_print horder]
  · exact parse_print { spec with default := some value } hother

/-- A column whose default value reads like modifiers. -/
def misleading : ColumnSpec where
  name := ⟨⟨"key".toList, rfl⟩, by decide⟩
  type := "DECIMAL"
  known := by decide
  arguments := .two 10 2
  notNull := true
  unique := false
  primaryKey := false
  counting := none
  default := some "it's UNIQUE".toList
  reference := some (⟨⟨"t".toList, rfl⟩, by decide⟩, some ⟨⟨"id".toList, rfl⟩, by decide⟩)

theorem parse_misleading_reversed :
    misleading.print misleading.modifiers.reverse =
      "key DECIMAL(10, 2) REFERENCES t(id) DEFAULT 'it''s UNIQUE' NOT NULL".toList ∧
    Column.parse (misleading.print misleading.modifiers.reverse) =
      .ok { name := "key", type := "DECIMAL", precision := some (10, 2), nullable := false
            default := some "it's UNIQUE", reference := some ⟨"t", some "id"⟩ } :=
  ⟨by decide +kernel, (misleading.parse_print_perm (List.reverse_perm _)).1⟩

end ColumnSpec
end Declaration
end SqlAudit
