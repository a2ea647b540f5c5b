import SqlAudit.Proofs.Schema.TypeReading
import SqlAudit.Proofs.Text.Numeral

/-!
The numbers after a type are read as they are written.
-/

namespace SqlAudit

open Text Pattern Declaration

namespace Declaration
namespace Arguments

/-! ## Numbers -/

theorem isDigit_of_mem_digits {n : UInt32} {c : Char} (h : c ∈ digits n) : c.isDigit = true :=
  Nat.isDigit_of_mem_toDigits (by decide) (by decide) h

theorem isIdentifierChar_of_mem_digits {n : UInt32} {c : Char} (h : c ∈ digits n) :
    isIdentifierChar c = true :=
  isIdentifierChar_of_mem_toDigits h

theorem digits_ne_nil (n : UInt32) : digits n ≠ [] := Nat.toDigits_ne_nil

theorem trimmed_digits (n : UInt32) : Trimmed (digits n) := by
  have hblank : ∀ c ∈ digits n, isBlank c = false :=
    fun c hc => isBlank_eq_false_of_isIdentifierChar (isIdentifierChar_of_mem_digits hc)
  refine ⟨?_, ?_⟩
  · obtain ⟨c, rest, hcons⟩ := List.exists_cons_of_ne_nil (digits_ne_nil n)
    exact ⟨c, rest, hcons, hblank c (by rw [hcons]; exact List.mem_cons_self)⟩
  · have hlast := List.dropLast_concat_getLast (digits_ne_nil n)
    exact ⟨_, _, hlast.symm, hblank _ (List.getLast_mem _)⟩

theorem unsigned?_digits (n : UInt32) : unsigned? 4294967295 (digits n) = some n.toNat := by
  have hvalue : decimal? (digits n) = some n.toNat := by
    rw [decimal?, if_neg (by simpa using digits_ne_nil n),
      readDigits_of_isDigit (fun c hc => isDigit_of_mem_digits hc)]
    exact congrArg some Nat.ofDigitChars_ten_toDigits
  have hbound : n.toNat ≤ 4294967295 := Nat.le_of_lt_succ n.toNat_lt
  have hsign : ∀ rest, digits n ≠ '+' :: rest := by
    intro rest h
    have hplus : '+' ∈ digits n := by
      rw [h]
      exact List.mem_cons_self
    exact absurd (isDigit_of_mem_digits hplus) (by decide)
  rw [unsigned?, hvalue, Option.filter_some, if_pos (by simpa using hbound)]
  exact hsign

theorem pieces_digits (n : UInt32) : pieces (· == ',') (digits n) = [digits n] := by
  apply pieces_of_forall
  intro c hc
  simpa using ne_of_isIdentifierChar (d := ',') (isIdentifierChar_of_mem_digits hc) (by decide)

/-! ## Arguments -/

def inner : Arguments → Text
  | .none => []
  | .one n => digits n
  | .two precision scale => digits precision ++ ',' :: ' ' :: digits scale

def numbers : Arguments → List UInt32
  | .none => []
  | .one n => [n]
  | .two precision scale => [precision, scale]

theorem map_trim_pieces_inner {arguments : Arguments} (h : arguments ≠ .none) :
    (pieces (· == ',') arguments.inner).map trim = arguments.numbers.map digits := by
  cases arguments with
  | none => exact absurd rfl h
  | one n => rw [inner, pieces_digits, List.map_singleton, (trimmed_digits n).trim_eq]; rfl
  | two precision scale =>
    have hspace : pieces (· == ',') (' ' :: digits scale) = [' ' :: digits scale] := by
      rw [pieces, if_neg (by decide), pieces_digits]
      rfl
    have htrim : trim (' ' :: digits scale) = digits scale := by
      have hstart : trimStart (' ' :: digits scale) = trimStart (digits scale) := by
        rw [trimStart_cons, if_pos (by decide)]
      rw [trim, hstart]
      exact (trimmed_digits scale).trim_eq
    rw [inner, pieces_append_stop (by decide), pieces_digits, hspace, List.map_append,
      List.map_singleton, List.map_singleton, (trimmed_digits precision).trim_eq, htrim]
    rfl

theorem withArguments_inner (column : Column) {arguments : Arguments} (h : arguments ≠ .none) :
    column.withArguments arguments.inner = arguments.apply column := by
  have hnumbers : ((pieces (· == ',') arguments.inner).map fun item =>
      unsigned? 4294967295 (trim item)) = arguments.numbers.map fun n => some n.toNat := by
    have hmap := congrArg (List.map (unsigned? 4294967295)) (map_trim_pieces_inner h)
    simpa [Function.comp_def, unsigned?_digits] using hmap
  rw [Column.withArguments, hnumbers]
  cases arguments with
  | none => exact absurd rfl h
  | one n => simp [numbers, apply]
  | two precision scale => rfl

/-- Arguments change only the size and the precision, and of a column they read only its type. -/
theorem apply_eq (arguments : Arguments) (column other : Column) (htype : other.type = column.type)
    (hsize : other.size = column.size) (hprecision : other.precision = column.precision) :
    arguments.apply other =
      { other with
        size := (arguments.apply column).size
        precision := (arguments.apply column).precision } := by
  cases arguments with
  | none => simp only [apply, ← hsize, ← hprecision]
  | one n =>
    by_cases h : column.type ∈ Column.precisionTypes
    · simp only [apply, htype, if_pos h, hsize]
    · simp only [apply, htype, if_neg h, hprecision]
  | two precision scale => simp only [apply, hsize]

theorem nullable_apply (arguments : Arguments) (column : Column) :
    (arguments.apply column).nullable = column.nullable := by
  rw [arguments.apply_eq column column rfl rfl rfl]

theorem apply_isAutoIncrement (arguments : Arguments) (column : Column) (isAutoIncrement : Bool) :
    arguments.apply { column with isAutoIncrement } =
      { arguments.apply column with isAutoIncrement } :=
  calc arguments.apply { column with isAutoIncrement }
    _ = { column with
          isAutoIncrement
          size := (arguments.apply column).size
          precision := (arguments.apply column).precision } :=
        arguments.apply_eq column { column with isAutoIncrement } rfl rfl rfl
    _ = { arguments.apply column with isAutoIncrement } :=
        congrArg (fun changed : Column => { changed with isAutoIncrement })
          (arguments.apply_eq column column rfl rfl rfl).symm

theorem noneOf_of_mem_inner {arguments : Arguments} {c : Char} (h : c ∈ arguments.inner) :
    noneOf "()" c = true := by
  have hdigit : ∀ {n : UInt32}, c ∈ digits n → noneOf "()" c = true := by
    intro n hc
    have hchar := isIdentifierChar_of_mem_digits hc
    simp [noneOf, ne_of_isIdentifierChar hchar (d := '(') (by decide),
      ne_of_isIdentifierChar hchar (d := ')') (by decide)]
  cases arguments with
  | none => cases h
  | one n => exact hdigit h
  | two precision scale =>
    simp only [inner, List.mem_append, List.mem_cons] at h
    rcases h with h | rfl | rfl | h
    · exact hdigit h
    · decide
    · decide
    · exact hdigit h

theorem print_eq {arguments : Arguments} (h : arguments ≠ .none) :
    arguments.print = '(' :: (arguments.inner ++ [')']) := by
  cases arguments with
  | none => exact absurd rfl h
  | one n => rfl
  | two precision scale => simp [print, inner]

theorem find?_argumentsPattern {arguments : Arguments} (h : arguments ≠ .none) (rest : Text) :
    ∃ m, Column.argumentsPattern.find? (arguments.print ++ rest) = some m ∧
      m.textOf .arguments = arguments.inner ∧ m.stop.after = rest := by
  have hfirst : (all [space, sign '(', capture .arguments (many (noneOf "()")), sign ')']).first?
      some ⟨⟨[], arguments.print ++ rest⟩, []⟩ =
      some ⟨⟨')' :: (arguments.inner.reverse ++ ['(']), rest⟩,
        [⟨.arguments, ⟨['('], arguments.inner ++ ')' :: rest⟩,
          ⟨arguments.inner.reverse ++ ['('], ')' :: rest⟩⟩]⟩ := by
    rw [print_eq h, List.cons_append, List.append_assoc, List.singleton_append, first?_all_cons,
      first?_space_of_stops (stops_of_head rfl), first?_all_cons, sign,
      first?_char_cons, if_pos (by decide), first?_all_cons, first?_capture]
    apply first?_many_of_some (fun c hc => noneOf_of_mem_inner hc) (stops_of_head rfl)
    rfl
  refine ⟨_, find?_start_of_first? hfirst, ?_, rfl⟩
  exact Cursor.upTo_append ['('] arguments.inner (')' :: rest) _

end Arguments

theorem StartsModifiers.find?_argumentsPattern_eq_none {t : Text} (h : StartsModifiers t) :
    Column.argumentsPattern.find? t = none := by
  have hfun : (all [sign '(', capture .arguments (many (noneOf "()")), sign ')']).first? some =
      (sign '(').first? ((all [capture .arguments (many (noneOf "()")), sign ')']).first? some) :=
    funext fun w => first?_all_cons some _ _ w
  have hopen := h.stops_trimStart
  apply find?_start_eq_none
  rw [first?_all_cons, hfun]
  rcases h with rfl | ⟨s, hs, more, rfl⟩
  · rfl
  · have hblank : Stops isBlank (s.toList ++ more) :=
      stops_isBlank_of_isPhraseWord (Modifier.isPhraseWord_of_mem_firstWords hs) more
    rw [trimStart_cons, if_pos (by decide), hblank.trimStart_eq] at hopen
    rw [first?_space_sign (by decide) hblank, first?_sign_eq_none hopen]

end Declaration
end SqlAudit
