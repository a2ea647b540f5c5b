import SqlAudit.Text.Basic

/-!
Lines and byte offsets.  A byte offset inside a text lies on one of its lines, and a text that ends
in a newline contributes its lines to a longer text without touching those that follow.
-/

namespace SqlAudit
namespace Text

/-! ## Bytes -/

@[simp] theorem size_nil : size [] = 0 := rfl

@[simp] theorem size_cons (c : Char) (t : Text) : size (c :: t) = c.utf8Size + size t := rfl

@[simp] theorem size_append (a b : Text) : size (a ++ b) = size a + size b := by
  induction a with
  | nil => simp
  | cons c rest ih =>
    rw [List.cons_append, size_cons, size_cons, ih]
    omega

theorem size_reverse (t : Text) : size t.reverse = size t := by
  induction t with
  | nil => rfl
  | cons c rest ih =>
    rw [List.reverse_cons, size_append, ih]
    simp [Nat.add_comm]

@[simp] theorem size_blanks (c : Char) : size (blanks c) = c.utf8Size := by
  have hspaces : ∀ n, size (List.replicate n ' ') = n := by
    intro n
    induction n with
    | zero => rfl
    | succ n ih =>
      have hspace : (' ' : Char).utf8Size = 1 := by decide
      rw [List.replicate_succ, size_cons, ih, hspace, Nat.add_comm]
  exact hspaces c.utf8Size

theorem size_pos_of_ne_nil {t : Text} (h : t ≠ []) : 0 < size t := by
  cases t with
  | nil => exact absurd rfl h
  | cons c rest =>
    have := c.utf8Size_pos
    rw [size_cons]
    omega

theorem atByte?_append (a b : Text) : atByte? (a ++ b) (size a) = some b := by
  induction a with
  | nil => cases b <;> rfl
  | cons c rest ih =>
    have hpos := c.utf8Size_pos
    obtain ⟨n, hn⟩ : ∃ n, c.utf8Size + size rest = n + 1 := ⟨c.utf8Size + size rest - 1, by omega⟩
    have hrest : n + 1 - c.utf8Size = size rest := by omega
    rw [size_cons, hn, List.cons_append, atByte?, if_neg (by omega), hrest, ih]

/-- The bytes of a text are dropped from its start. -/
theorem dropBytes_append (a b : Text) : dropBytes (a ++ b) (size a) = b := by
  rw [dropBytes, atByte?_append]
  rfl

/-! ## Pieces -/

theorem pieces_ne_nil (stop : Char → Bool) (t : Text) : pieces stop t ≠ [] := by
  cases t with
  | nil => simp [pieces]
  | cons c rest =>
    rw [pieces]
    by_cases hc : stop c = true
    · simp [hc]
    · rw [if_neg hc]
      cases pieces stop rest <;> simp [extend]

theorem pieces_of_forall {stop : Char → Bool} {t : Text} (h : ∀ c ∈ t, stop c = false) :
    pieces stop t = [t] := by
  induction t with
  | nil => rfl
  | cons c t ih =>
    rw [pieces, if_neg (by simp [h c List.mem_cons_self]),
      ih fun d hd => h d (List.mem_cons_of_mem _ hd)]
    rfl

/-- A character that separates pieces cuts a text in two. -/
theorem pieces_append_stop {stop : Char → Bool} {c : Char} (hc : stop c = true) (a b : Text) :
    pieces stop (a ++ c :: b) = pieces stop a ++ pieces stop b := by
  induction a with
  | nil => simp [pieces, hc]
  | cons d rest ih =>
    rw [List.cons_append, pieces, ih, pieces]
    by_cases hd : stop d = true
    · simp [hd]
    · rw [if_neg hd, if_neg hd]
      obtain ⟨piece, more, hp⟩ := List.exists_cons_of_ne_nil (pieces_ne_nil stop rest)
      rw [hp, List.cons_append]
      rfl

theorem length_pieces_newline (t : Text) :
    (pieces (· == '\n') t).length = t.count '\n' + 1 := by
  induction t with
  | nil => rfl
  | cons c rest ih =>
    rw [pieces]
    by_cases hc : c = '\n'
    · subst hc
      simp [ih]
    · obtain ⟨piece, more, hp⟩ := List.exists_cons_of_ne_nil (pieces_ne_nil (· == '\n') rest)
      rw [hp] at ih
      simpa [hc, hp, extend] using ih

/-! ## Lines -/

/-- What stands up to a newline gives whole lines, whatever follows. -/
theorem lines_append_newline_cons (a b : Text) :
    lines (a ++ '\n' :: b) = (pieces (· == '\n') a).map dropReturn ++ lines b := by
  have hcut : pieces (· == '\n') (a ++ '\n' :: b) =
      pieces (· == '\n') a ++ pieces (· == '\n') b := pieces_append_stop (by decide) a b
  have hb := pieces_ne_nil (· == '\n') b
  simp only [lines, hcut]
  rw [List.dropLast_append_of_ne_nil hb, List.map_append, List.append_assoc,
    List.getLast?_append, List.getLast?_eq_some_getLast hb, Option.some_or]

theorem lines_ending_in_newline (a : Text) :
    lines (a ++ ['\n']) = (pieces (· == '\n') a).map dropReturn := by
  rw [lines_append_newline_cons]
  simp [lines, pieces]

/-- A text that ends in a newline keeps its lines when more follows. -/
theorem lines_append_newline (a b : Text) :
    lines (a ++ '\n' :: b) = lines (a ++ ['\n']) ++ lines b := by
  rw [lines_append_newline_cons, lines_ending_in_newline]

theorem length_lines_ending_in_newline (a : Text) :
    (lines (a ++ ['\n'])).length = (a ++ ['\n']).count '\n' := by
  rw [lines_ending_in_newline, List.length_map, length_pieces_newline]
  simp

theorem lines_newline_cons (t : Text) : lines ('\n' :: t) = [] :: lines t :=
  lines_append_newline_cons [] t

/-- A character besides the newline opens a line where there is none and joins the first one
otherwise. -/
theorem length_lines_cons {c : Char} (hc : c ≠ '\n') (t : Text) :
    (lines (c :: t)).length = max 1 (lines t).length := by
  obtain ⟨piece, more, hp⟩ := List.exists_cons_of_ne_nil (pieces_ne_nil (· == '\n') t)
  have hcut : pieces (· == '\n') (c :: t) = (c :: piece) :: more := by
    rw [pieces, hp]
    simp [hc, extend]
  simp only [lines, hcut, hp]
  cases more with
  | nil => cases piece <;> simp
  | cons next others =>
    simp only [List.dropLast_cons_cons, List.map_cons, List.cons_append, List.length_cons,
      List.getLast?_cons_cons]
    omega

/-! ## The line of an offset -/

theorem one_le_lineAt (t : Text) (offset : Nat) : 1 ≤ lineAt t offset := by
  induction t generalizing offset with
  | nil => simp [lineAt]
  | cons c rest ih =>
    rw [lineAt]
    by_cases h : offset < c.utf8Size
    · simp [h]
    · rw [if_neg h]
      have := ih (offset - c.utf8Size)
      omega

/-- An offset inside a text lies on one of its lines. -/
theorem lineAt_le_length_lines {t : Text} {offset : Nat} (h : offset < size t) :
    lineAt t offset ≤ (lines t).length := by
  induction t generalizing offset with
  | nil => simp at h
  | cons c rest ih =>
    have hfirst : 1 ≤ (lines (c :: rest)).length := by
      by_cases hc : c = '\n'
      · simp [hc, lines_newline_cons]
      · rw [length_lines_cons hc]
        omega
    rw [lineAt]
    by_cases hin : offset < c.utf8Size
    · simpa [hin] using hfirst
    · rw [if_neg hin]
      have hrest := @ih (offset - c.utf8Size) (by rw [size_cons] at h; omega)
      by_cases hc : c = '\n'
      · subst hc
        rw [lines_newline_cons, List.length_cons]
        simp only [beq_self_eq_true, if_true]
        omega
      · rw [length_lines_cons hc]
        simp only [beq_iff_eq, hc, if_false]
        omega

theorem lineAt_zero (t : Text) : lineAt t 0 = 1 := by
  cases t with
  | nil => rfl
  | cons c rest => rw [lineAt, if_pos c.utf8Size_pos]

/-- Past a text the lines are counted on from its newlines. -/
theorem lineAt_append_right (a b : Text) (offset : Nat) :
    lineAt (a ++ b) (size a + offset) = a.count '\n' + lineAt b offset := by
  induction a with
  | nil => simp
  | cons c rest ih =>
    have hpast : ¬ c.utf8Size + size rest + offset < c.utf8Size := by omega
    have hleft : c.utf8Size + size rest + offset - c.utf8Size = size rest + offset := by omega
    rw [List.cons_append, lineAt, size_cons, if_neg hpast, hleft, ih, List.count_cons]
    omega

theorem lineAt_size (a b : Text) : lineAt (a ++ b) (size a) = a.count '\n' + 1 := by
  have h := lineAt_append_right a b 0
  rwa [Nat.add_zero, lineAt_zero] at h

/-- What follows a text does not change the lines of the offsets inside it. -/
theorem lineAt_append_left {a : Text} {offset : Nat} (h : offset < size a) (b : Text) :
    lineAt (a ++ b) offset = lineAt a offset := by
  induction a generalizing offset with
  | nil => simp at h
  | cons c rest ih =>
    rw [List.cons_append, lineAt, lineAt]
    by_cases hin : offset < c.utf8Size
    · simp [hin]
    · rw [if_neg hin, if_neg hin, ih (by rw [size_cons] at h; omega)]

/-- Later offsets lie on the same line or on later ones. -/
theorem lineAt_mono (t : Text) {m n : Nat} (h : m ≤ n) : lineAt t m ≤ lineAt t n := by
  induction t generalizing m n with
  | nil => exact Nat.le_refl _
  | cons c rest ih =>
    rw [lineAt, lineAt]
    by_cases hn : n < c.utf8Size
    · have hm : m < c.utf8Size := by omega
      simp [hm, hn]
    · rw [if_neg hn]
      by_cases hm : m < c.utf8Size
      · rw [if_pos hm]
        have := one_le_lineAt rest (n - c.utf8Size)
        omega
      · rw [if_neg hm]
        exact Nat.add_le_add_left (ih (by omega)) _

end Text
end SqlAudit
