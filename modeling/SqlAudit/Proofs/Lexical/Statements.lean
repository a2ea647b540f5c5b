import SqlAudit.Lexical.Mask
import SqlAudit.Lexical.Statement
import SqlAudit.Proofs.Text.Trim

/-!
Statements lie inside their document: each one is a run of its characters, at the offset that it
gives.
-/

namespace SqlAudit
namespace Text

/-! ## Marks -/

@[simp] theorem map_char_marksFrom (escapes : Escapes) (state : QuoteState) (t : Text) :
    (marksFrom escapes state t).map Mark.char = t := by
  induction t generalizing state with
  | nil => rfl
  | cons c rest ih => rw [marksFrom, List.map_cons, ih]

@[simp] theorem map_char_marks (escapes : Escapes) (t : Text) :
    (t.marks escapes).map Mark.char = t := map_char_marksFrom escapes .code t

/-! ## Pieces between semicolons -/

theorem intercalate_extend {sep : Text} (c : Char) {ts : List Text} (h : ts ≠ []) :
    sep.intercalate (extend c ts) = c :: sep.intercalate ts := by
  cases ts with
  | nil => exact absurd rfl h
  | cons piece more => cases more <;> simp [extend, List.intercalate, List.intersperse]

theorem cutStatements_ne_nil (ms : List Mark) : cutStatements ms ≠ [] := by
  cases ms with
  | nil => simp [cutStatements]
  | cons m rest =>
    rw [cutStatements]
    split
    · simp
    · cases cutStatements rest <;> simp [extend]

/-- The pieces with semicolons between them are the document. -/
theorem intercalate_cutStatements (ms : List Mark) :
    [';'].intercalate (cutStatements ms) = ms.map Mark.char := by
  induction ms with
  | nil => rfl
  | cons m rest ih =>
    rw [cutStatements, List.map_cons]
    by_cases hm : m.isCode ';' = true
    · have hchar : m.char = ';' := by
        rw [Mark.isCode, Bool.and_eq_true, beq_iff_eq] at hm
        exact hm.2
      rw [if_pos hm, List.intercalate_cons_of_ne_nil (cutStatements_ne_nil rest), ih, hchar]
      rfl
    · rw [if_neg hm, intercalate_extend _ (cutStatements_ne_nil rest), ih]

/-! ## Placed statements -/

/-- A statement stands in a text that starts at a byte offset of the document. -/
def StandsIn (s : Statement) (start : Nat) (t : Text) : Prop :=
  s.text ≠ [] ∧ ∃ front back, t = front ++ s.text ++ back ∧ s.offset = start + size front

theorem StandsIn.of_append {s : Statement} {start : Nat} {a b : Text}
    (h : StandsIn s (start + size a) b) : StandsIn s start (a ++ b) := by
  obtain ⟨hne, front, back, hb, hoffset⟩ := h
  refine ⟨hne, a ++ front, back, ?_, ?_⟩
  · rw [hb]
    simp [List.append_assoc]
  · rw [hoffset, size_append]
    omega

theorem StandsIn.append_right {s : Statement} {start : Nat} {a : Text} (h : StandsIn s start a)
    (b : Text) : StandsIn s start (a ++ b) := by
  obtain ⟨hne, front, back, ha, hoffset⟩ := h
  exact ⟨hne, front, back ++ b, by rw [ha]; simp [List.append_assoc], hoffset⟩

theorem standsIn_of_trimmed {piece : Text} {start : Nat} (h : piece.trimStart ≠ []) :
    StandsIn ⟨start + (piece.size - size piece.trimStart), trimEnd piece.trimStart⟩ start
      piece := by
  obtain ⟨front, hfront, -⟩ := exists_append_trimStart piece
  obtain ⟨back, hback, -⟩ := exists_trimEnd_append piece.trimStart
  refine ⟨?_, front, back, ?_, ?_⟩
  · -- The first character is no blank, so trimming the end leaves it.
    obtain ⟨c, rest, hc, hblank⟩ := (trimStart_eq_nil_or piece).resolve_left h
    rw [hc, trimEnd_cons, if_neg (by simp [hblank])]
    exact List.cons_ne_nil _ _
  · rw [List.append_assoc, ← hback, ← hfront]
  · have hsize := congrArg size hfront
    rw [size_append] at hsize
    dsimp only
    omega

theorem standsIn_of_mem_placeStatements {s : Statement} {start : Nat} {pieces : List Text}
    (h : s ∈ placeStatements start pieces) : StandsIn s start ([';'].intercalate pieces) := by
  induction pieces generalizing start with
  | nil => simp [placeStatements] at h
  | cons piece more ih =>
    have hfollowing : s ∈ placeStatements (start + piece.size + 1) more →
        StandsIn s start ([';'].intercalate (piece :: more)) := by
      intro h
      cases more with
      | nil => simp [placeStatements] at h
      | cons next others =>
        have hsemicolon : (';' : Char).utf8Size = 1 := by decide
        rw [List.intercalate_cons_cons, List.append_assoc]
        apply StandsIn.of_append
        apply StandsIn.of_append
        have hoffset : start + size piece + size [';'] = start + piece.size + 1 := by
          simp [hsemicolon]
        rw [hoffset]
        exact ih h
    rw [placeStatements] at h
    split at h
    · exact hfollowing h
    · rename_i hbody
      rcases List.mem_cons.mp h with rfl | h
      · have hfirst : ∃ tail, [';'].intercalate (piece :: more) = piece ++ tail := by
          cases more with
          | nil => exact ⟨[], by simp [List.intercalate, List.intersperse]⟩
          | cons next others => exact ⟨_, by simp [List.intercalate, List.intersperse]; rfl⟩
        obtain ⟨tail, htail⟩ := hfirst
        rw [htail]
        exact (standsIn_of_trimmed (by simpa using hbody)).append_right tail
      · exact hfollowing h

/-- Every statement stands in the document. -/
theorem standsIn_of_mem_statements {t : Text} {s : Statement} (h : s ∈ t.statements) :
    StandsIn s 0 t := by
  have hplaced := standsIn_of_mem_placeStatements h
  rwa [intercalate_cutStatements, map_char_marks] at hplaced

/-- An offset inside a statement, counted from its start, is an offset inside the document. -/
theorem offset_add_lt_size {t : Text} {s : Statement} (h : s ∈ t.statements) {offset : Nat}
    (hoffset : offset < size s.text) : s.offset + offset < size t := by
  obtain ⟨-, front, back, ht, hs⟩ := standsIn_of_mem_statements h
  rw [ht, size_append, size_append, hs]
  omega

theorem text_ne_nil_of_mem_statements {t : Text} {s : Statement} (h : s ∈ t.statements) :
    s.text ≠ [] := (standsIn_of_mem_statements h).1

/-! ## Masked literals -/

theorem size_maskFrom (escapes : Escapes) (state : LiteralState) (t : Text) :
    size (maskFrom escapes state t) = size t := by
  induction t generalizing state with
  | nil => cases state <;> rfl
  | cons c rest ih =>
    cases state with
    | outside => rw [maskFrom, size_cons, size_cons, ih]
    | inside =>
      rw [maskFrom]
      split
      · rw [size_append, size_blanks, size_cons, ih]
      · split
        · rw [size_cons, size_cons, ih]
        · rw [size_append, size_blanks, size_cons, ih]
    | escaped => rw [maskFrom, size_append, size_blanks, size_cons, ih]

@[simp] theorem size_mask (t : Text) : size t.mask = size t := size_maskFrom _ _ _

end Text
end SqlAudit
