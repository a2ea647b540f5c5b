import SqlAudit.Proofs.Lexical.Locality
import SqlAudit.Proofs.Lexical.Occurrence

/-!
Statements partition their document.  A byte that no statement holds is part of a blank or of a
semicolon outside quotes, no statement holds such a semicolon, and one stands between any two
statements, so that they come in order and do not overlap.
-/

namespace SqlAudit

/-- A byte offset of the document lies in a statement. -/
def Statement.Holds (s : Statement) (offset : Nat) : Prop :=
  s.offset ≤ offset ∧ offset < s.offset + s.text.size

theorem Mark.utf8Size_of_isCode {m : Mark} (h : m.isCode ';' = true) : m.char.utf8Size = 1 := by
  rw [Mark.isCode, Bool.and_eq_true, beq_iff_eq] at h
  rw [h.2]
  decide

namespace Text

/-! ## The character of a byte -/

/-- The marked character that a byte belongs to. -/
def markAt? : List Mark → Nat → Option Mark
  | [], _ => none
  | m :: rest, offset =>
    if offset < m.char.utf8Size then some m else markAt? rest (offset - m.char.utf8Size)

theorem mem_of_markAt? {ms : List Mark} {offset : Nat} {m : Mark}
    (h : markAt? ms offset = some m) : m ∈ ms := by
  induction ms generalizing offset with
  | nil => cases h
  | cons n rest ih =>
    rw [markAt?] at h
    split at h
    · rw [Option.some.inj h]
      exact List.mem_cons_self
    · exact List.mem_cons_of_mem _ (ih h)

theorem lt_size_of_markAt? {ms : List Mark} {offset : Nat} {m : Mark}
    (h : markAt? ms offset = some m) : offset < size (ms.map Mark.char) := by
  induction ms generalizing offset with
  | nil => cases h
  | cons n rest ih =>
    rw [markAt?] at h
    rw [List.map_cons, size_cons]
    split at h
    · omega
    · have := ih h
      omega

theorem markAt?_append (a b : List Mark) (offset : Nat) :
    markAt? (a ++ b) offset = if offset < size (a.map Mark.char) then markAt? a offset
      else markAt? b (offset - size (a.map Mark.char)) := by
  induction a generalizing offset with
  | nil => rfl
  | cons m rest ih =>
    rw [List.cons_append, markAt?, markAt?, ih, List.map_cons, size_cons]
    by_cases hm : offset < m.char.utf8Size
    · rw [if_pos hm, if_pos hm, if_pos (by omega)]
    · rw [if_neg hm, if_neg hm]
      by_cases hrest : offset < m.char.utf8Size + size (rest.map Mark.char)
      · rw [if_pos hrest, if_pos (by omega)]
      · rw [if_neg hrest, if_neg (by omega), Nat.sub_sub]

/-- Each byte of a text belongs to a character. -/
theorem exists_markAt? {ms : List Mark} {offset : Nat} (h : offset < size (ms.map Mark.char)) :
    ∃ m, markAt? ms offset = some m := by
  induction ms generalizing offset with
  | nil => exact absurd h (Nat.not_lt_zero offset)
  | cons m rest ih =>
    rw [List.map_cons, size_cons] at h
    rw [markAt?]
    by_cases hm : offset < m.char.utf8Size
    · exact ⟨m, if_pos hm⟩
    · rw [if_neg hm]
      exact ih (by omega)

section

variable {a b : List Mark} {m : Mark} (hm : m.isCode ';' = true)

include hm

theorem markAt?_semicolon : markAt? (a ++ m :: b) (size (a.map Mark.char)) = some m := by
  rw [markAt?_append, if_neg (Nat.lt_irrefl _), Nat.sub_self, markAt?,
    if_pos (by rw [Mark.utf8Size_of_isCode hm]; exact Nat.one_pos)]

theorem markAt?_after_semicolon (offset : Nat) :
    markAt? (a ++ m :: b) (size (a.map Mark.char) + 1 + offset) = markAt? b offset := by
  have hrest : size (a.map Mark.char) + 1 + offset - size (a.map Mark.char) - 1 = offset := by omega
  rw [markAt?_append, if_neg (by omega), markAt?, Mark.utf8Size_of_isCode hm, if_neg (by omega),
    hrest]

/-- A byte stands before the semicolon, is the semicolon, or stands after it. -/
theorem markAt?_append_semicolon_cases {offset : Nat} {n : Mark}
    (h : markAt? (a ++ m :: b) offset = some n) :
    offset < size (a.map Mark.char) ∧ markAt? a offset = some n ∨
      offset = size (a.map Mark.char) ∧ n = m ∨
      ∃ after, offset = size (a.map Mark.char) + 1 + after ∧ markAt? b after = some n := by
  rcases Nat.lt_trichotomy offset (size (a.map Mark.char)) with hlt | rfl | hgt
  · rw [markAt?_append, if_pos hlt] at h
    exact .inl ⟨hlt, h⟩
  · rw [markAt?_semicolon hm] at h
    exact .inr (.inl ⟨rfl, (Option.some.inj h).symm⟩)
  · obtain ⟨after, rfl⟩ : ∃ after, offset = size (a.map Mark.char) + 1 + after :=
      ⟨offset - size (a.map Mark.char) - 1, by omega⟩
    rw [markAt?_after_semicolon hm] at h
    exact .inr (.inr ⟨after, rfl, h⟩)

end

/-! ## Partitions -/

/-- A semicolon outside quotes stands after the one statement and before the other. -/
def Separated (start : Nat) (ms : List Mark) (s s' : Statement) : Prop :=
  ∃ offset m, markAt? ms offset = some m ∧ m.isCode ';' = true ∧
    s.offset + s.text.size ≤ start + offset ∧ start + offset < s'.offset

/-- How statements lie among the marked characters that start at a byte offset. -/
structure Partition (start : Nat) (ms : List Mark) (ss : List Statement) : Prop where
  within : ∀ s ∈ ss, start ≤ s.offset ∧ s.offset + s.text.size ≤ start + size (ms.map Mark.char)
  separated : ss.Pairwise (Separated start ms)
  covered : ∀ offset m, markAt? ms offset = some m → isBlank m.char = false →
    m.isCode ';' = false → ∃ s ∈ ss, s.Holds (start + offset)
  semicolon : ∀ offset m, markAt? ms offset = some m → m.isCode ';' = true →
    ∀ s ∈ ss, ¬ s.Holds (start + offset)

namespace Partition

/-- A statement with blanks around it. -/
theorem of_blanks (start : Nat) {a b c : List Mark} (ha : ∀ m ∈ a, isBlank m.char = true)
    (hc : ∀ m ∈ c, isBlank m.char = true) (h : ∀ m ∈ a ++ (b ++ c), m.isCode ';' = false) :
    Partition start (a ++ (b ++ c)) [⟨start + size (a.map Mark.char), b.map Mark.char⟩] := by
  refine ⟨?_, List.pairwise_singleton _ _, ?_, ?_⟩
  · intro s hs
    rw [List.mem_singleton.mp hs, List.map_append, List.map_append, size_append, size_append]
    dsimp only
    omega
  · intro offset m hat hchar _
    refine ⟨_, List.mem_singleton_self _, ?_⟩
    rw [markAt?_append, markAt?_append] at hat
    split at hat
    · rw [ha m (mem_of_markAt? hat)] at hchar
      cases hchar
    · split at hat
      -- Neither before the statement nor behind it: the offset lies within its bounds.
      · constructor <;> dsimp only <;> omega
      · rw [hc m (mem_of_markAt? hat)] at hchar
        cases hchar
  · intro offset m hat hm
    rw [h m (mem_of_markAt? hat)] at hm
    cases hm

/-- Without a semicolon there is one statement, or none among blanks. -/
theorem of_forall (start : Nat) {ms : List Mark} (h : ∀ m ∈ ms, m.isCode ';' = false) :
    Partition start ms (placeStatements start [ms.map Mark.char]) := by
  rw [placeStatements]
  by_cases hbody : trimStart (ms.map Mark.char) = []
  · have hblank := (trimStart_eq_nil_iff _).mp hbody
    simp only [hbody, List.isEmpty_nil, if_true, placeStatements]
    refine ⟨by simp, .nil, ?_, by simp⟩
    intro offset m hat hchar
    rw [hblank _ (List.mem_map_of_mem (mem_of_markAt? hat))] at hchar
    cases hchar
  · simp only [List.isEmpty_iff, hbody, if_false, placeStatements]
    obtain ⟨lead, hlead, hleadBlank⟩ := exists_append_trimStart (ms.map Mark.char)
    obtain ⟨trail, htrail, htrailBlank⟩ := exists_trimEnd_append (trimStart (ms.map Mark.char))
    generalize trimStart (ms.map Mark.char) = rest at hlead htrail ⊢
    generalize trimEnd rest = body at htrail ⊢
    subst htrail
    -- The blanks and the statement are the characters of three runs of marks.
    obtain ⟨a, others, rfl, rfl, hothers⟩ := List.map_eq_append_iff.mp hlead
    obtain ⟨b, c, rfl, rfl, rfl⟩ := List.map_eq_append_iff.mp hothers
    have hplace : size ((a ++ (b ++ c)).map Mark.char) -
        size (b.map Mark.char ++ c.map Mark.char) = size (a.map Mark.char) := by
      rw [hlead, size_append]
      omega
    rw [hplace]
    exact of_blanks start (fun m hm => hleadBlank _ (List.mem_map_of_mem hm))
      (fun m hm => htrailBlank _ (List.mem_map_of_mem hm)) h

/-- What stands on both sides of a semicolon is partitioned apart. -/
theorem append {start : Nat} {a b : List Mark} {m : Mark} {ss ss' : List Statement}
    (ha : Partition start a ss) (hm : m.isCode ';' = true)
    (hb : Partition (start + size (a.map Mark.char) + 1) b ss') :
    Partition start (a ++ m :: b) (ss ++ ss') := by
  have hsize : size ((a ++ m :: b).map Mark.char) =
      size (a.map Mark.char) + 1 + size (b.map Mark.char) := by
    rw [List.map_append, List.map_cons, size_append, size_cons, Mark.utf8Size_of_isCode hm]
    omega
  have hafter : ∀ after, start + (size (a.map Mark.char) + 1 + after) =
      start + size (a.map Mark.char) + 1 + after := by
    intro after
    omega
  constructor
  · intro s hs
    rw [hsize]
    rcases List.mem_append.mp hs with hs | hs
    · have := ha.within s hs
      omega
    · have := hb.within s hs
      omega
  · rw [List.pairwise_append]
    refine ⟨ha.separated.imp ?_, hb.separated.imp ?_, fun s hs s' hs' => ?_⟩
    · rintro s s' ⟨offset, n, hat, hn, hbefore, hbehind⟩
      refine ⟨offset, n, ?_, hn, hbefore, hbehind⟩
      rw [markAt?_append, if_pos (lt_size_of_markAt? hat), hat]
    · rintro s s' ⟨offset, n, hat, hn, hbefore, hbehind⟩
      refine ⟨size (a.map Mark.char) + 1 + offset, n, ?_, hn, ?_⟩
      · rw [markAt?_after_semicolon hm, hat]
      · rw [hafter]
        exact ⟨hbefore, hbehind⟩
    · have hbefore := (ha.within s hs).2
      have hbehind := (hb.within s' hs').1
      exact ⟨_, m, markAt?_semicolon hm, hm, hbefore, by omega⟩
  · intro offset n hat hchar hn
    rcases markAt?_append_semicolon_cases hm hat with ⟨-, hat'⟩ | ⟨-, rfl⟩ | ⟨after, rfl, hat'⟩
    · obtain ⟨s, hs, hholds⟩ := ha.covered offset n hat' hchar hn
      exact ⟨s, List.mem_append_left _ hs, hholds⟩
    · rw [hm] at hn
      cases hn
    · obtain ⟨s, hs, hholds⟩ := hb.covered after n hat' hchar hn
      exact ⟨s, List.mem_append_right _ hs, by rwa [hafter]⟩
  · intro offset n hat hn s hs
    rcases List.mem_append.mp hs with hs | hs
    · have hwithin := (ha.within s hs).2
      rcases markAt?_append_semicolon_cases hm hat with ⟨-, hat'⟩ | ⟨rfl, -⟩ | ⟨after, rfl, -⟩
      · exact ha.semicolon offset n hat' hn s hs
      · exact fun hholds => absurd hholds.2 (by omega)
      · exact fun hholds => absurd hholds.2 (by omega)
    · have hwithin := (hb.within s hs).1
      rcases markAt?_append_semicolon_cases hm hat with ⟨hlt, -⟩ | ⟨rfl, -⟩ | ⟨after, rfl, hat'⟩
      · exact fun hholds => absurd hholds.1 (by omega)
      · exact fun hholds => absurd hholds.1 (by omega)
      · rw [hafter]
        exact hb.semicolon after n hat' hn s hs

end Partition

/-! ## Documents -/

theorem induction_on_semicolons {P : List Mark → Prop}
    (last : ∀ ms, (∀ m ∈ ms, m.isCode ';' = false) → P ms)
    (more : ∀ a m b, (∀ n ∈ a, n.isCode ';' = false) → m.isCode ';' = true → P b → P (a ++ m :: b))
    (ms : List Mark) : P ms := by
  obtain ⟨n, hn⟩ : ∃ n, ms.length = n := ⟨_, rfl⟩
  induction n using Nat.strongRecOn generalizing ms with
  | ind n ih =>
    cases hfind : ms.find? (·.isCode ';') with
    | none =>
      apply last
      simpa using List.find?_eq_none.mp hfind
    | some m =>
      obtain ⟨hm, a, b, rfl, ha⟩ := List.find?_eq_some_iff_append.mp hfind
      rw [List.length_append, List.length_cons] at hn
      exact more a m b (by simpa using ha) hm (ih b.length (by omega) b rfl)

theorem cutStatements_of_forall {ms : List Mark} (h : ∀ m ∈ ms, m.isCode ';' = false) :
    cutStatements ms = [ms.map Mark.char] := by
  induction ms with
  | nil => rfl
  | cons m rest ih =>
    rw [cutStatements, if_neg (by simp [h m List.mem_cons_self]),
      ih fun n hn => h n (List.mem_cons_of_mem _ hn)]
    rfl

theorem partition_placeStatements (start : Nat) (ms : List Mark) :
    Partition start ms (placeStatements start (cutStatements ms)) := by
  induction ms using induction_on_semicolons generalizing start with
  | last ms h =>
    rw [cutStatements_of_forall h]
    exact .of_forall start h
  | more a m b ha hm ih =>
    rw [cutStatements_append_semicolon hm, cutStatements_of_forall ha,
      placeStatements_append (by simp), List.intercalate_singleton]
    exact (Partition.of_forall start ha).append hm (ih _)

theorem exists_piece_of_mem_placeStatements {start : Nat} {pieces : List Text} {s : Statement}
    (h : s ∈ placeStatements start pieces) : ∃ piece ∈ pieces, s.text = trim piece := by
  induction pieces generalizing start with
  | nil => cases h
  | cons piece more ih =>
    have hmore : s ∈ placeStatements (start + piece.size + 1) more →
        ∃ other ∈ piece :: more, s.text = trim other := by
      intro h
      obtain ⟨other, hother, hs⟩ := ih h
      exact ⟨other, List.mem_cons_of_mem _ hother, hs⟩
    rw [placeStatements] at h
    split at h
    · exact hmore h
    · rcases List.mem_cons.mp h with rfl | h
      · exact ⟨piece, List.mem_cons_self, rfl⟩
      · exact hmore h

/-- The statements of a document come in order, with a semicolon outside quotes between any two.
Each is a run of its characters that is not empty and has no blanks at the ends.  A byte that no
statement holds is part of a blank or of a semicolon outside quotes, and a semicolon outside quotes
is held by no statement. -/
theorem statements_partition (t : Text) :
    t.statements.Pairwise (fun s s' => s.offset < s'.offset ∧
      s.offset + s.text.size ≤ s'.offset ∧ Separated 0 (t.marks t.escapes) s s') ∧
    (∀ s ∈ t.statements, s.text ≠ [] ∧ trim s.text = s.text ∧ StandsAt s.text s.offset t) ∧
    ∀ offset, offset < t.size → ∃ m, markAt? (t.marks t.escapes) offset = some m ∧
      ((∃ s ∈ t.statements, s.Holds offset) ∧ m.isCode ';' = false ∨
        (∀ s ∈ t.statements, ¬ s.Holds offset) ∧
          (isBlank m.char = true ∨ m.isCode ';' = true)) := by
  have hpartition := partition_placeStatements 0 (t.marks t.escapes)
  rw [← statements] at hpartition
  refine ⟨hpartition.separated.imp ?_, fun s hs => ?_, fun offset hoffset => ?_⟩
  · rintro s s' ⟨offset, m, hat, hm, hbefore, hbehind⟩
    exact ⟨by omega, by omega, offset, m, hat, hm, hbefore, hbehind⟩
  · obtain ⟨piece, -, htrim⟩ := exists_piece_of_mem_placeStatements hs
    exact ⟨text_ne_nil_of_mem_statements hs, by rw [htrim, trim_trim],
      standsAt_of_mem_statements hs⟩
  · have hchars := map_char_marks t.escapes t
    obtain ⟨m, hat⟩ := exists_markAt? (by rwa [hchars])
    refine ⟨m, hat, ?_⟩
    have hcovered := hpartition.covered offset m hat
    have hsemicolon := hpartition.semicolon offset m hat
    rw [Nat.zero_add] at hcovered hsemicolon
    by_cases hm : m.isCode ';' = true
    · exact .inr ⟨hsemicolon hm, .inr hm⟩
    · by_cases hheld : ∃ s ∈ t.statements, s.Holds offset
      · exact .inl ⟨hheld, by simpa using hm⟩
      · refine .inr ⟨fun s hs hholds => hheld ⟨s, hs, hholds⟩, .inl ?_⟩
        by_contra hblank
        exact hheld (hcovered (by simpa using hblank) (by simpa using hm))

/-- The semicolon at byte 12 stands in a literal, which has a wide character; the last literal stays
open. -/
theorem statements_partition_wide_literal :
    ⟨1, "SELECT 'aé;'".toList⟩ ∈ statements " SELECT 'aé;' ;\n; DROP x; 'b;".toList ∧
      trim "SELECT 'aé;'".toList = "SELECT 'aé;'".toList ∧
      StandsAt "SELECT 'aé;'".toList 1 " SELECT 'aé;' ;\n; DROP x; 'b;".toList ∧
      12 < size " SELECT 'aé;' ;\n; DROP x; 'b;".toList ∧
      ∃ s ∈ statements " SELECT 'aé;' ;\n; DROP x; 'b;".toList, s.Holds 12 := by
  have hmem : ⟨1, "SELECT 'aé;'".toList⟩ ∈
      statements " SELECT 'aé;' ;\n; DROP x; 'b;".toList := by decide
  have hsize : 12 < size " SELECT 'aé;' ;\n; DROP x; 'b;".toList := by decide
  have hat : markAt? (marks (escapes " SELECT 'aé;' ;\n; DROP x; 'b;".toList)
      " SELECT 'aé;' ;\n; DROP x; 'b;".toList) 12 = some ⟨';', true⟩ := by decide
  obtain ⟨-, htexts, hbytes⟩ := statements_partition " SELECT 'aé;' ;\n; DROP x; 'b;".toList
  obtain ⟨-, htrim, hstands⟩ := htexts _ hmem
  obtain ⟨m, hm, hcases⟩ := hbytes 12 hsize
  obtain rfl := Option.some.inj (hat.symm.trans hm)
  refine ⟨hmem, htrim, hstands, hsize, ?_⟩
  rcases hcases with ⟨hheld, -⟩ | ⟨-, hblank | hcode⟩
  · exact hheld
  · exact absurd hblank (by decide)
  · exact absurd hcode (by decide)

end Text
end SqlAudit
