import SqlAudit.Lexical.Enclosed
import SqlAudit.Pattern.Search
import SqlAudit.Proofs.Lexical.Geometry
import SqlAudit.Proofs.Pattern.Reach

/-!
Texts cut at byte offsets.  A cut is refused if its offset is past the end or inside a character, and
the count of open parentheses is refused to go below zero.  Cuts at the end of a piece of the text,
at the end of a match or around an enclosure are never refused.
-/

namespace SqlAudit

/-- What stops a reader that cuts texts at byte offsets. -/
inductive Slip where
  /-- An offset is no place between two characters of the text, or the end is before the start. -/
  | cut
  /-- A parenthesis closes that is not open. -/
  | depth
  deriving DecidableEq, Repr

namespace Text

def sliceFrom (t : Text) (start : Nat) : Except Slip Text :=
  match t.atByte? start with
  | some rest => .ok rest
  | none => .error .cut

def sliceTo (t : Text) (stop : Nat) : Except Slip Text := do
  let rest ← t.sliceFrom stop
  return t.take (t.length - rest.length)

def slice (t : Text) (start stop : Nat) : Except Slip Text :=
  if stop < start then .error .cut
  else do
    let rest ← t.sliceFrom start
    rest.sliceTo (stop - start)

/-- A slice is given exactly where a piece of the text ends; any other offset is refused. -/
theorem sliceFrom_eq_ok_iff (t : Text) (start : Nat) (rest : Text) :
    t.sliceFrom start = .ok rest ↔ ∃ front, t = front ++ rest ∧ size front = start := by
  constructor
  · intro h
    induction t generalizing start with
    | nil =>
      cases start with
      | zero =>
        cases h
        exact ⟨[], rfl, rfl⟩
      | succ n => cases h
    | cons c more ih =>
      cases start with
      | zero =>
        cases h
        exact ⟨[], rfl, rfl⟩
      | succ n =>
        rw [sliceFrom, atByte?] at h
        by_cases hinside : n + 1 < c.utf8Size
        · rw [if_pos hinside] at h
          cases h
        · rw [if_neg hinside] at h
          obtain ⟨front, rfl, hsize⟩ := ih _ h
          exact ⟨c :: front, rfl, by rw [size_cons]; omega⟩
  · rintro ⟨front, rfl, rfl⟩
    rw [sliceFrom, atByte?_append]

theorem sliceFrom_append (a b : Text) : (a ++ b).sliceFrom (size a) = .ok b :=
  (sliceFrom_eq_ok_iff _ _ _).mpr ⟨a, rfl, rfl⟩

theorem sliceTo_append (a b : Text) : (a ++ b).sliceTo (size a) = .ok a := by
  rw [sliceTo, sliceFrom_append]
  show Except.ok ((a ++ b).take ((a ++ b).length - b.length)) = _
  rw [List.length_append, Nat.add_sub_cancel, List.take_left]

/-- The place of a cursor is an offset of its text. -/
theorem sliceFrom_offset {t : Text} {c : Cursor} (h : c.text = t) :
    t.sliceFrom c.offset = .ok c.after := by
  rw [← h, Cursor.text, Cursor.offset, ← size_reverse, sliceFrom_append]

/-- The end of a match is an offset of the text that was searched. -/
theorem sliceFrom_stop {p : Pattern} {t : Text} {m : Match} (h : p.find? t = some m) :
    t.sliceFrom m.stop.offset = .ok m.stop.after := by
  obtain ⟨hstart, hmatch⟩ := Pattern.reaches_of_findFrom? h
  have hway := (Pattern.of_matchAt?_eq_some hmatch).2
  exact sliceFrom_offset (hstart.trans (Pattern.reaches_of_mem_ways hway)).text_eq

/-! ## Enclosures by a count from zero -/

/-- The offset of the parenthesis that brings the count of open ones back to zero, among marks of
which the first one stands at the given offset. -/
def closeFrom : (depth offset : Nat) → List Mark → Except Slip (Option Nat)
  | _, _, [] => .ok none
  | depth, offset, m :: rest =>
    let next := offset + m.char.utf8Size
    if m.isCode '(' then closeFrom (depth + 1) next rest
    else if m.isCode ')' then
      if depth = 0 then .error .depth
      else if depth - 1 = 0 then .ok (some offset)
      else closeFrom (depth - 1) next rest
    else closeFrom depth next rest

/-- The span of the parenthesis at an offset, with literals read by one convention. -/
def spanUnder (escapes : Escapes) (t : Text) (start : Nat) : Except Slip (Option (Nat × Nat)) := do
  let rest ← t.sliceFrom start
  let close ← closeFrom 0 0 (marks escapes rest)
  return close.map fun offset => (start, start + offset)

def parenthesisByte : UInt8 := 40

/-- The span of the parenthesis at an offset, if there is one. -/
def spanAt (t : Text) (start : Nat) : Except Slip (Option (Nat × Nat)) :=
  if t.bytes[start]? = some parenthesisByte then do
    match ← spanUnder .standard t start with
    | some span => return some span
    | none => spanUnder .backslash t start
  else .ok none

/-- The byte of a parenthesis is one only at the place of a character. -/
theorem getElem?_bytes_eq_parenthesis_iff (t : Text) (start : Nat) :
    t.bytes[start]? = some parenthesisByte ↔ ∃ rest, t.atByte? start = some ('(' :: rest) := by
  induction t generalizing start with
  | nil => cases start <;> simp [bytes, atByte?]
  | cons c rest ih =>
    have hparen : ∀ i : Nat, (String.utf8EncodeChar c)[i]? = some parenthesisByte → c = '(' := by
      intro i hi
      have hmem := List.mem_of_getElem? hi
      exact Char.ext (UInt32.toNat_inj.mp
        (toNat_eq_of_mem_utf8EncodeChar (n := 40) (by decide) hmem))
    have hpos := c.utf8Size_pos
    rw [bytes_cons]
    cases start with
    | zero =>
      rw [List.getElem?_append_left (by rw [String.length_utf8EncodeChar]; omega)]
      simp only [atByte?, Option.some.injEq, List.cons.injEq, exists_and_left, exists_eq', and_true]
      refine ⟨hparen 0, ?_⟩
      rintro rfl
      decide
    | succ n =>
      rw [atByte?]
      by_cases hinside : n + 1 < c.utf8Size
      · rw [if_pos hinside, List.getElem?_append_left (by rw [String.length_utf8EncodeChar]; omega)]
        constructor
        · intro hn
          have hone : c.utf8Size = 1 := by
            rw [hparen _ hn]
            rfl
          omega
        · rintro ⟨_, h⟩
          cases h
      · rw [if_neg hinside, List.getElem?_append_right (by rw [String.length_utf8EncodeChar]; omega),
          String.length_utf8EncodeChar, ih]

/-- Where some parentheses are open, the count stays above zero, and it gives the place after what
they enclose. -/
theorem closeFrom_succ (inner offset : Nat) (ms : List Mark) :
    closeFrom (inner + 1) offset ms =
      .ok ((upToClose inner ms).map fun body => offset + size body) := by
  induction ms generalizing inner offset with
  | nil => cases inner <;> rfl
  | cons m rest ih =>
    have hmore : ∀ n, (Except.ok ((upToClose n rest).map fun body =>
        offset + m.char.utf8Size + size body) : Except Slip (Option Nat)) =
          .ok (((upToClose n rest).map (m.char :: ·)).map fun body => offset + size body) := by
      intro n
      rw [Option.map_map]
      simp only [Function.comp_def, size_cons, Nat.add_assoc]
    rw [closeFrom]
    by_cases hopen : m.isCode '(' = true
    · rw [if_pos hopen, ih, hmore]
      cases inner <;> simp only [upToClose, hopen, if_true]
    rw [if_neg hopen]
    by_cases hclose : m.isCode ')' = true
    · rw [if_pos hclose, if_neg (Nat.succ_ne_zero inner), Nat.add_sub_cancel]
      cases inner with
      | zero => simp [upToClose, hopen, hclose]
      | succ below =>
        rw [if_neg (Nat.succ_ne_zero below), ih, hmore]
        simp only [upToClose, hopen, hclose, if_true, if_false, Bool.false_eq_true]
    · rw [if_neg hclose, ih, hmore]
      cases inner <;> simp only [upToClose, hopen, hclose, if_false, Bool.false_eq_true]

theorem spanUnder_eq {escapes : Escapes} {t rest : Text} {start : Nat}
    (h : t.atByte? start = some ('(' :: rest)) :
    spanUnder escapes t start = .ok ((upToClose 0 (marks escapes rest)).map fun inner =>
      (start, start + 1 + size inner)) := by
  have hcut : t.sliceFrom start = .ok ('(' :: rest) := by rw [sliceFrom, h]
  have hclose : closeFrom 0 0 (marks escapes ('(' :: rest)) =
      .ok ((upToClose 0 (marks escapes rest)).map fun inner => 1 + size inner) :=
    closeFrom_succ 0 1 _
  rw [spanUnder, hcut]
  show (closeFrom 0 0 (marks escapes ('(' :: rest)) >>= _) = _
  rw [hclose]
  show Except.ok _ = Except.ok _
  rw [Option.map_map]
  simp only [Function.comp_def, Nat.add_assoc]

/-- The count gives the enclosure, whatever the offset. -/
theorem spanAt_eq (t : Text) (start : Nat) : t.spanAt start = .ok (t.enclosure? start) := by
  rw [spanAt, enclosure?]
  by_cases h : ∃ rest, t.atByte? start = some ('(' :: rest)
  · rw [if_pos ((getElem?_bytes_eq_parenthesis_iff t start).mpr h)]
    obtain ⟨rest, hrest⟩ := h
    rw [spanUnder_eq hrest, spanUnder_eq hrest, hrest]
    show _ = Except.ok ((enclosed? rest).map _)
    rw [enclosed?]
    cases upToClose 0 (marks .standard rest) <;> rfl
  · rw [if_neg (mt (getElem?_bytes_eq_parenthesis_iff t start).mp h)]
    split
    · rename_i rest hrest
      exact absurd ⟨rest, hrest⟩ h
    · rfl

end Text
end SqlAudit
