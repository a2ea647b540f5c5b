import SqlAudit.Proofs.Lexical.Statements
import SqlAudit.Proofs.Schema.FragmentAccounting

/-!
Recovered tables and skipped fragments lie in their document: the line that each one gives is the
line of an offset inside it.
-/

namespace SqlAudit

open Text

namespace Text

/-! ## Parts of a text -/

theorem eq_append_of_splitOnce? {needle t front rest : Text}
    (h : splitOnce? needle t = some (front, rest)) : t = front ++ needle ++ rest := by
  induction t generalizing front with
  | nil =>
    rw [splitOnce?] at h
    split at h
    · rename_i hneedle
      obtain ⟨rfl, rfl⟩ := Prod.mk.inj (Option.some.inj h)
      simpa using hneedle
    · simp at h
  | cons c others ih =>
    rw [splitOnce?] at h
    split at h
    · rename_i hprefix
      obtain ⟨rfl, rfl⟩ := Prod.mk.inj (Option.some.inj h)
      obtain ⟨rest, hrest⟩ := List.isPrefixOf_iff_prefix.mp hprefix
      rw [← hrest, List.nil_append, List.drop_left]
    · obtain ⟨⟨front', rest'⟩, hfound, heq⟩ := Option.map_eq_some_iff.mp h
      obtain ⟨rfl, rfl⟩ := Prod.mk.inj heq
      rw [ih hfound]
      rfl

theorem exists_eq_append_of_upToClose {inner : Nat} {ms : List Mark} {body : Text}
    (h : upToClose inner ms = some body) : ∃ rest, ms.map Mark.char = body ++ ')' :: rest := by
  induction ms generalizing inner body with
  | nil => simp [upToClose] at h
  | cons m others ih =>
    have hmore : ∀ n, (upToClose n others).map (m.char :: ·) = some body →
        ∃ rest, (m :: others).map Mark.char = body ++ ')' :: rest := by
      intro n h
      obtain ⟨body', hbody', rfl⟩ := Option.map_eq_some_iff.mp h
      obtain ⟨rest, hrest⟩ := ih hbody'
      exact ⟨rest, by rw [List.map_cons, hrest]; rfl⟩
    unfold upToClose at h
    split at h
    · exact hmore _ h
    · split at h
      · rename_i hclose
        have hchar : m.char = ')' := by
          rw [Mark.isCode, Bool.and_eq_true, beq_iff_eq] at hclose
          exact hclose.2
        split at h
        · rw [← Option.some.inj h]
          exact ⟨others.map Mark.char, by rw [List.map_cons, hchar]; rfl⟩
        · exact hmore _ h
      · exact hmore _ h

/-- What a pair of parentheses encloses is followed by the closing one. -/
theorem exists_eq_append_of_enclosed? {t body : Text} (h : t.enclosed? = some body) :
    ∃ rest, t = body ++ ')' :: rest := by
  rw [enclosed?, Option.or_eq_some_iff] at h
  rcases h with h | ⟨-, h⟩
  · simpa using exists_eq_append_of_upToClose h
  · simpa using exists_eq_append_of_upToClose h

/-- A number of a line on which some byte of the text lies. -/
def IsLineOf (t : Text) (n : Nat) : Prop := ∃ offset, offset < size t ∧ n = lineAt t offset

end Text

namespace Extraction

/-! ## Fragments -/

theorem lt_of_mem_locate {start : Nat} {body : Text} {fragments : List Text} {fragment : Text}
    {offset : Nat} (h : (fragment, some offset) ∈ locate start body fragments) :
    offset < start + size body := by
  induction fragments generalizing start body with
  | nil => simp [locate] at h
  | cons first more ih =>
    rw [locate] at h
    split at h
    · rcases List.mem_cons.mp h with h | h
      · simp at h
      · exact ih h
    · rename_i hne
      split at h
      · rename_i front left hsplit
        have hbody := congrArg size (eq_append_of_splitOnce? hsplit)
        rw [size_append, size_append] at hbody
        rcases List.mem_cons.mp h with h | h
        · obtain ⟨-, hoffset⟩ := Prod.mk.inj h
          have hfirst : 0 < size first := size_pos_of_ne_nil (by simpa using hne)
          rw [Option.some.inj hoffset]
          omega
        · have := ih h
          omega
      · rcases List.mem_cons.mp h with h | h
        · simp at h
        · exact ih h

/-- The line of the table, and those of the fragments skipped so far, lie in the document. -/
def Placed (document : Text) (line : Nat) (built : Table × List SkippedFragment) : Prop :=
  built.1.line = line ∧ ∀ skipped ∈ built.2, document.IsLineOf skipped.line

theorem placed_buildTable {document : Text} {name : String} {line start : Nat} {body : Text}
    (hline : document.IsLineOf line) (hbody : start + size body ≤ size document) :
    Placed document line (buildTable document name line start body) := by
  rw [buildTable_eq]
  refine ⟨rfl, fun entry hentry => ?_⟩
  obtain ⟨⟨fragment, place⟩, hfragment, hskipped⟩ := List.mem_filterMap.mp hentry
  obtain ⟨issue, -, rfl⟩ := Option.map_eq_some_iff.mp hskipped
  -- A fragment without a place of its own is put on the line of the table.
  cases place with
  | none => exact hline
  | some offset =>
    have hplace := lt_of_mem_locate hfragment
    exact ⟨offset, by omega, rfl⟩

/-! ## Tables -/

theorem stop_offset_add_size_le {p : Pattern} {document body : Text} {m : Match}
    (hm : m ∈ p.findAll document) (hbody : m.stop.after.enclosed? = some body) :
    m.stop.offset + size body ≤ size document := by
  obtain ⟨hreach, hmatch⟩ := Pattern.of_mem_findAll hm
  have hways := (Pattern.of_matchAt?_eq_some hmatch).2
  have hstop : m.stop.text = document :=
    (hreach.trans (Pattern.reaches_of_mem_ways hways)).text_eq
  obtain ⟨rest, hrest⟩ := exists_eq_append_of_enclosed? hbody
  rw [← hstop, Cursor.text, hrest, size_append, size_append, size_reverse, Cursor.offset]
  omega

def AllPlaced (document : Text) (e : Extraction) : Prop :=
  (∀ table ∈ e.tables, document.IsLineOf table.line) ∧
    ∀ skipped ∈ e.skipped, document.IsLineOf skipped.line

theorem allPlaced_addTable {document : Text} {found : Extraction}
    (hfound : AllPlaced document found) {m : Match}
    (hm : m ∈ createTablePattern.findAll document) :
    AllPlaced document (addTable document found m) := by
  obtain ⟨hreach, hmatch⟩ := Pattern.of_mem_findAll hm
  have hline : document.IsLineOf (document.lineAt m.start.offset) :=
    ⟨_, Pattern.start_offset_lt (by decide) hreach hmatch, rfl⟩
  rw [addTable]
  split
  · exact hfound
  · rename_i body hbody
    have hend : m.stop.offset + size body ≤ size document :=
      stop_offset_add_size_le hm hbody
    have hbuilt : Placed document _ (buildTable document (Text.bareName (m.textOf .table))
        (document.lineAt m.start.offset) m.stop.offset body) := placed_buildTable hline hend
    obtain ⟨htables, hskipped⟩ := hfound
    constructor
    · intro table htable
      rcases List.mem_append.mp htable with htable | htable
      · exact htables table htable
      · rw [List.mem_singleton.mp htable, hbuilt.1]
        exact hline
    · intro skipped hmem
      rcases List.mem_append.mp hmem with hmem | hmem
      · exact hskipped skipped hmem
      · exact hbuilt.2 skipped hmem

theorem allPlaced_foldl_addTable {document : Text} {ms : List Match} {found : Extraction}
    (hfound : AllPlaced document found)
    (hms : ∀ m ∈ ms, m ∈ createTablePattern.findAll document) :
    AllPlaced document (ms.foldl (addTable document) found) := by
  induction ms generalizing found with
  | nil => exact hfound
  | cons m rest ih =>
    rw [List.foldl_cons]
    exact ih (allPlaced_addTable hfound (hms m List.mem_cons_self))
      (fun other hother => hms other (List.mem_cons_of_mem _ hother))

theorem map_modifyFirst {α β : Type} {test : α → Bool} {change : α → α} {f : α → β}
    (hchange : ∀ a, f (change a) = f a) (l : List α) :
    (modifyFirst test change l).map f = l.map f := by
  induction l with
  | nil => rfl
  | cons a rest ih =>
    rw [modifyFirst]
    split
    · rw [List.map_cons, List.map_cons, hchange]
    · rw [List.map_cons, List.map_cons, ih]

/-- An added index changes nothing of a table besides its indexes. -/
theorem map_addIndex {β : Type} {f : Table → β} (hf : ∀ table indexes, f { table with indexes } = f table)
    (tables : List Table) (m : Match) : (addIndex tables m).map f = tables.map f := by
  rw [addIndex]
  split
  · rfl
  · dsimp only
    split
    · rfl
    · apply map_modifyFirst
      intro table
      exact hf table _

theorem map_line_foldl_addIndex (ms : List Match) (tables : List Table) :
    (ms.foldl addIndex tables).map Table.line = tables.map Table.line := by
  induction ms generalizing tables with
  | nil => rfl
  | cons m rest ih => rw [List.foldl_cons, ih, map_addIndex fun _ _ => rfl]

theorem map_line_resolveReferences (tables : List Table) :
    (resolveReferences tables).map Table.line = tables.map Table.line := by
  rw [resolveReferences, List.map_map]
  rfl

/-- Tables and skipped fragments give lines of the document without comments. -/
theorem allPlaced_ofText (sql : Text) :
    AllPlaced (sql.blankComments false) (ofText sql) := by
  have hempty : AllPlaced (sql.blankComments false) {} := ⟨by simp, by simp⟩
  have hfound := allPlaced_foldl_addTable hempty fun m hm => hm
  refine ⟨fun table htable => ?_, hfound.2⟩
  have hline := List.mem_map_of_mem (f := Table.line) htable
  simp only [ofText, map_line_resolveReferences, map_line_foldl_addIndex] at hline
  obtain ⟨other, hother, heq⟩ := List.mem_map.mp hline
  rw [← heq]
  exact hfound.1 other hother

end Extraction
end SqlAudit
