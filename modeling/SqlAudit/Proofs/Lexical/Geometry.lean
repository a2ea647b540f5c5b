import Mathlib.Data.List.Forall2
import SqlAudit.Proofs.Lexical.Literals

/-!
The geometry of a text without comments, byte for byte.  Each byte is the byte of the source at the
same offset or a space, newlines stand where they stood, and so every offset lies on the line on
which it lies in the source.
-/

namespace SqlAudit

namespace Text

def bytes (t : Text) : List UInt8 := t.flatMap String.utf8EncodeChar

def newlineByte : UInt8 := 10

def spaceByte : UInt8 := 32

theorem bytes_cons (c : Char) (t : Text) : bytes (c :: t) = String.utf8EncodeChar c ++ bytes t :=
  List.flatMap_cons

theorem bytes_append (a b : Text) : bytes (a ++ b) = bytes a ++ bytes b := List.flatMap_append

theorem bytes_blanks (c : Char) :
    bytes (blanks c) = (String.utf8EncodeChar c).map fun _ => spaceByte := by
  rw [bytes, flatMap_utf8EncodeChar_blanks, List.map_const', String.length_utf8EncodeChar]
  rfl

/-- A seven-bit byte stands only for itself. -/
theorem toNat_eq_of_mem_utf8EncodeChar {n : Nat} (hn : n < 128) {c : Char}
    (h : UInt8.ofNat n ∈ String.utf8EncodeChar c) : c.val.toNat = n := by
  have hcode : ∀ m : Nat, UInt8.ofNat n = UInt8.ofNat m → m % 256 = n := by
    intro m hm
    have hmod : n % 256 = m % 256 := by simpa using congrArg UInt8.toNat hm
    omega
  rw [String.utf8EncodeChar] at h
  split at h
  · have := hcode _ (List.mem_singleton.mp h)
    omega
  · -- All bytes of a longer form have their highest bit set.
    exfalso
    split at h
    · simp only [List.mem_cons, List.not_mem_nil, or_false] at h
      rcases h with h | h <;> have := hcode _ h <;> omega
    · split at h
      · simp only [List.mem_cons, List.not_mem_nil, or_false] at h
        rcases h with h | h | h <;> have := hcode _ h <;> omega
      · simp only [List.mem_cons, List.not_mem_nil, or_false] at h
        rcases h with h | h | h | h <;> have := hcode _ h <;> omega

theorem eq_newline_of_mem_utf8EncodeChar {c : Char} (h : newlineByte ∈ String.utf8EncodeChar c) :
    c = '\n' :=
  Char.ext (UInt32.toNat_inj.mp (toNat_eq_of_mem_utf8EncodeChar (n := 10) (by decide) h))

/-- Bytes related one by one are related at each offset; past the end there are none. -/
theorem getElem?_of_forall₂ {R : UInt8 → UInt8 → Prop} {bs bs' : List UInt8}
    (h : List.Forall₂ R bs bs') (offset : Nat) :
    bs'[offset]? = bs[offset]? ∨
      ∃ b b', bs[offset]? = some b ∧ bs'[offset]? = some b' ∧ R b b' := by
  induction h generalizing offset with
  | nil => exact .inl rfl
  | @cons b b' _ _ hb _ ih =>
    cases offset with
    | zero => exact .inr ⟨b, b', rfl, rfl, hb⟩
    | succ offset => exact ih offset

theorem pieces_append_of_forall {stop : Char → Bool} {a b : Text} (h : ∀ c ∈ a, stop c = false)
    {piece : Text} {more : List Text} (hb : pieces stop b = piece :: more) :
    pieces stop (a ++ b) = (a ++ piece) :: more := by
  induction a with
  | nil => exact hb
  | cons c rest ih =>
    rw [List.cons_append, pieces, if_neg (by simp [h c List.mem_cons_self]),
      ih fun d hd => h d (List.mem_cons_of_mem _ hd)]
    rfl

end Text

open Text

/-- The second byte is the first one, or a space in place of one that is no newline. -/
def BlankedByte (b b' : UInt8) : Prop := b' = b ∨ b' = spaceByte ∧ b ≠ newlineByte

namespace Blanking

variable {t u : Text}

theorem append {t' u' : Text} (h : Blanking t u) (h' : Blanking t' u') :
    Blanking (t ++ t') (u ++ u') := by
  induction h with
  | nil => exact h'
  | keep c _ ih => exact .keep c ih
  | blank hc _ ih =>
    rw [List.append_assoc]
    exact .blank hc ih

theorem forall₂_bytes (h : Blanking t u) : List.Forall₂ BlankedByte t.bytes u.bytes := by
  induction h with
  | nil => exact .nil
  | keep c _ ih =>
    rw [bytes_cons, bytes_cons]
    exact List.rel_append (List.forall₂_same.mpr fun b _ => .inl rfl) ih
  | @blank c t u hc _ ih =>
    rw [bytes_cons, bytes_append, bytes_blanks]
    refine List.rel_append ?_ ih
    rw [List.forall₂_map_right_iff]
    refine List.forall₂_same.mpr fun b hb => .inr ⟨rfl, ?_⟩
    rintro rfl
    exact hc (eq_newline_of_mem_utf8EncodeChar hb)

theorem getElem?_bytes (h : Blanking t u) (offset : Nat) :
    u.bytes[offset]? = t.bytes[offset]? ∨
      u.bytes[offset]? = some spaceByte ∧ t.bytes[offset]? ≠ some newlineByte := by
  rcases getElem?_of_forall₂ h.forall₂_bytes offset with heq | ⟨b, b', hb, hb', hblanked⟩
  · exact .inl heq
  · rw [hb, hb']
    rcases hblanked with rfl | ⟨rfl, hne⟩
    · exact .inl rfl
    · exact .inr ⟨rfl, fun hnewline => hne (Option.some.inj hnewline)⟩

/-- The pieces between newlines are blanked one by one. -/
theorem forall₂_pieces (h : Blanking t u) :
    List.Forall₂ Blanking (pieces (· == '\n') t) (pieces (· == '\n') u) := by
  have hjoin : ∀ {a a' t u : Text}, Blanking a a' → '\n' ∉ a → '\n' ∉ a' →
      List.Forall₂ Blanking (pieces (· == '\n') t) (pieces (· == '\n') u) →
      List.Forall₂ Blanking (pieces (· == '\n') (a ++ t)) (pieces (· == '\n') (a' ++ u)) := by
    intro a a' t u ha hnone hnone' h
    obtain ⟨piece, more, ht⟩ := List.exists_cons_of_ne_nil (pieces_ne_nil (· == '\n') t)
    obtain ⟨piece', more', hu⟩ := List.exists_cons_of_ne_nil (pieces_ne_nil (· == '\n') u)
    rw [ht, hu] at h
    obtain ⟨hpiece, hmore⟩ := List.forall₂_cons.mp h
    rw [pieces_append_of_forall (fun c hc => by simpa using ne_of_mem_of_not_mem hc hnone) ht,
      pieces_append_of_forall (fun c hc => by simpa using ne_of_mem_of_not_mem hc hnone') hu]
    exact .cons (ha.append hpiece) hmore
  induction h with
  | nil => exact .cons .nil .nil
  | @keep c t u _ ih =>
    by_cases hc : c = '\n'
    · subst hc
      exact .cons .nil ih
    · have hnone : '\n' ∉ [c] := by simpa using Ne.symm hc
      exact hjoin (.keep c .nil) hnone hnone ih
  | @blank c t u hc _ ih =>
    have hblank : Blanking [c] (blanks c) := by
      rw [← List.append_nil (blanks c)]
      exact .blank hc .nil
    exact hjoin hblank (by simpa using Ne.symm hc) (List.count_eq_zero.mp (count_blanks c)) ih

end Blanking

namespace Text

/-- Blanking comments keeps the geometry of a text: its length in bytes, the place of every newline
and with it the line of every offset.  Bytes that change become spaces, and the lines of the result
are those of the source, each with some characters blanked. -/
theorem blankComments_geometry (t : Text) (hash : Bool) :
    (t.blankComments hash).bytes.length = t.bytes.length ∧
      (∀ offset : Nat, (t.blankComments hash).bytes[offset]? = t.bytes[offset]? ∨
        (t.blankComments hash).bytes[offset]? = some spaceByte) ∧
      (∀ offset : Nat, (t.blankComments hash).bytes[offset]? = some newlineByte ↔
        t.bytes[offset]? = some newlineByte) ∧
      (∀ offset, (t.blankComments hash).lineAt offset = t.lineAt offset) ∧
      (t.blankComments hash).lines.length = t.lines.length ∧
      List.Forall₂ Blanking (pieces (· == '\n') t)
        (pieces (· == '\n') (t.blankComments hash)) := by
  have hblanking := blanking_blankComments t hash
  refine ⟨hblanking.forall₂_bytes.length_eq.symm, fun offset => ?_, fun offset => ?_,
    hblanking.lineAt_eq, hblanking.length_lines_eq, hblanking.forall₂_pieces⟩
  · rcases hblanking.getElem?_bytes offset with hkept | ⟨hspace, -⟩
    · exact .inl hkept
    · exact .inr hspace
  · rcases hblanking.getElem?_bytes offset with hkept | ⟨hspace, hother⟩
    · rw [hkept]
    · rw [hspace]
      exact ⟨fun h => absurd h (by decide), fun h => absurd h hother⟩

end Text
end SqlAudit
