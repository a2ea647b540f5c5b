import SqlAudit.Proofs.Schema.Declaration
import SqlAudit.Proofs.Schema.PlainName

/-!
Names and lists of names are read as they are written.
-/

namespace SqlAudit

open Text Pattern

namespace Text

theorem ne_of_isIdentifierChar {c d : Char} (hc : isIdentifierChar c = true)
    (hd : isIdentifierChar d = false) : c ≠ d := by
  rintro rfl
  rw [hc] at hd
  cases hd

theorem Tidy.of_identifierChars {commas : Bool} {t : Text}
    (h : ∀ c ∈ t, isIdentifierChar c = true) : Tidy commas t :=
  Tidy.of_nameChars fun c hc => .inl (isNameChar_of_isIdentifierChar (h c hc))

theorem Stops.trimStart_eq {t : Text} (h : Stops isBlank t) : trimStart t = t := by
  cases t with
  | nil => rfl
  | cons c t => exact trimStart_eq_self ((stops_cons _ _ _).mp h)

end Text

namespace Identifier

variable (x : Identifier)

theorem tidy {commas : Bool} : Tidy commas x.text :=
  Tidy.of_identifierChars fun _ hc => x.isIdentifierChar_of_mem hc

theorem stops_of_append {accepts : Char → Bool} (h : ∀ c, isIdentifierChar c = true →
    accepts c = false) (rest : Text) : Stops accepts (x.text ++ rest) := by
  obtain ⟨c, more, hx, hc, -⟩ := x.exists_cons
  rw [hx, List.cons_append, stops_cons]
  exact h c hc

theorem stops_isBlank (rest : Text) : Stops isBlank (x.text ++ rest) :=
  x.stops_of_append (fun _ => isBlank_eq_false_of_isIdentifierChar) rest

theorem isBareName : x.text.isBareName = true := by
  have hchars : x.text.all isNameChar = true :=
    List.all_eq_true.mpr fun _ hc => x.isNameChar_of_mem hc
  rw [Text.isBareName, hchars, Bool.and_true, Bool.not_eq_true', List.isEmpty_eq_false_iff]
  exact x.ne_nil

theorem isPlainName : x.text.isPlainName = true := isPlainName_of_isBareName x.isBareName

theorem bareName_text : bareName x.text = x.name :=
  bareName_eq fun _ hc => .inl (x.isNameChar_of_mem hc)

theorem name_ne_empty : x.name ≠ "" := by
  intro h
  have hnil := congrArg String.toList h
  rw [name, String.toList_ofList] at hnil
  exact x.ne_nil hnil

/-- A name is read up to the first character that is none of its own. -/
theorem first?_name {β : Type} {k : Way → Option β} {before rest : Text} {captures : List Capture}
    (hrest : Stops isNameChar rest) {v : β}
    (h : k ⟨⟨x.text.reverse ++ before, rest⟩, captures⟩ = some v) :
    Pattern.name.first? k ⟨⟨before, x.text ++ rest⟩, captures⟩ = some v :=
  first?_name_of_some x.ne_nil (fun _ hc => x.isNameChar_of_mem hc) hrest h

theorem first?_dottedName {β : Type} {k : Way → Option β} {before rest : Text}
    {captures : List Capture} (hrest : Stops isNameChar rest) (hdot : Stops (· == '.') rest)
    {v : β} (h : k ⟨⟨x.text.reverse ++ before, rest⟩, captures⟩ = some v) :
    dottedName.first? k ⟨⟨before, x.text ++ rest⟩, captures⟩ = some v := by
  have hnone : (seq (sign '.') Pattern.name).first? some
      ⟨⟨x.text.reverse ++ before, rest⟩, captures⟩ = none := by
    rw [first?_seq, sign]
    cases rest with
    | nil => exact first?_char_nil _ _
    | cons c rest =>
      rw [stops_cons] at hdot
      rw [first?_char_cons, hdot, if_neg (by simp)]
  rw [dottedName, first?_seq]
  apply x.first?_name hrest
  rw [first?_star_of_none hnone, h]

theorem first?_plainWord {β : Type} {k : Way → Option β} {before rest : Text}
    {captures : List Capture} (hrest : Stops isWordChar rest) {v : β}
    (h : k ⟨⟨x.text.reverse ++ before, rest⟩, captures⟩ = some v) :
    plainWord.first? k ⟨⟨before, x.text ++ rest⟩, captures⟩ = some v := by
  have hword := fun c hc => x.isWordChar_of_mem (c := c) hc
  obtain ⟨text, hvalid⟩ := x
  cases text with
  | nil => cases hvalid
  | cons c more =>
    have hstart : isWordStart c = true := by
      rw [isIdentifier, Bool.and_eq_true] at hvalid
      rw [isWordStart, hvalid.1]
      rfl
    rw [plainWord, first?_seq, List.cons_append, first?_char_cons, if_pos hstart]
    apply first?_many_of_some (fun d hd => hword d (List.mem_cons_of_mem c hd)) hrest
    simpa using h

end Identifier
end SqlAudit
