import SqlAudit.Proofs.Lexical.Cutting
import SqlAudit.Proofs.Lexical.Masking
import SqlAudit.Proofs.Lexical.Nesting
import SqlAudit.Proofs.Pattern.Extension
import SqlAudit.Proofs.Schema.Placement
import SqlAudit.Proofs.Text.Identifier
import SqlAudit.Proofs.Text.Trim
import SqlAudit.Schema.Column

/-!
Reading columns by offsets.  A column can be read by slicing its fragment at byte offsets: where the
name, the type and the arguments end, where the first word ends, where `DEFAULT` ends in the tail
with masked literals, and where a literal or a call ends.  For every fragment this reading gives the
column that is read character by character, and so none of its slices is refused.
-/

namespace SqlAudit

open Text Pattern

/-! ## First words -/

namespace Text

theorem exists_append_of_pieces {stop : Char → Bool} {t piece : Text} {more : List Text}
    (h : pieces stop t = piece :: more) : ∃ rest, t = piece ++ rest := by
  induction t generalizing piece more with
  | nil =>
    rw [pieces] at h
    rw [← (List.cons.inj h).1]
    exact ⟨[], rfl⟩
  | cons c t ih =>
    rw [pieces] at h
    split at h
    · rw [← (List.cons.inj h).1]
      exact ⟨c :: t, rfl⟩
    · obtain ⟨first, others, hpieces⟩ := List.exists_cons_of_ne_nil (pieces_ne_nil stop t)
      rw [hpieces, extend] at h
      obtain ⟨rest, rfl⟩ := ih hpieces
      rw [← (List.cons.inj h).1]
      exact ⟨rest, rfl⟩

/-- A text without blanks at its start starts with its first word. -/
theorem exists_append_headD_words (t : Text) :
    ∃ rest, t.trimStart = (words t.trimStart).headD [] ++ rest := by
  rcases trimStart_eq_nil_or t with hnil | ⟨c, rest, hcons, hc⟩
  · rw [hnil]
    exact ⟨[], rfl⟩
  · rw [hcons]
    obtain ⟨piece, more, hpieces⟩ := List.exists_cons_of_ne_nil (pieces_ne_nil isBlank rest)
    have hfirst : pieces isBlank (c :: rest) = (c :: piece) :: more := by
      rw [pieces, if_neg (by simp [hc]), hpieces, extend]
    obtain ⟨others, hothers⟩ := exists_append_of_pieces hfirst
    refine ⟨others, ?_⟩
    rw [words, hfirst, List.filter_cons, if_pos (by simp), List.headD_cons]
    exact hothers

theorem utf8Size_toUpper (c : Char) : c.toUpper.utf8Size = c.utf8Size := by
  have hupper := toNat_toUpper c
  have hsmall : ∀ d : Char, d.toNat ≤ 127 → d.utf8Size = 1 := by
    intro d hd
    exact Char.utf8Size_eq_one_iff.mpr (UInt32.le_iff_toNat_le.mpr hd)
  by_cases h : 97 ≤ c.toNat ∧ c.toNat ≤ 122
  · rw [if_pos h] at hupper
    rw [hsmall c (by omega), hsmall c.toUpper (by omega)]
  · rw [if_neg h] at hupper
    rw [Char.ext (UInt32.toNat_inj.mp hupper)]

theorem size_map_toUpper (t : Text) : size (t.map Char.toUpper) = size t := by
  induction t with
  | nil => rfl
  | cons c rest ih => rw [List.map_cons, size_cons, size_cons, ih, utf8Size_toUpper]

end Text

namespace Column

/-! ## The reading by offsets -/

/-- Where a word ends that stands for a default value. -/
def endsWord (c : Char) : Bool := isBlank c || c == ',' || c == '('

/-- The word that ends at an offset, with the arguments of a call. -/
def sliceWord (body : Text) (wordEnd : Nat) : Except Slip Text := do
  let rest ← body.sliceFrom wordEnd
  if rest.head? = some '(' then
    match ← body.spanAt wordEnd with
    | some (_, close) => body.sliceTo (close + 1)
    | none => body.sliceTo wordEnd
  else body.sliceTo wordEnd

def sliceDefault? (t : Text) : Except Slip (Option Text) :=
  let body := t.trimStart
  match body.head? with
  | none => .ok none
  | some first =>
    if first = '\x27' ∨ first = '\x22' then do
      let rest ← body.sliceFrom 1
      return some (literal first rest)
    else if first = '(' then do
      match ← body.spanAt 0 with
      | some (opening, close) => some <$> body.slice opening (close + 1)
      | none => return none
    else do
      let value ← sliceWord body (Text.size (body.takeWhile (!endsWord ·)))
      return if value.isEmpty then none else some value

/-- Sets what the modifiers say.  Only the default value is sliced from the tail itself: the place
after `DEFAULT` is an offset of the mask. -/
def sliceModifiers (column : Column) (tail : Text) : Except Slip Column := do
  let value ← (match defaultPattern.find? tail.mask with
    | some m => do
      let rest ← tail.sliceFrom m.stop.offset
      sliceDefault? rest
    | none => return none)
  return { column.withModifiers tail with default := value.map String.ofList }

def sliceConstraint (fragment : Text) : Except Slip Bool :=
  let body := fragment.trimStart
  let words := Text.words body
  let first := ((words.headD []).takeWhile (· != '(')).map Char.toUpper
  let is (keyword : String) : Bool := first == keyword.toList
  if is "CONSTRAINT" || is "CHECK" || is "FULLTEXT" || is "SPATIAL" || is "EXCLUDE" then .ok true
  else if is "PRIMARY" || is "FOREIGN" then
    .ok ((words[1]?).any fun second => "KEY".toList.isPrefixOf (second.map Char.toUpper))
  else if is "KEY" || is "INDEX" || is "UNIQUE" then do
    let rest ← body.sliceFrom (Text.size first)
    match typePattern.find? rest.trimStart with
    | some m => opensColumnList <$> rest.trimStart.sliceFrom m.stop.offset
    | none => return true
  else .ok false

def sliceColumn (fragment : Text) : Except Slip (Except ColumnIssue Column) :=
  let fragment := fragment.trim
  if fragment.isEmpty then .ok (.error .empty)
  else do
    if ← sliceConstraint fragment then return .error .constraint
    else match namePattern.find? fragment with
      | none => return .error .empty
      | some nameMatch =>
        let name := String.ofList (nameMatch.textOf .name)
        let afterName ← fragment.sliceFrom nameMatch.stop.offset
        let rest := afterName.trimStart
        match typePattern.find? rest with
        | none =>
          let found := (pieces (fun c => isBlank c || c == '(') rest).find? (!·.isEmpty)
          return .error (.unknownType name (found.map String.ofList))
        | some typeMatch =>
          let type := String.ofList (upper typeMatch.text.squeeze)
          let column : Column := { name, type, isAutoIncrement := serialTypes.contains type }
          let tail ← rest.sliceFrom typeMatch.stop.offset
          match argumentsPattern.find? tail with
          | some m => do
            let modifiers ← tail.sliceFrom m.stop.offset
            .ok <$> sliceModifiers (column.withArguments (m.textOf .arguments)) modifiers
          | none => .ok <$> sliceModifiers column tail

/-! ## Default values -/

theorem size_call (word inner : Text) :
    Text.size (word ++ '(' :: inner ++ [')']) = Text.size word + 1 + Text.size inner + 1 := by
  rw [size_append, size_append, size_cons]
  show Text.size word + (1 + Text.size inner) + 1 = _
  omega

/-- A word and the arguments of a call are sliced behind the closing parenthesis. -/
theorem sliceTo_call (word inner rest : Text) :
    sliceTo (word ++ '(' :: (inner ++ ')' :: rest)) (Text.size word + 1 + Text.size inner + 1) =
      .ok (word ++ '(' :: inner ++ [')']) := by
  have hslice := sliceTo_append (word ++ '(' :: inner ++ [')']) rest
  rw [size_call] at hslice
  simpa using hslice

theorem sliceWord_append (word after : Text) :
    sliceWord (word ++ after) (Text.size word) = .ok (match after with
      | '(' :: call =>
        match enclosed? call with
        | some inner => word ++ '(' :: inner ++ [')']
        | none => word
      | _ => word) := by
  rw [sliceWord, sliceFrom_append]
  show (if after.head? = some '(' then _ else _) = _
  split
  · rename_i hhead
    obtain ⟨call, rfl⟩ : ∃ call, after = '(' :: call := by
      cases after with
      | nil => cases hhead
      | cons c call => exact ⟨call, by rw [Option.some.inj hhead]⟩
    rw [spanAt_eq, enclosure?_append]
    show _ = Except.ok (match enclosed? call with
      | some inner => word ++ '(' :: inner ++ [')']
      | none => word)
    cases hinner : enclosed? call with
    | none => exact sliceTo_append word ('(' :: call)
    | some inner =>
      obtain ⟨more, rfl⟩ := exists_eq_append_of_enclosed? hinner
      exact sliceTo_call word inner more
  · rename_i hhead
    rw [sliceTo_append]
    split
    · exact absurd rfl hhead
    · rfl

theorem sliceDefault?_eq (t : Text) : sliceDefault? t = .ok (defaultValue? t) := by
  rw [sliceDefault?, defaultValue?]
  cases t.trimStart with
  | nil => rfl
  | cons c rest =>
    simp only [List.head?_cons]
    by_cases hquote : c = '\x27' ∨ c = '\x22'
    · have hone : Text.size [c] = 1 := by rcases hquote with rfl | rfl <;> rfl
      have hrest : sliceFrom (c :: rest) 1 = .ok rest := hone ▸ sliceFrom_append [c] rest
      rw [if_pos hquote, if_pos hquote, hrest]
      rfl
    rw [if_neg hquote, if_neg hquote]
    by_cases hparen : c = '('
    · subst hparen
      rw [if_pos rfl, if_pos rfl, spanAt_eq]
      have hspan : enclosure? ('(' :: rest) 0 = _ := enclosure?_append [] rest
      rw [hspan]
      cases hinner : enclosed? rest with
      | none => rfl
      | some inner =>
        obtain ⟨more, rfl⟩ := exists_eq_append_of_enclosed? hinner
        have hslice : slice ('(' :: (inner ++ ')' :: more)) 0 (0 + 1 + Text.size inner + 1) =
            .ok ('(' :: inner ++ [')']) := sliceTo_call [] inner more
        show some <$> slice _ _ _ = _
        rw [size_nil, hslice]
        rfl
    rw [if_neg hparen, if_neg hparen]
    have hbody : (c :: rest).takeWhile (!endsWord ·) ++ (c :: rest).dropWhile (!endsWord ·) =
        c :: rest := List.takeWhile_append_dropWhile
    have hword := sliceWord_append ((c :: rest).takeWhile (!endsWord ·))
      ((c :: rest).dropWhile (!endsWord ·))
    rw [hbody] at hword
    rw [hword]
    rfl

/-! ## The place after `DEFAULT` -/

/-- A match of `DEFAULT` in a mask ends outside literals: the mask shows its last letter and the
blanks after it as they stand in the text.  So it ends at a place of the text as well. -/
theorem exists_append_of_default {tail : Text} {m : Match}
    (h : defaultPattern.find? tail.mask = some m) :
    ∃ front rest, tail = front ++ rest ∧ m.stop.offset = Text.size front := by
  obtain ⟨hstart, hmatch⟩ := reaches_of_findFrom? h
  have hway : ⟨m.stop, m.captures⟩ ∈ (seq edge (seq
      (all (("DEFAUL".toList.map fun c => char (sameLetter c)) ++ [char (sameLetter 'T')]))
      (seq (char isBlank) (run false isBlank)))).ways ⟨m.start, []⟩ :=
    (of_matchAt?_eq_some hmatch).2
  obtain ⟨first, hedge, hmore⟩ := List.mem_flatMap.mp hway
  obtain ⟨word, hword, hgap⟩ := List.mem_flatMap.mp hmore
  obtain ⟨letters, hletters, hlast⟩ := mem_ways_all_append.mp hword
  obtain ⟨blank, hblank, hrun⟩ := List.mem_flatMap.mp hgap
  obtain ⟨c, hc, hread⟩ := exists_of_mem_ways_char hlast
  obtain ⟨d, hd, hafter⟩ := exists_of_mem_ways_char hblank
  obtain ⟨x, hx, hrest⟩ := exists_of_mem_ways_run hrun
  rw [hafter, hrest] at hread
  have hletter : (Cursor.first tail.mask).Reaches letters.cursor :=
    (hstart.trans (reaches_of_mem_ways hedge)).trans (reaches_of_mem_ways hletters)
  have hmask : tail.mask = letters.cursor.before.reverse ++ c :: (d :: x ++ m.stop.after) := by
    rw [← Cursor.text_first tail.mask, ← hletter.text_eq, Cursor.text, hread]
    rfl
  have hspace : c ≠ ' ' := by
    rintro rfl
    exact absurd hc (by decide)
  have hquote : c ≠ '\x27' := by
    rintro rfl
    exact absurd hc (by decide)
  obtain ⟨before, after, rfl, hsize, hshown⟩ := exists_of_maskFrom_eq hmask hspace hquote
  have hblanks : '\x27' ∉ d :: x := by
    intro hmem
    rcases List.mem_cons.mp hmem with rfl | hmem
    · exact absurd hd (by decide)
    · exact absurd (hx _ hmem) (by decide)
  obtain ⟨rest, rfl⟩ := exists_of_maskFrom_outside_eq hshown hblanks
  refine ⟨before ++ c :: d :: x, rest, by simp, ?_⟩
  obtain ⟨mid, hmid, hbefore⟩ : letters.cursor.Reaches m.stop :=
    ((reaches_of_mem_ways hlast).trans (reaches_of_mem_ways hblank)).trans
      (reaches_of_mem_ways hrun)
  rw [hread, ← List.cons_append] at hmid
  have hspan : c :: d :: x = mid := List.append_cancel_right hmid
  rw [Cursor.offset, hbefore, ← hspan]
  simp only [size_append, size_reverse, hsize, Nat.add_comm]

theorem sliceModifiers_eq (column : Column) (tail : Text) :
    sliceModifiers column tail = .ok (column.withModifiers tail) := by
  rw [sliceModifiers, withModifiers]
  cases hdefault : defaultPattern.find? tail.mask with
  | none => rfl
  | some m =>
    obtain ⟨front, rest, rfl, hoffset⟩ := exists_append_of_default hdefault
    have hrest : (front ++ rest).sliceFrom m.stop.offset = .ok rest := by
      rw [hoffset, sliceFrom_append]
    have hdrop : (front ++ rest).dropBytes m.stop.offset = rest := by
      rw [hoffset, dropBytes_append]
    simp only [hrest, Option.bind_some, hdrop]
    show (sliceDefault? rest >>= _) = _
    rw [sliceDefault?_eq]
    rfl

/-! ## Fragments -/

theorem sliceConstraint_eq (fragment : Text) :
    sliceConstraint fragment = .ok (isConstraint fragment) := by
  obtain ⟨more, hmore⟩ := exists_append_headD_words fragment
  have hrest : fragment.trimStart.sliceFrom (Text.size
      ((((words fragment.trimStart).headD []).takeWhile (· != '(')).map Char.toUpper)) =
        .ok (fragment.trimStart.drop
          (((words fragment.trimStart).headD []).takeWhile (· != '(')).length) := by
    rw [size_map_toUpper]
    generalize (words fragment.trimStart).headD [] = word at hmore
    rw [← List.takeWhile_append_dropWhile (p := (· != '(')) (l := word), List.append_assoc] at hmore
    rw [hmore, sliceFrom_append, List.drop_left]
  rw [sliceConstraint, isConstraint]
  simp only [hrest]
  split
  · rfl
  split
  · rfl
  split
  · generalize fragment.trimStart.drop _ = rest
    show (match typePattern.find? (trimStart rest) with
      | some m => opensColumnList <$> (trimStart rest).sliceFrom m.stop.offset
      | none => .ok true) = _
    cases hm : typePattern.find? (trimStart rest) with
    | none => rfl
    | some m =>
      show opensColumnList <$> (trimStart rest).sliceFrom m.stop.offset = _
      rw [sliceFrom_stop hm]
      rfl
  · rfl

theorem sliceColumn_eq (fragment : Text) : sliceColumn fragment = .ok (parse fragment) := by
  rw [sliceColumn, parse]
  generalize fragment.trim = fragment
  dsimp only
  split
  · rfl
  rw [sliceConstraint_eq]
  simp only [bind, Except.bind, pure, Except.pure]
  split
  · rfl
  cases hname : namePattern.find? fragment with
  | none => rfl
  | some nameMatch =>
    simp only [sliceFrom_stop hname]
    cases htype : typePattern.find? (trimStart nameMatch.stop.after) with
    | none => rfl
    | some typeMatch =>
      simp only [sliceFrom_stop htype]
      cases harguments : argumentsPattern.find? typeMatch.stop.after with
      | none =>
        simp only [sliceModifiers_eq]
        rfl
      | some m =>
        simp only [sliceFrom_stop harguments, sliceModifiers_eq]
        rfl

/-- No slice of a fragment or of a part of it is out of place, and no parenthesis is counted as
closed that is not open: the readings by offsets give what is read character by character. -/
theorem slices_in_place :
    (∀ (t : Text) (start : Nat), t.spanAt start = .ok (t.enclosure? start)) ∧
      (∀ t : Text, sliceDefault? t = .ok (defaultValue? t)) ∧
      (∀ (column : Column) (tail : Text),
        sliceModifiers column tail = .ok (column.withModifiers tail)) ∧
      (∀ fragment : Text, sliceConstraint fragment = .ok (isConstraint fragment)) ∧
      ∀ fragment : Text, sliceColumn fragment = .ok (parse fragment) :=
  ⟨spanAt_eq, sliceDefault?_eq, sliceModifiers_eq, sliceConstraint_eq, sliceColumn_eq⟩

end Column
end SqlAudit
