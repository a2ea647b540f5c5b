import SqlAudit.Proofs.Schema.FragmentAccounting

/-!
Where the fragments of a list are found.  A fragment is searched for behind the one before it, and
the same text may stand in the list many times.  Still it is found where it was cut: up to the next
fragment that is not empty there are blanks and commas only, and such a fragment starts with
neither.
-/

namespace SqlAudit

open Text

namespace Text

/-! ## Where items are cut -/

def cuts (t : Text) : List Text := cutFrom ',' 0 (t.marks t.escapes)

/-- What stands before each of the items behind `front`, with the blanks that are trimmed off. -/
def frontsFrom (front : Text) : List Text → List Text
  | [] => []
  | cut :: more => (front ++ cut.takeWhile isBlank) :: frontsFrom (front ++ cut ++ [',']) more

/-- The items of a list, each with what stands before its first character. -/
def placedSegments (t : Text) : List (Text × Text) :=
  (frontsFrom [] t.cuts).zip (t.segments ',')

theorem Items.uncut {escapes : Escapes} {ts : List Text} (h : Items escapes ts) :
    ∀ t ∈ ts, Uncut escapes .top t := by
  induction h with
  | last ha => exact List.forall_mem_singleton.mpr ha
  | more ha _ _ ih => exact List.forall_mem_cons.mpr ⟨ha, ih⟩

theorem uncut_of_mem_cuts (t : Text) : ∀ cut ∈ t.cuts, Uncut t.escapes .top cut :=
  (items_itemsFrom t.escapes t).1.uncut

theorem intercalate_cuts (t : Text) : [','].intercalate t.cuts = t :=
  (items_itemsFrom t.escapes t).2

@[simp] theorem length_frontsFrom (front : Text) (cuts : List Text) :
    (frontsFrom front cuts).length = cuts.length := by
  induction cuts generalizing front with
  | nil => rfl
  | cons cut more ih => rw [frontsFrom, List.length_cons, ih, List.length_cons]

theorem frontsFrom_append (front gap : Text) (cuts : List Text) :
    frontsFrom (front ++ gap) cuts = (frontsFrom gap cuts).map (front ++ ·) := by
  induction cuts generalizing gap with
  | nil => rfl
  | cons cut more ih =>
    rw [frontsFrom, frontsFrom, List.map_cons, List.append_assoc, List.append_assoc front,
      List.append_assoc front, ih]

theorem isPrefix_dropTrailingEmpty (ts : List Text) : dropTrailingEmpty ts <+: ts := by
  rw [dropTrailingEmpty, ← List.reverse_suffix, List.reverse_reverse]
  exact List.dropWhile_suffix _

theorem isPrefix_segments (t : Text) : t.segments ',' <+: t.cuts.map trim :=
  isPrefix_dropTrailingEmpty _

theorem map_snd_placedSegments (t : Text) : t.placedSegments.map Prod.snd = t.segments ',' := by
  apply List.map_snd_zip
  have hlength := (isPrefix_segments t).length_le
  rwa [List.length_map, ← length_frontsFrom [] t.cuts] at hlength

theorem exists_takeWhile_trim (t : Text) :
    ∃ trail, t = t.takeWhile isBlank ++ (trim t ++ trail) ∧ ∀ c ∈ trail, isBlank c = true := by
  obtain ⟨trail, htrail, hblank⟩ := exists_trimEnd_append (trimStart t)
  refine ⟨trail, ?_, hblank⟩
  rw [trim, ← htrail, trimStart, List.takeWhile_append_dropWhile]

theorem isPrefix_intercalate_cons (sep t : Text) (ts : List Text) :
    t <+: sep.intercalate (t :: ts) := by
  cases ts with
  | nil => exact ⟨[], by rw [List.append_nil, List.intercalate_singleton]⟩
  | cons next more => exact ⟨_, by rw [List.intercalate_cons_cons, List.append_assoc]⟩

theorem isPrefix_of_mem_zip (front : Text) {cuts fragments : List Text}
    (h : fragments <+: cuts.map trim) :
    ∀ place ∈ (frontsFrom front cuts).zip fragments,
      place.1 ++ place.2 <+: front ++ [','].intercalate cuts := by
  induction cuts generalizing front fragments with
  | nil => simp [frontsFrom]
  | cons cut more ih =>
    cases fragments with
    | nil => simp
    | cons fragment fragments =>
      rw [List.map_cons, List.cons_prefix_cons] at h
      obtain ⟨rfl, hmore⟩ := h
      obtain ⟨trail, hcut, -⟩ := exists_takeWhile_trim cut
      rw [frontsFrom, List.zip_cons_cons, List.forall_mem_cons]
      constructor
      · obtain ⟨rest, hrest⟩ := isPrefix_intercalate_cons [','] cut more
        refine ⟨trail ++ rest, ?_⟩
        rw [← hrest]
        conv => rhs; rw [hcut]
        simp only [List.append_assoc]
      · cases more with
        | nil => simp [frontsFrom]
        | cons next more =>
          have hjoin : front ++ [','].intercalate (cut :: next :: more) =
              front ++ cut ++ [','] ++ [','].intercalate (next :: more) := by
            rw [List.intercalate_cons_cons]
            simp only [List.append_assoc]
          rw [hjoin]
          exact ih _ hmore

/-- Each item stands behind what stands before it. -/
theorem isPrefix_of_mem_placedSegments {t : Text} :
    ∀ place ∈ t.placedSegments, place.1 ++ place.2 <+: t := by
  have hplaces := isPrefix_of_mem_zip [] (isPrefix_segments t)
  rwa [intercalate_cuts] at hplaces

/-! ## The search for an item -/

/-- What may stand between two items that are not empty. -/
def IsGap (t : Text) : Prop := ∀ c ∈ t, isBlank c = true ∨ c = ','

theorem splitOnce?_append {c : Char} {front : Text} (h : c ∉ front) (needle rest : Text) :
    splitOnce? (c :: needle) (front ++ (c :: needle ++ rest)) = some (front, rest) := by
  induction front with
  | nil =>
    have hprefix : (c :: needle).isPrefixOf (c :: (needle ++ rest)) = true :=
      List.isPrefixOf_iff_prefix.mpr (List.prefix_append (c :: needle) rest)
    show splitOnce? (c :: needle) (c :: (needle ++ rest)) = _
    rw [splitOnce?, if_pos hprefix, ← List.cons_append, List.drop_left]
  | cons d front ih =>
    rw [List.mem_cons, not_or] at h
    rw [List.cons_append, splitOnce?, if_neg (by simp [List.isPrefixOf, h.1]), ih h.2]
    rfl

/-- An item starts with a character that is neither blank nor a comma. -/
theorem exists_cons_of_uncut {escapes : Escapes} {cut : Text} (h : Uncut escapes .top cut)
    (hne : trim cut ≠ []) :
    ∃ c rest, trim cut = c :: rest ∧ isBlank c = false ∧ c ≠ ',' := by
  obtain ⟨c, rest, hcons⟩ := List.exists_cons_of_ne_nil hne
  have huncut := uncut_trim h
  rw [hcons] at huncut
  exact ⟨c, rest, hcons, isBlank_eq_false_of_trim_eq_cons hcons,
    fun hcomma => huncut.1 ⟨rfl, hcomma⟩⟩

end Text

namespace Extraction

/-- A fragment with its offset, where `offset` is that of the list. -/
def place (offset : Nat) (placed : Text × Text) : Text × Option Nat :=
  (placed.2, if placed.2 = [] then none else some (offset + size placed.1))

theorem place_append (offset : Nat) (front : Text) (placed : Text × Text) :
    place offset (front ++ placed.1, placed.2) = place (offset + size front) placed := by
  rw [place, place, size_append, Nat.add_assoc]

/-- Behind a gap the search finds a fragment where it was cut, and it leaves a gap. -/
theorem locate_cut {escapes : Escapes} {cut gap : Text} (hcut : Uncut escapes .top cut)
    (hgap : IsGap gap) (offset : Nat) (rest : Text) (more : List Text) :
    ∃ used left, gap ++ cut = used ++ left ∧ IsGap left ∧
      locate offset (gap ++ (cut ++ rest)) (trim cut :: more) =
        place offset (gap ++ cut.takeWhile isBlank, trim cut) ::
          locate (offset + size used) (left ++ rest) more := by
  by_cases hempty : trim cut = []
  · refine ⟨[], gap ++ cut, rfl, ?_, ?_⟩
    · have hblank := (trim_eq_nil_iff cut).mp hempty
      exact List.forall_mem_append.mpr ⟨hgap, fun c hc => .inl (hblank c hc)⟩
    · rw [hempty, locate, if_pos List.isEmpty_nil, place, if_pos rfl, List.append_assoc]
      rfl
  · obtain ⟨c, others, hcons, hblank, hcomma⟩ := exists_cons_of_uncut hcut hempty
    obtain ⟨trail, hparts, htrail⟩ := exists_takeWhile_trim cut
    have hfront : c ∉ gap ++ cut.takeWhile isBlank := by
      intro hmem
      rcases List.mem_append.mp hmem with hmem | hmem
      · exact (hgap c hmem).elim (by simp [hblank]) hcomma
      · have hlead := List.all_eq_true.mp (List.all_takeWhile (l := cut)) c hmem
        rw [hblank] at hlead
        cases hlead
    have hrest : gap ++ (cut ++ rest) =
        (gap ++ cut.takeWhile isBlank) ++ (c :: others ++ (trail ++ rest)) := by
      conv => lhs; rw [hparts, hcons]
      simp only [List.append_assoc]
    refine ⟨gap ++ cut.takeWhile isBlank ++ trim cut, trail, ?_, fun d hd => .inl (htrail d hd), ?_⟩
    · conv => lhs; rw [hparts]
      simp only [List.append_assoc]
    · rw [hcons, locate, if_neg (by simp), hrest, splitOnce?_append hfront, place,
        if_neg (List.cons_ne_nil _ _), size_append _ (c :: others), ← Nat.add_assoc]

-- The induction is on the cuts.  What is left of the list starts with a gap: what stands behind the
-- last fragment that is not empty.
theorem locate_eq {escapes : Escapes} {cuts : List Text}
    (hcuts : ∀ cut ∈ cuts, Uncut escapes .top cut) {gap : Text} (hgap : IsGap gap)
    {fragments : List Text} (h : fragments <+: cuts.map trim) (offset : Nat) :
    locate offset (gap ++ [','].intercalate cuts) fragments =
      ((frontsFrom gap cuts).zip fragments).map (place offset) := by
  induction cuts generalizing gap fragments offset with
  | nil =>
    rw [List.map_nil, List.prefix_nil] at h
    rw [h, List.zip_nil_right]
    rfl
  | cons cut more ih =>
    cases fragments with
    | nil => rw [List.zip_nil_right]; rfl
    | cons fragment fragments =>
      rw [List.map_cons, List.cons_prefix_cons] at h
      obtain ⟨rfl, hmore⟩ := h
      rw [List.forall_mem_cons] at hcuts
      rw [frontsFrom, List.zip_cons_cons, List.map_cons]
      cases more with
      | nil =>
        obtain ⟨used, left, -, -, hlocate⟩ := locate_cut hcuts.1 hgap offset [] fragments
        rw [List.map_nil, List.prefix_nil] at hmore
        rw [List.append_nil] at hlocate
        rw [List.intercalate_singleton, hlocate, hmore, List.zip_nil_right]
        rfl
      | cons next more =>
        obtain ⟨used, left, hused, hleft, hlocate⟩ := locate_cut hcuts.1 hgap offset
          ([','] ++ [','].intercalate (next :: more)) fragments
        have hcomma : IsGap (left ++ [',']) :=
          List.forall_mem_append.mpr ⟨hleft, List.forall_mem_singleton.mpr (.inr rfl)⟩
        have hshift : place offset ∘ Prod.map (used ++ ·) id = place (offset + size used) :=
          funext fun placed => place_append offset used placed
        rw [List.intercalate_cons_cons, List.append_assoc, hlocate, ← List.append_assoc left,
          ih hcuts.2 hcomma hmore, hused, List.append_assoc used, frontsFrom_append used,
          List.zip_map_left, List.map_map, hshift]

theorem locate_segments (offset : Nat) (body : Text) :
    locate offset body (body.segments ',') = body.placedSegments.map (place offset) := by
  have hlocate := locate_eq (uncut_of_mem_cuts body) (List.forall_mem_nil _)
    (isPrefix_segments body) offset
  rwa [List.nil_append, intercalate_cuts] at hlocate

/-- The search for the fragments of a list finds each one that is not empty where it was cut, and
the line of one that is skipped is that of its first character. -/
theorem fragments_found_where_cut (before body after : Text) (name : String) (line : Nat) :
    body.placedSegments.map Prod.snd = body.segments ',' ∧
      (∀ placed ∈ body.placedSegments, placed.1 ++ placed.2 <+: body) ∧
      locate (size before) body (body.segments ',') =
        (body.placedSegments.map fun (front, fragment) =>
          (fragment, if fragment = [] then none else some (size before + size front))) ∧
      (buildTable (before ++ (body ++ after)) name line (size before) body).2 =
        body.placedSegments.filterMap fun (front, fragment) =>
          (Fragment.issue? fragment).map fun issue =>
            ⟨name, if fragment = [] then line else (before ++ front).count '\n' + 1,
              String.ofList fragment, issue⟩ := by
  refine ⟨map_snd_placedSegments body, isPrefix_of_mem_placedSegments, locate_segments _ _, ?_⟩
  rw [buildTable_eq, locate_segments, List.filterMap_map]
  apply List.filterMap_congr
  intro (front, fragment) hplaced
  obtain ⟨rest, hbody⟩ := isPrefix_of_mem_placedSegments _ hplaced
  have hline : (before ++ (body ++ after)).lineAt (size before + size front) =
      (before ++ front).count '\n' + 1 := by
    have hdocument : before ++ (body ++ after) =
        (before ++ front) ++ (fragment ++ rest ++ after) := by
      rw [← hbody]
      simp only [List.append_assoc]
    rw [hdocument, ← size_append, lineAt_size]
  show (Fragment.issue? fragment).map _ = _
  rw [place]
  by_cases hempty : fragment = []
  · simp only [if_pos hempty]
    rfl
  · simp only [if_neg hempty, ← hline]
    rfl

/-- A fragment that stands in a literal and twice for itself, around an empty one. -/
theorem fragments_found_where_cut_repeated :
    ∃ before body after : Text,
      before ++ (body ++ after) = "CREATE TABLE t (a INT DEFAULT 'b x',\n b x,, b x,\nb);".toList ∧
        (buildTable (before ++ (body ++ after)) "t" 1 (size before) body).2.map
            (fun skipped => (skipped.line, skipped.fragment)) =
          [(2, "b x"), (1, ""), (2, "b x"), (3, "b")] := by
  refine ⟨"CREATE TABLE t (".toList, "a INT DEFAULT 'b x',\n b x,, b x,\nb".toList, ");".toList,
    by decide, ?_⟩
  rw [(fragments_found_where_cut _ _ _ "t" 1).2.2.2]
  decide +kernel

end Extraction
end SqlAudit
