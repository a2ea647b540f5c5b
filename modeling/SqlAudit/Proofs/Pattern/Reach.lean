import SqlAudit.Pattern.Vocabulary
import SqlAudit.Proofs.Text.Lines

/-!
Where a match can be.  Matching moves forward through one text: every position that a way reaches
lies further on in the same text, and so do the positions of what it captures.  A pattern that reads
a character at least matches only before the end of the text.
-/

namespace SqlAudit

open Text

namespace Cursor

/-- The second position is the first one moved over some characters. -/
def Reaches (c d : Cursor) : Prop :=
  ∃ mid, c.after = mid ++ d.after ∧ d.before = mid.reverse ++ c.before

namespace Reaches

variable {c d e : Cursor}

protected theorem refl (c : Cursor) : Reaches c c := ⟨[], rfl, rfl⟩

protected theorem trans (hcd : Reaches c d) (hde : Reaches d e) : Reaches c e := by
  obtain ⟨mid, hafter, hbefore⟩ := hcd
  obtain ⟨mid', hafter', hbefore'⟩ := hde
  refine ⟨mid ++ mid', ?_, ?_⟩
  · rw [hafter, hafter', List.append_assoc]
  · rw [hbefore', hbefore, List.reverse_append, List.append_assoc]

theorem step (before : Text) (c : Char) (rest : Text) :
    Reaches ⟨before, c :: rest⟩ ⟨c :: before, rest⟩ := ⟨[c], rfl, rfl⟩

theorem text_eq (h : Reaches c d) : d.text = c.text := by
  obtain ⟨mid, hafter, hbefore⟩ := h
  rw [Cursor.text, Cursor.text, hafter, hbefore, List.reverse_append, List.reverse_reverse,
    List.append_assoc]

theorem offset_le (h : Reaches c d) : c.offset ≤ d.offset := by
  obtain ⟨mid, -, hbefore⟩ := h
  rw [offset, offset, hbefore, size_append]
  omega

end Reaches

/-- A position with something after it lies inside its text. -/
theorem offset_lt_size {c : Cursor} (h : c.after ≠ []) : c.offset < c.text.size := by
  have hpos := size_pos_of_ne_nil h
  rw [offset, Cursor.text, size_append, size_reverse]
  omega

theorem text_first (t : Text) : (first t).text = t := rfl

end Cursor

namespace Pattern

/-! ## The ways of each pattern -/

section

variable {accepts : Char → Bool} {w v : Way}

theorem mem_ways_done : v ∈ done.ways w ↔ v = w := List.mem_singleton

theorem mem_ways_char : v ∈ (char accepts).ways w ↔
    ∃ c rest, w.cursor.after = c :: rest ∧ accepts c = true ∧
      v = { w with cursor := ⟨c :: w.cursor.before, rest⟩ } := by
  obtain ⟨⟨before, after⟩, captures⟩ := w
  cases after with
  | nil => simp [ways]
  | cons c rest =>
    rw [ways, List.mem_ite_nil_right, List.mem_singleton]
    constructor
    · rintro ⟨hc, hv⟩
      exact ⟨c, rest, rfl, hc, hv⟩
    · rintro ⟨_, _, hafter, hc, hv⟩
      obtain ⟨rfl, rfl⟩ := List.cons.inj hafter
      exact ⟨hc, hv⟩

theorem mem_ways_run {reluctant : Bool} : v ∈ (run reluctant accepts).ways w ↔
    ∃ cursor ∈ stops accepts w.cursor.before w.cursor.after, { w with cursor } = v := by
  cases reluctant <;> simp [ways]

theorem mem_ways_seq {first second : Pattern} :
    v ∈ (seq first second).ways w ↔ ∃ u ∈ first.ways w, v ∈ second.ways u := by
  rw [ways, List.mem_flatMap]

theorem mem_ways_alt {left right : Pattern} :
    v ∈ (alt left right).ways w ↔ v ∈ left.ways w ∨ v ∈ right.ways w := by
  rw [ways, List.mem_append]

theorem mem_ways_star {body : Pattern} :
    v ∈ (star body).ways w ↔ v ∈ rounds body.ways w.cursor.after.length w := Iff.rfl

theorem mem_ways_capture {part : Part} {body : Pattern} : v ∈ (capture part body).ways w ↔
    ∃ u ∈ body.ways w, { u with captures := ⟨part, w.cursor, u.cursor⟩ :: u.captures } = v := by
  rw [ways, List.mem_map]

theorem mem_ways_edge : v ∈ edge.ways w ↔ w.cursor.atEdge = true ∧ v = w := by
  rw [ways, List.mem_ite_nil_right, List.mem_singleton]

theorem mem_ways_start : v ∈ start.ways w ↔ w.cursor.before = [] ∧ v = w := by
  rw [ways, List.mem_ite_nil_right, List.mem_singleton, List.isEmpty_iff]

theorem mem_ways_stop : v ∈ stop.ways w ↔ w.cursor.after = [] ∧ v = w := by
  rw [ways, List.mem_ite_nil_right, List.mem_singleton, List.isEmpty_iff]

end

/-! ## What holds along every way

A relation between ways that holds of a step over one character and of a capture holds from the
start of a match to its end. -/

section

variable {R : Way → Way → Prop} (refl : ∀ w, R w w) (trans : ∀ {u v w}, R u v → R v w → R u w)

include refl trans

theorem stops_induct (hchar : ∀ before c rest captures,
      R ⟨⟨before, c :: rest⟩, captures⟩ ⟨⟨c :: before, rest⟩, captures⟩)
    {accepts : Char → Bool} {before after : Text} {captures : List Capture} {cursor : Cursor}
    (h : cursor ∈ stops accepts before after) :
    R ⟨⟨before, after⟩, captures⟩ ⟨cursor, captures⟩ := by
  induction after generalizing before with
  | nil =>
    rw [stops, List.mem_singleton] at h
    rw [h]
    exact refl _
  | cons c rest ih =>
    rw [stops, List.mem_cons] at h
    rcases h with rfl | h
    · exact refl _
    · split at h
      · exact trans (hchar before c rest captures) (ih h)
      · simp at h

theorem rounds_induct {step : Way → List Way} (hstep : ∀ w, ∀ v ∈ step w, R w v) {n : Nat}
    {w v : Way} (h : v ∈ rounds step n w) : R w v := by
  induction n generalizing w with
  | zero =>
    rw [rounds, List.mem_singleton] at h
    rw [h]
    exact refl _
  | succ n ih =>
    rw [rounds, List.mem_append, List.mem_flatMap, List.mem_singleton] at h
    rcases h with ⟨u, hu, h⟩ | rfl
    · exact trans (hstep w u hu) (ih h)
    · exact refl _

theorem ways_induct (hchar : ∀ before c rest captures,
      R ⟨⟨before, c :: rest⟩, captures⟩ ⟨⟨c :: before, rest⟩, captures⟩)
    (hcapture : ∀ part w v, R w v →
      R w { v with captures := ⟨part, w.cursor, v.cursor⟩ :: v.captures })
    {p : Pattern} {w v : Way} (h : v ∈ p.ways w) : R w v := by
  induction p generalizing w v with
  | done =>
    rw [mem_ways_done.mp h]
    exact refl _
  | char accepts =>
    obtain ⟨⟨before, after⟩, captures⟩ := w
    obtain ⟨c, rest, hafter, -, rfl⟩ := mem_ways_char.mp h
    obtain rfl : after = c :: rest := hafter
    exact hchar before c rest captures
  | run reluctant accepts =>
    obtain ⟨cursor, hcursor, rfl⟩ := mem_ways_run.mp h
    exact stops_induct refl trans hchar hcursor
  | seq first second ihf ihs =>
    obtain ⟨u, hu, hv⟩ := mem_ways_seq.mp h
    exact trans (ihf hu) (ihs hv)
  | alt left right ihl ihr =>
    rcases mem_ways_alt.mp h with h | h
    · exact ihl h
    · exact ihr h
  | star body ih => exact rounds_induct refl trans (fun w v hv => ih hv) (mem_ways_star.mp h)
  | capture part body ih =>
    obtain ⟨u, hu, rfl⟩ := mem_ways_capture.mp h
    exact hcapture part w u (ih hu)
  | edge =>
    rw [(mem_ways_edge.mp h).2]
    exact refl _
  | start =>
    rw [(mem_ways_start.mp h).2]
    exact refl _
  | stop =>
    rw [(mem_ways_stop.mp h).2]
    exact refl _

end

theorem reaches_of_mem_ways {p : Pattern} {w v : Way} (h : v ∈ p.ways w) :
    w.cursor.Reaches v.cursor := by
  refine ways_induct (R := fun w v => w.cursor.Reaches v.cursor) ?_ ?_ ?_ ?_ h
  · exact fun w => .refl _
  · exact fun h₁ h₂ => h₁.trans h₂
  · exact fun before c rest _ => .step before c rest
  · exact fun _ _ _ h => h

theorem reaches_of_mem_captures {p : Pattern} {w v : Way} (h : v ∈ p.ways w) {c : Capture}
    (hc : c ∈ v.captures) :
    c ∈ w.captures ∨ w.cursor.Reaches c.start ∧ c.start.Reaches c.stop ∧
      c.stop.Reaches v.cursor := by
  have hall : w.cursor.Reaches v.cursor ∧ ∀ c ∈ v.captures, c ∈ w.captures ∨
      w.cursor.Reaches c.start ∧ c.start.Reaches c.stop ∧ c.stop.Reaches v.cursor := by
    refine ways_induct (R := fun w v => w.cursor.Reaches v.cursor ∧ ∀ c ∈ v.captures,
      c ∈ w.captures ∨ w.cursor.Reaches c.start ∧ c.start.Reaches c.stop ∧
        c.stop.Reaches v.cursor) ?_ ?_ ?_ ?_ h
    · exact fun w => ⟨.refl _, fun c hc => .inl hc⟩
    · rintro u v w ⟨huv, hcuv⟩ ⟨hvw, hcvw⟩
      refine ⟨huv.trans hvw, fun c hc => ?_⟩
      rcases hcvw c hc with hc | ⟨hstart, hmid, hstop⟩
      · rcases hcuv c hc with hc | ⟨hstart, hmid, hstop⟩
        · exact .inl hc
        · exact .inr ⟨hstart, hmid, hstop.trans hvw⟩
      · exact .inr ⟨huv.trans hstart, hmid, hstop⟩
    · exact fun before c rest _ => ⟨.step before c rest, fun c hc => .inl hc⟩
    · rintro part w v ⟨hwv, hcaptures⟩
      refine ⟨hwv, fun c hc => ?_⟩
      rcases List.mem_cons.mp hc with rfl | hc
      · exact .inr ⟨.refl _, hwv, .refl _⟩
      · exact hcaptures c hc
  exact hall.2 c hc

/-! ## Width -/

/-- Characters that every way to match reads at least. -/
def minWidth : Pattern → Nat
  | .char _ => 1
  | .seq first second => first.minWidth + second.minWidth
  | .alt left right => min left.minWidth right.minWidth
  | .capture _ body => body.minWidth
  | .done | .run _ _ | .star _ | .edge | .start | .stop => 0

theorem length_le_of_reaches {c d : Cursor} (h : c.Reaches d) :
    d.after.length ≤ c.after.length := by
  obtain ⟨mid, hafter, -⟩ := h
  rw [hafter, List.length_append]
  omega

theorem minWidth_le_of_mem_ways {p : Pattern} {w v : Way} (h : v ∈ p.ways w) :
    v.cursor.after.length + p.minWidth ≤ w.cursor.after.length := by
  have hmoves := length_le_of_reaches (reaches_of_mem_ways h)
  induction p generalizing w v with
  | char accepts =>
    obtain ⟨c, rest, hafter, -, rfl⟩ := mem_ways_char.mp h
    rw [hafter]
    exact Nat.le_refl _
  | seq first second ihf ihs =>
    obtain ⟨u, hu, h⟩ := mem_ways_seq.mp h
    have hfirst := ihf hu (length_le_of_reaches (reaches_of_mem_ways hu))
    have hsecond := ihs h (length_le_of_reaches (reaches_of_mem_ways h))
    rw [minWidth]
    omega
  | alt left right ihl ihr =>
    rw [minWidth]
    rcases mem_ways_alt.mp h with h | h
    · have := ihl h hmoves
      omega
    · have := ihr h hmoves
      omega
  | capture part body ih =>
    obtain ⟨u, hu, rfl⟩ := mem_ways_capture.mp h
    have hbody := ih hu (length_le_of_reaches (reaches_of_mem_ways hu))
    exact hbody
  | done => exact hmoves
  | run reluctant accepts => exact hmoves
  | star body => exact hmoves
  | edge => exact hmoves
  | start => exact hmoves
  | stop => exact hmoves

theorem after_ne_nil_of_mem_ways {p : Pattern} (hp : 0 < p.minWidth) {w v : Way}
    (h : v ∈ p.ways w) : w.cursor.after ≠ [] := by
  intro hnil
  have := minWidth_le_of_mem_ways h
  rw [hnil, List.length_nil] at this
  omega

/-- Whether whatever is captured as a part has a character at least. -/
def fills (part : Part) : Pattern → Bool
  | .seq first second => first.fills part && second.fills part
  | .alt left right => left.fills part && right.fills part
  | .star body => body.fills part
  | .capture own body => body.fills part && (own ≠ part || Nat.blt 0 body.minWidth)
  | .done | .char _ | .run _ _ | .edge | .start | .stop => true

/-- Every capture of a way that was not there before satisfies a property. -/
def CapturesOf (P : Capture → Prop) (w v : Way) : Prop := ∀ c ∈ v.captures, c ∈ w.captures ∨ P c

theorem CapturesOf.trans {P : Capture → Prop} {u v w : Way} (huv : CapturesOf P u v)
    (hvw : CapturesOf P v w) : CapturesOf P u w := by
  intro c hc
  rcases hvw c hc with hc | hc
  · exact huv c hc
  · exact .inr hc

theorem CapturesOf.of_eq {P : Capture → Prop} {w v : Way} (h : v.captures = w.captures) :
    CapturesOf P w v := fun _ hc => .inl (h ▸ hc)

theorem CapturesOf.mono {P Q : Capture → Prop} {w v : Way} (h : CapturesOf P w v)
    (hPQ : ∀ c, P c → Q c) : CapturesOf Q w v := fun c hc => (h c hc).imp_right (hPQ c)

/-- The patterns whose matches are captured as a part. -/
def bodies (part : Part) : Pattern → List Pattern
  | .seq first second => first.bodies part ++ second.bodies part
  | .alt left right => left.bodies part ++ right.bodies part
  | .star body => body.bodies part
  | .capture own body => if own = part then body :: body.bodies part else body.bodies part
  | .done | .char _ | .run _ _ | .edge | .start | .stop => []

/-- A capture is what a pattern of some list read. -/
def ReadBy (ps : List Pattern) (c : Capture) : Prop :=
  ∃ p ∈ ps, ∃ w v, v ∈ p.ways w ∧ c.start = w.cursor ∧ c.stop = v.cursor

theorem ReadBy.mono {ps qs : List Pattern} {c : Capture} (h : ReadBy ps c)
    (hsub : ∀ p ∈ ps, p ∈ qs) : ReadBy qs c := by
  obtain ⟨p, hp, hread⟩ := h
  exact ⟨p, hsub p hp, hread⟩

/-- What is captured as a part was read by one of the patterns for it. -/
theorem readBy_bodies (part : Part) {p : Pattern} {w v : Way} (h : v ∈ p.ways w) :
    CapturesOf (fun c => c.part = part → ReadBy (p.bodies part) c) w v := by
  induction p generalizing w v with
  | seq first second ihf ihs =>
    obtain ⟨u, hu, h⟩ := mem_ways_seq.mp h
    refine ((ihf hu).mono fun c hc hpart => ?_).trans ((ihs h).mono fun c hc hpart => ?_)
    · exact (hc hpart).mono fun q hq => List.mem_append_left _ hq
    · exact (hc hpart).mono fun q hq => List.mem_append_right _ hq
  | alt left right ihl ihr =>
    rcases mem_ways_alt.mp h with h | h
    · exact (ihl h).mono fun c hc hpart => (hc hpart).mono fun q hq => List.mem_append_left _ hq
    · exact (ihr h).mono fun c hc hpart => (hc hpart).mono fun q hq => List.mem_append_right _ hq
  | star body ih =>
    exact rounds_induct (R := CapturesOf fun c => c.part = part → ReadBy (body.bodies part) c)
      (fun w => .of_eq rfl) CapturesOf.trans (fun w v hv => ih hv) (mem_ways_star.mp h)
  | capture own body ih =>
    obtain ⟨u, hu, rfl⟩ := mem_ways_capture.mp h
    intro c hc
    rw [bodies]
    rcases List.mem_cons.mp hc with rfl | hc
    · right
      rintro rfl
      rw [if_pos rfl]
      exact ⟨body, List.mem_cons_self, w, u, hu, rfl, rfl⟩
    · refine (ih hu c hc).imp_right fun hread hpart => (hread hpart).mono fun q hq => ?_
      split
      · exact List.mem_cons_of_mem body hq
      · exact hq
  | done => exact .of_eq (by rw [mem_ways_done.mp h])
  | char accepts =>
    obtain ⟨c, rest, -, -, rfl⟩ := mem_ways_char.mp h
    exact .of_eq rfl
  | run reluctant accepts =>
    obtain ⟨cursor, -, rfl⟩ := mem_ways_run.mp h
    exact .of_eq rfl
  | edge => exact .of_eq (by rw [(mem_ways_edge.mp h).2])
  | start => exact .of_eq (by rw [(mem_ways_start.mp h).2])
  | stop => exact .of_eq (by rw [(mem_ways_stop.mp h).2])

theorem minWidth_pos_of_fills {part : Part} {p : Pattern} (hp : p.fills part = true) :
    ∀ body ∈ p.bodies part, 0 < body.minWidth := by
  induction p with
  | seq first second ihf ihs =>
    rw [fills, Bool.and_eq_true] at hp
    exact List.forall_mem_append.mpr ⟨ihf hp.1, ihs hp.2⟩
  | alt left right ihl ihr =>
    rw [fills, Bool.and_eq_true] at hp
    exact List.forall_mem_append.mpr ⟨ihl hp.1, ihr hp.2⟩
  | star body ih => exact ih hp
  | capture own body ih =>
    rw [fills, Bool.and_eq_true] at hp
    rw [bodies]
    split
    · rename_i hpart
      have hwide : 0 < body.minWidth := by simpa [hpart] using hp.2
      exact List.forall_mem_cons.mpr ⟨hwide, ih hp.1⟩
    · exact ih hp.1
  | done => simp [bodies]
  | char accepts => simp [bodies]
  | run reluctant accepts => simp [bodies]
  | edge => simp [bodies]
  | start => simp [bodies]
  | stop => simp [bodies]

def seizes (part : Part) : Pattern → Bool
  | .seq first second => first.seizes part || second.seizes part
  | .alt left right => left.seizes part && right.seizes part
  | .capture own body => own = part || body.seizes part
  | .done | .char _ | .run _ _ | .star _ | .edge | .start | .stop => false

theorem captures_subset_of_mem_ways {p : Pattern} {w v : Way} (h : v ∈ p.ways w) :
    w.captures ⊆ v.captures := by
  refine ways_induct (R := fun w v => w.captures ⊆ v.captures) ?_ ?_ ?_ ?_ h
  · exact fun w => List.Subset.refl _
  · exact fun h₁ h₂ => List.Subset.trans h₁ h₂
  · exact fun before c rest captures => List.Subset.refl _
  · exact fun part w v h => List.Subset.trans h (List.subset_cons_self _ _)

theorem exists_capture_of_seizes {part : Part} {p : Pattern} (hp : p.seizes part = true)
    {w v : Way} (h : v ∈ p.ways w) : ∃ c ∈ v.captures, c.part = part := by
  induction p generalizing w v with
  | seq first second ihf ihs =>
    obtain ⟨u, hu, h⟩ := mem_ways_seq.mp h
    rw [seizes, Bool.or_eq_true] at hp
    rcases hp with hp | hp
    · obtain ⟨c, hc, hpart⟩ := ihf hp hu
      exact ⟨c, captures_subset_of_mem_ways h hc, hpart⟩
    · exact ihs hp h
  | alt left right ihl ihr =>
    rw [seizes, Bool.and_eq_true] at hp
    rcases mem_ways_alt.mp h with h | h
    · exact ihl hp.1 h
    · exact ihr hp.2 h
  | capture own body ih =>
    obtain ⟨u, hu, rfl⟩ := mem_ways_capture.mp h
    rw [seizes, Bool.or_eq_true, decide_eq_true_eq] at hp
    rcases hp with rfl | hp
    · exact ⟨_, List.mem_cons_self, rfl⟩
    · obtain ⟨c, hc, hpart⟩ := ih hp hu
      exact ⟨c, List.mem_cons_of_mem _ hc, hpart⟩
  | done => cases hp
  | char accepts => cases hp
  | run reluctant accepts => cases hp
  | star body => cases hp
  | edge => cases hp
  | start => cases hp
  | stop => cases hp

/-! ## What is read -/

theorem exists_of_mem_ways_char {accepts : Char → Bool} {w v : Way}
    (h : v ∈ (char accepts).ways w) :
    ∃ c, accepts c = true ∧ w.cursor.after = c :: v.cursor.after := by
  obtain ⟨c, rest, hafter, hc, rfl⟩ := mem_ways_char.mp h
  exact ⟨c, hc, hafter⟩

theorem exists_of_mem_stops {accepts : Char → Bool} {before after : Text} {cursor : Cursor}
    (h : cursor ∈ stops accepts before after) :
    ∃ x, (∀ c ∈ x, accepts c = true) ∧ after = x ++ cursor.after := by
  induction after generalizing before with
  | nil =>
    rw [List.mem_singleton.mp h]
    exact ⟨[], by simp, rfl⟩
  | cons c rest ih =>
    rw [stops, List.mem_cons, List.mem_ite_nil_right] at h
    rcases h with rfl | ⟨hc, h⟩
    · exact ⟨[], by simp, rfl⟩
    · obtain ⟨x, hx, hrest⟩ := ih h
      exact ⟨c :: x, List.forall_mem_cons.mpr ⟨hc, hx⟩, congrArg (c :: ·) hrest⟩

theorem exists_of_mem_ways_run {reluctant : Bool} {accepts : Char → Bool} {w v : Way}
    (h : v ∈ (run reluctant accepts).ways w) :
    ∃ x, (∀ c ∈ x, accepts c = true) ∧ w.cursor.after = x ++ v.cursor.after := by
  obtain ⟨cursor, hcursor, rfl⟩ := mem_ways_run.mp h
  exact exists_of_mem_stops hcursor

/-! ## Matches -/

theorem of_matchAt?_eq_some {p : Pattern} {c : Cursor} {m : Match} (h : p.matchAt? c = some m) :
    m.start = c ∧ ⟨m.stop, m.captures⟩ ∈ p.ways ⟨c, []⟩ := by
  simp only [matchAt?, Option.map_eq_some_iff] at h
  obtain ⟨w, hw, rfl⟩ := h
  exact ⟨rfl, List.mem_of_mem_head? hw⟩

/-- A search goes forward and finds a match where it stops. -/
theorem of_findBetween?_eq_some {p : Pattern} {before after : Text} {m : Match}
    (h : p.findBetween? before after = some m) :
    Cursor.Reaches ⟨before, after⟩ m.start ∧ p.matchAt? m.start = some m := by
  induction after generalizing before with
  | nil =>
    have hstart := (of_matchAt?_eq_some h).1
    rw [hstart]
    exact ⟨.refl _, h⟩
  | cons c rest ih =>
    rw [findBetween?] at h
    split at h
    · rename_i m' hm
      rw [← Option.some.inj h]
      have hstart := (of_matchAt?_eq_some hm).1
      rw [hstart]
      exact ⟨.refl _, hm⟩
    · obtain ⟨hreach, hm⟩ := ih h
      exact ⟨(Cursor.Reaches.step before c rest).trans hreach, hm⟩

theorem reaches_of_findFrom? {p : Pattern} {c : Cursor} {m : Match} (h : p.findFrom? c = some m) :
    c.Reaches m.start ∧ p.matchAt? m.start = some m :=
  of_findBetween?_eq_some h

theorem of_mem_findUpTo {p : Pattern} {n : Nat} {c : Cursor} {m : Match}
    (h : m ∈ p.findUpTo n c) : c.Reaches m.start ∧ p.matchAt? m.start = some m := by
  induction n generalizing c with
  | zero => simp [findUpTo] at h
  | succ n ih =>
    rw [findUpTo] at h
    split at h
    · simp at h
    · rename_i m' hm
      obtain ⟨hstart, hmatch⟩ := reaches_of_findFrom? hm
      rcases List.mem_cons.mp h with rfl | h
      · exact ⟨hstart, hmatch⟩
      · obtain ⟨hreach, hm⟩ := ih h
        have hstop := reaches_of_mem_ways (of_matchAt?_eq_some hmatch).2
        exact ⟨(hstart.trans hstop).trans hreach, hm⟩

theorem of_mem_findAll {p : Pattern} {t : Text} {m : Match} (h : m ∈ p.findAll t) :
    (Cursor.first t).Reaches m.start ∧ p.matchAt? m.start = some m :=
  of_mem_findUpTo h

theorem pairwise_findUpTo (p : Pattern) (n : Nat) (c : Cursor) :
    (p.findUpTo n c).Pairwise fun m m' => m.start.Reaches m'.start := by
  induction n generalizing c with
  | zero => exact .nil
  | succ n ih =>
    rw [findUpTo]
    split
    · exact .nil
    · rename_i m hm
      have hmatch := (reaches_of_findFrom? hm).2
      have hstop := reaches_of_mem_ways (of_matchAt?_eq_some hmatch).2
      refine .cons (fun m' hm' => ?_) (ih m.stop)
      exact hstop.trans (of_mem_findUpTo hm').1

/-- A match of a pattern that reads something starts inside the text. -/
theorem start_offset_lt {p : Pattern} (hp : 0 < p.minWidth) {t : Text} {m : Match}
    (hreach : (Cursor.first t).Reaches m.start) (hm : p.matchAt? m.start = some m) :
    m.start.offset < t.size := by
  have hlt := Cursor.offset_lt_size (after_ne_nil_of_mem_ways hp (of_matchAt?_eq_some hm).2)
  rwa [hreach.text_eq, Cursor.text_first] at hlt

theorem readBy_of_part? {p : Pattern} {part : Part} {m : Match} (hm : p.matchAt? m.start = some m)
    {c : Capture} (hc : m.part? part = some c) : ReadBy (p.bodies part) c := by
  have hmem : c ∈ m.captures := List.mem_of_find?_eq_some hc
  have hpart : c.part = part := by simpa using List.find?_some hc
  rcases readBy_bodies part (of_matchAt?_eq_some hm).2 c hmem with hold | hnew
  · simp at hold
  · exact hnew hpart

/-- The text of a part that every way captures, and never empty, has a character. -/
theorem textOf_ne_nil {p : Pattern} {part : Part} (hseizes : p.seizes part = true)
    (hfills : p.fills part = true) {m : Match} (hm : p.matchAt? m.start = some m) :
    m.textOf part ≠ [] := by
  obtain ⟨c, hc, hpart⟩ := exists_capture_of_seizes hseizes (of_matchAt?_eq_some hm).2
  have hsome : (m.part? part).isSome = true :=
    List.find?_isSome.mpr ⟨c, hc, decide_eq_true hpart⟩
  obtain ⟨found, hfound⟩ := Option.isSome_iff_exists.mp hsome
  obtain ⟨body, hbody, w, v, hv, hstart, hstop⟩ := readBy_of_part? hm hfound
  have hwide := minWidth_pos_of_fills hfills body hbody
  have hread := minWidth_le_of_mem_ways hv
  have htext : m.textOf part = found.text := by rw [Match.textOf, Match.textOf?, hfound]; rfl
  intro hnil
  have hlength := congrArg List.length (htext.symm.trans hnil)
  rw [Capture.text, Cursor.upTo, hstart, hstop, List.length_take, List.length_nil] at hlength
  omega

end Pattern
end SqlAudit
