import Mathlib.Data.List.Basic
import SqlAudit.Proofs.Pattern.Reach
import SqlAudit.Proofs.Pattern.Skipping

/-!
Searching a text to which more is added.  Whatever a pattern reads inside the first text, it reads
there still.  What is new are ways that run on into the added text; they come to nothing if the
pattern cannot get past the start of the added text and would have to.  Then a search finds in the
longer text what it finds in the first one, and after that what starts in the added text.
-/

namespace SqlAudit

open Text

/-! ## Positions in a longer text -/

def Cursor.extend (r : Text) (c : Cursor) : Cursor := ⟨c.before, c.after ++ r⟩

def Capture.extend (r : Text) (c : Capture) : Capture := ⟨c.part, c.start.extend r, c.stop.extend r⟩

def Way.extend (r : Text) (w : Way) : Way :=
  ⟨w.cursor.extend r, w.captures.map (Capture.extend r)⟩

def Match.extend (r : Text) (m : Match) : Match :=
  ⟨m.start.extend r, m.stop.extend r, m.captures.map (Capture.extend r)⟩

theorem Cursor.upTo_extend (r : Text) (start stop : Cursor) :
    (start.extend r).upTo (stop.extend r) = start.upTo stop := by
  rw [upTo, upTo, extend, extend, List.length_append, List.length_append, Nat.add_sub_add_right,
    List.take_append_of_le_length (Nat.sub_le _ _)]

theorem Capture.text_extend (r : Text) (c : Capture) : (c.extend r).text = c.text :=
  Cursor.upTo_extend r c.start c.stop

theorem Match.part?_extend (r : Text) (m : Match) (part : Part) :
    (m.extend r).part? part = (m.part? part).map (Capture.extend r) := by
  rw [part?, part?, extend, List.find?_map]
  rfl

theorem Match.textOf_extend (r : Text) (m : Match) (part : Part) :
    (m.extend r).textOf part = m.textOf part := by
  rw [textOf, textOf, textOf?, textOf?, part?_extend, Option.map_map]
  congr 2
  funext c
  exact c.text_extend r

namespace Pattern

/-! ## Repetitions -/

/-- Rounds that read something each come to an end by themselves. -/
theorem rounds_eq {step : Way → List Way}
    (hstep : ∀ w, ∀ v ∈ step w, v.cursor.after.length < w.cursor.after.length) {m n : Nat} {w : Way}
    (hm : w.cursor.after.length ≤ m) (hn : w.cursor.after.length ≤ n) :
    rounds step m w = rounds step n w := by
  have hnone : w.cursor.after.length ≤ 0 → step w = [] := by
    intro hzero
    rw [List.eq_nil_iff_forall_not_mem]
    intro v hv
    have := hstep w v hv
    omega
  induction m generalizing n w with
  | zero =>
    cases n with
    | zero => rfl
    | succ n => rw [rounds, rounds, hnone hm, List.flatMap_nil, List.nil_append]
  | succ m ih =>
    cases n with
    | zero => rw [rounds, rounds, hnone hn, List.flatMap_nil, List.nil_append]
    | succ n =>
      rw [rounds, rounds]
      congr 1
      apply List.flatMap_congr
      intro v hv
      have hlt := hstep w v hv
      apply ih (by omega) (by omega)
      intro hzero
      rw [List.eq_nil_iff_forall_not_mem]
      intro u hu
      have := hstep v u hu
      omega

/-- A repetition is one round more, or none. -/
theorem ways_star {p : Pattern} (hp : 0 < p.minWidth) (w : Way) :
    (star p).ways w = (p.ways w).flatMap (star p).ways ++ [w] := by
  have hstep : ∀ w, ∀ v ∈ p.ways w, v.cursor.after.length < w.cursor.after.length := by
    intro w v hv
    have := minWidth_le_of_mem_ways hv
    omega
  have hmore : (star p).ways w = rounds p.ways (w.cursor.after.length + 1) w := by
    rw [ways]
    exact rounds_eq hstep (Nat.le_refl _) (Nat.le_succ _)
  rw [hmore, rounds]
  congr 1
  apply List.flatMap_congr
  intro v hv
  have := hstep w v hv
  rw [ways]
  exact rounds_eq hstep (by omega) (Nat.le_refl _)

/-! ## Ways inside the first text -/

/-- Whether a way has read nothing of the added text. -/
def within (r : Text) (w : Way) : Bool := r.length ≤ w.cursor.after.length

/-- A pattern that does not ask for the end of the text, and whose repetitions read something. -/
def extensible : Pattern → Bool
  | .stop => false
  | .star body => body.extensible && Nat.blt 0 body.minWidth
  | .seq first second => first.extensible && second.extensible
  | .alt left right => left.extensible && right.extensible
  | .capture _ body => body.extensible
  | .done | .char _ | .run _ _ | .edge | .start => true

theorem within_extend (r : Text) (w : Way) : within r (w.extend r) = true := by
  simp [within, Way.extend, Cursor.extend]

theorem length_le_of_mem_stops {accepts : Char → Bool} {before a : Text} {c : Cursor}
    (h : c ∈ stops accepts before a) : c.after.length ≤ a.length := by
  have hway : (⟨c, []⟩ : Way) ∈ (run true accepts).ways ⟨⟨before, a⟩, []⟩ :=
    List.mem_map.mpr ⟨c, h, rfl⟩
  exact length_le_of_reaches (reaches_of_mem_ways hway)

theorem filter_stops_append (accepts : Char → Bool) (r before a : Text) :
    (stops accepts before (a ++ r)).filter (fun c => r.length ≤ c.after.length) =
      (stops accepts before a).map (Cursor.extend r) := by
  induction a generalizing before with
  | nil =>
    -- Past the first position, some of the added text has been read.
    have hpast : ∀ c ∈ (stops accepts before r).tail, c.after.length < r.length := by
      cases r with
      | nil => simp [stops]
      | cons d rest =>
        intro c hc
        rw [stops, List.tail_cons] at hc
        split at hc
        · have hle : c.after.length ≤ rest.length := length_le_of_mem_stops hc
          rw [List.length_cons]
          omega
        · cases hc
    obtain ⟨tail, htail⟩ : ∃ tail, stops accepts before r = ⟨before, r⟩ :: tail := by
      cases r <;> exact ⟨_, rfl⟩
    rw [htail, List.tail_cons] at hpast
    have hnone : tail.filter (fun c => r.length ≤ c.after.length) = [] := by
      rw [List.filter_eq_nil_iff]
      intro c hc
      have := hpast c hc
      simpa using this
    rw [List.nil_append, htail, List.filter_cons_of_pos (by simp), hnone]
    rfl
  | cons c a ih =>
    rw [List.cons_append, stops, stops, List.filter_cons_of_pos (by simp; omega), List.map_cons]
    congr 1
    split
    · exact ih (c :: before)
    · rfl

/-- A way that has read some of the added text goes on there. -/
theorem filter_within_ways {p : Pattern} {r : Text} {w : Way} (hw : within r w = false) :
    (p.ways w).filter (within r) = [] := by
  rw [List.filter_eq_nil_iff]
  intro v hv
  have hle := length_le_of_reaches (reaches_of_mem_ways hv)
  simp only [within, decide_eq_false_iff_not, decide_eq_true_eq] at hw ⊢
  omega

theorem filter_flatMap_ways (r : Text) (q : Pattern) (ws : List Way) :
    (ws.flatMap q.ways).filter (within r) =
      (ws.filter (within r)).flatMap fun v => (q.ways v).filter (within r) := by
  induction ws with
  | nil => rfl
  | cons w rest ih =>
    rw [List.flatMap_cons, List.filter_append, ih]
    cases hw : within r w with
    | true => rw [List.filter_cons_of_pos hw, List.flatMap_cons]
    | false => rw [List.filter_cons_of_neg (by simp [hw]), filter_within_ways hw, List.nil_append]

theorem filter_map_ways (r : Text) {f : Way → Way} (hf : ∀ v, (f v).cursor = v.cursor)
    (ws : List Way) : (ws.map f).filter (within r) = (ws.filter (within r)).map f := by
  rw [List.filter_map]
  congr 1
  apply List.filter_congr
  intro v _
  rw [Function.comp_apply, within, within, hf]

theorem filter_ways_char_extend (r : Text) (accepts : Char → Bool) (w : Way) :
    ((char accepts).ways (w.extend r)).filter (within r) =
      ((char accepts).ways w).map (Way.extend r) := by
  obtain ⟨⟨before, after⟩, captures⟩ := w
  cases after with
  | nil =>
    -- The character that is read is the first one of what is added.
    have hnone : (char accepts).ways ⟨⟨before, []⟩, captures⟩ = [] := rfl
    rw [hnone, List.map_nil, List.filter_eq_nil_iff]
    intro v hv
    have hread : v.cursor.after.length + 1 ≤ r.length := minWidth_le_of_mem_ways hv
    rw [within, decide_eq_true_eq]
    omega
  | cons c rest =>
    simp only [Way.extend, Cursor.extend, List.cons_append, ways]
    split
    · rw [List.filter_cons_of_pos (by simp [within])]
      rfl
    · rfl

theorem filter_ways_run_extend (r : Text) (reluctant : Bool) (accepts : Char → Bool) (w : Way) :
    ((run reluctant accepts).ways (w.extend r)).filter (within r) =
      ((run reluctant accepts).ways w).map (Way.extend r) := by
  obtain ⟨⟨before, after⟩, captures⟩ := w
  have hstops := filter_stops_append accepts r before after
  simp only [Way.extend, Cursor.extend, ways, List.filter_map, List.map_map]
  cases reluctant with
  | true =>
    rw [if_pos rfl, if_pos rfl]
    show List.map _ (List.filter (fun c : Cursor => decide (r.length ≤ c.after.length)) _) = _
    rw [hstops, List.map_map]
    rfl
  | false =>
    rw [if_neg (by simp), if_neg (by simp)]
    show List.map _ (List.filter (fun c : Cursor => decide (r.length ≤ c.after.length)) _) = _
    rw [List.filter_reverse, hstops, ← List.map_reverse, List.map_map]
    rfl

theorem filter_ways_star_extend {r : Text} {body : Pattern} (hwide : 0 < body.minWidth)
    (hbody : ∀ w : Way, (body.ways (w.extend r)).filter (within r) =
      (body.ways w).map (Way.extend r)) (w : Way) :
    ((star body).ways (w.extend r)).filter (within r) = ((star body).ways w).map (Way.extend r) := by
  obtain ⟨n, hn⟩ : ∃ n, w.cursor.after.length = n := ⟨_, rfl⟩
  induction n using Nat.strongRecOn generalizing w with
  | ind n ih =>
    rw [ways_star hwide, ways_star hwide, List.filter_append, filter_flatMap_ways, hbody,
      List.flatMap_map, List.map_append, List.map_flatMap,
      List.filter_cons_of_pos (within_extend r w)]
    congr 1
    apply List.flatMap_congr
    intro v hv
    have hread := minWidth_le_of_mem_ways hv
    exact ih _ (by omega) v rfl

theorem atEdge_extend {r : Text} (hr : r.head?.any isWordChar = false) (w : Way) :
    (w.extend r).cursor.atEdge = w.cursor.atEdge := by
  obtain ⟨⟨before, after⟩, captures⟩ := w
  cases after with
  | nil => simp [Way.extend, Cursor.extend, Cursor.atEdge, hr]
  | cons c rest => rfl

/-- The ways inside the first text are the same, whatever is added. -/
theorem filter_ways_extend {r : Text} (hr : r.head?.any isWordChar = false) {p : Pattern}
    (hp : p.extensible = true) (w : Way) :
    (p.ways (w.extend r)).filter (within r) = (p.ways w).map (Way.extend r) := by
  induction p generalizing w with
  | done =>
    rw [ways, ways, List.filter_cons_of_pos (within_extend r w)]
    rfl
  | char accepts => exact filter_ways_char_extend r accepts w
  | run reluctant accepts => exact filter_ways_run_extend r reluctant accepts w
  | seq first second ihf ihs =>
    rw [extensible, Bool.and_eq_true] at hp
    rw [ways, ways, filter_flatMap_ways, ihf hp.1, List.flatMap_map, List.map_flatMap]
    apply List.flatMap_congr
    intro v _
    exact ihs hp.2 v
  | alt left right ihl ihr =>
    rw [extensible, Bool.and_eq_true] at hp
    rw [ways, ways, List.filter_append, List.map_append, ihl hp.1, ihr hp.2]
  | star body ih =>
    rw [extensible, Bool.and_eq_true] at hp
    exact filter_ways_star_extend (by simpa using hp.2) (ih hp.1) w
  | capture part body ih =>
    rw [ways, ways, filter_map_ways r (fun _ => by rfl), ih hp, List.map_map, List.map_map]
    rfl
  | edge =>
    rw [ways, ways, atEdge_extend hr]
    split
    · rw [List.filter_cons_of_pos (within_extend r w)]
      rfl
    · rfl
  | start =>
    rw [ways, ways]
    show List.filter _ (if w.cursor.before.isEmpty then _ else _) = _
    split
    · rw [List.filter_cons_of_pos (within_extend r w)]
      rfl
    · rfl
  | stop => cases hp

/-! ## Patterns that stop before a text -/

/-- A pattern never reads anything of a text at the end. -/
def Held (s : Text) (p : Pattern) : Prop :=
  ∀ w v, s <:+ w.cursor.after → v ∈ p.ways w → s <:+ v.cursor.after

section

variable {s : Text} {p q : Pattern} {accepts : Char → Bool}

theorem held_seq (hp : Held s p) (hq : Held s q) : Held s (seq p q) := by
  intro w v hw hv
  obtain ⟨u, hu, hv⟩ := mem_ways_seq.mp hv
  exact hq u v (hp w u hw hu) hv

theorem held_alt (hp : Held s p) (hq : Held s q) : Held s (alt p q) := by
  intro w v hw hv
  rcases mem_ways_alt.mp hv with hv | hv
  · exact hp w v hw hv
  · exact hq w v hw hv

theorem held_star (hp : Held s p) : Held s (star p) := by
  intro w v hw hv
  exact rounds_induct (R := fun w v => s <:+ w.cursor.after → s <:+ v.cursor.after)
    (fun _ h => h) (fun huv hvw h => hvw (huv h)) (fun w v hv h => hp w v h hv)
    (mem_ways_star.mp hv) hw

theorem held_capture (part : Part) (hp : Held s p) : Held s (capture part p) := by
  intro w v hw hv
  obtain ⟨u, hu, rfl⟩ := mem_ways_capture.mp hv
  exact hp w u hw hu

theorem held_done : Held s done := by
  intro w v hw hv
  rwa [mem_ways_done.mp hv]

theorem held_edge : Held s edge := by
  intro w v hw hv
  rwa [(mem_ways_edge.mp hv).2]

theorem suffix_of_suffix_cons {c : Char} {t : Text} (hs : Stops accepts s) (hc : accepts c = true)
    (h : s <:+ c :: t) : s <:+ t := by
  rcases List.suffix_cons_iff.mp h with rfl | h
  · rw [stops_cons] at hs
    rw [hs] at hc
    cases hc
  · exact h

theorem suffix_of_suffix_append {x t : Text} (hs : Stops accepts s)
    (hx : ∀ c ∈ x, accepts c = true) (h : s <:+ x ++ t) : s <:+ t := by
  induction x with
  | nil => exact h
  | cons c x ih =>
    exact ih (fun d hd => hx d (List.mem_cons_of_mem c hd))
      (suffix_of_suffix_cons hs (hx c List.mem_cons_self) h)

theorem held_char (hs : Stops accepts s) : Held s (char accepts) := by
  intro w v hw hv
  obtain ⟨c, hc, hafter⟩ := exists_of_mem_ways_char hv
  rw [hafter] at hw
  exact suffix_of_suffix_cons hs hc hw

theorem held_run (reluctant : Bool) (hs : Stops accepts s) : Held s (run reluctant accepts) := by
  intro w v hw hv
  obtain ⟨x, hx, hafter⟩ := exists_of_mem_ways_run hv
  rw [hafter] at hw
  exact suffix_of_suffix_append hs hx hw

theorem held_many1 (hs : Stops accepts s) : Held s (many1 accepts) :=
  held_seq (held_char hs) (held_run false hs)

theorem after_of_mem_ways_sign {c : Char} {u v : Way} (hv : v ∈ (sign c).ways u) :
    u.cursor.after = c :: v.cursor.after := by
  obtain ⟨d, hd, hafter⟩ := exists_of_mem_ways_char hv
  rw [hafter, beq_iff_eq.mp hd]

/-- A pattern that ends in a sign which does not occur in a text does not end inside it. -/
theorem held_sign_last {c : Char} (hc : c ∉ s) (p : Pattern) : Held s (seq p (sign c)) := by
  intro w v hw hv
  obtain ⟨u, hu, hv⟩ := mem_ways_seq.mp hv
  obtain ⟨mid, hmid, -⟩ := reaches_of_mem_ways hu
  have hsuffix : c :: v.cursor.after <:+ w.cursor.after :=
    ⟨mid, by rw [hmid, after_of_mem_ways_sign hv]⟩
  by_cases hlength : s.length ≤ v.cursor.after.length
  · exact List.suffix_of_suffix_length_le hw ((List.suffix_cons _ _).trans hsuffix) hlength
  · have hinside : c :: v.cursor.after <:+ s :=
      List.suffix_of_suffix_length_le hsuffix hw (by rw [List.length_cons]; omega)
    exact absurd (hinside.subset List.mem_cons_self) hc

theorem held_all {ps : List Pattern} (h : ∀ p ∈ ps, Held s p) : Held s (all ps) := by
  induction ps with
  | nil => exact held_done
  | cons p ps ih =>
    have hrest := ih fun q hq => h q (List.mem_cons_of_mem p hq)
    cases ps with
    | nil => exact h p List.mem_cons_self
    | cons q more => exact held_seq (h p List.mem_cons_self) hrest

theorem held_any {ps : List Pattern} (h : ∀ p ∈ ps, Held s p) : Held s (any ps) := by
  induction ps with
  | nil => exact held_char fun _ _ => rfl
  | cons p ps ih =>
    have hrest := ih fun q hq => h q (List.mem_cons_of_mem p hq)
    cases ps with
    | nil => exact h p List.mem_cons_self
    | cons q more => exact held_alt (h p List.mem_cons_self) hrest

theorem held_opt (hp : Held s p) : Held s (opt p) := held_alt hp held_done

theorem held_word {x : String} (h : ∀ letter ∈ x.toList, Stops (sameLetter letter) s) :
    Held s (word x) := by
  apply held_all
  intro p hp
  obtain ⟨letter, hletter, rfl⟩ := List.mem_map.mp hp
  exact held_char (h letter hletter)

end

theorem mem_ways_all_append {ps : List Pattern} {q : Pattern} {w v : Way} :
    v ∈ (all (ps ++ [q])).ways w ↔ ∃ u ∈ (all ps).ways w, v ∈ q.ways u := by
  induction ps generalizing w with
  | nil => simp [all, mem_ways_done]
  | cons p ps ih =>
    cases ps with
    | nil => exact mem_ways_seq
    | cons p' more =>
      show v ∈ (seq p (all (p' :: more ++ [q]))).ways w ↔ ∃ u ∈ (seq p (all (p' :: more))).ways w, _
      simp only [mem_ways_seq, ih]
      constructor
      · rintro ⟨u, hu, x, hx, hv⟩
        exact ⟨x, ⟨u, hu, hx⟩, hv⟩
      · rintro ⟨x, ⟨u, hu, hx⟩, hv⟩
        exact ⟨u, hu, x, hx, hv⟩

/-- A pattern whose last sign does not start the added text, and whose other parts stop before the
second character of it, reads nothing of it. -/
theorem ways_extend {ps : List Pattern} {b c : Char} {s : Text} (hb : isWordChar b = false)
    (hbc : c ≠ b) (hs : Stops (· == c) s) (hheld : Held s (all ps))
    (hext : (all (ps ++ [sign c])).extensible = true) (w : Way) :
    (all (ps ++ [sign c])).ways (w.extend (b :: s)) =
      ((all (ps ++ [sign c])).ways w).map (Way.extend (b :: s)) := by
  rw [← filter_ways_extend (by simpa using hb) hext, eq_comm, List.filter_eq_self]
  intro v hv
  obtain ⟨mid, hmid, -⟩ := reaches_of_mem_ways hv
  obtain ⟨u, hu, hlast⟩ := mem_ways_all_append.mp hv
  have hread := after_of_mem_ways_sign hlast
  have hsuffix : s <:+ u.cursor.after :=
    hheld _ u ⟨w.cursor.after ++ [b], by simp [Way.extend, Cursor.extend]⟩ hu
  rw [hread] at hsuffix
  have hafter : s <:+ v.cursor.after := suffix_of_suffix_cons hs (beq_self_eq_true c) hsuffix
  rw [within, decide_eq_true_eq, List.length_cons]
  rcases Nat.lt_or_ge s.length v.cursor.after.length with hlt | hge
  · exact hlt
  · -- Otherwise the sign would be the first character of the added text.
    obtain ⟨umid, humid, -⟩ := reaches_of_mem_ways hu
    have heq : s = v.cursor.after := hafter.eq_of_length_le hge
    rw [hread, ← heq] at humid
    have hlast : (umid ++ [c]) ++ s = (w.cursor.after ++ [b]) ++ s := by
      rw [List.append_assoc, List.append_assoc]
      exact humid.symm
    have hchar := List.append_cancel_right hlast
    exact absurd (List.append_inj_right' hchar rfl) (by simpa using hbc)

/-! ## Searches -/

section

variable {p : Pattern} {r : Text}
  (hways : ∀ w : Way, p.ways (w.extend r) = (p.ways w).map (Way.extend r))

include hways

theorem matchAt?_extend (c : Cursor) :
    p.matchAt? (c.extend r) = (p.matchAt? c).map (Match.extend r) := by
  have hstart : (⟨c.extend r, []⟩ : Way) = Way.extend r ⟨c, []⟩ := rfl
  rw [matchAt?, matchAt?, hstart, hways, List.head?_map, Option.map_map, Option.map_map]
  rfl

/-- A search goes through the first text and then through the second one. -/
theorem findBetween?_append (before a : Text) :
    p.findBetween? before (a ++ r) = ((p.findBetween? before a).map (Match.extend r)).or
      (p.findBetween? (a.reverse ++ before) r) := by
  induction a generalizing before with
  | nil =>
    have hend := matchAt?_extend hways ⟨before, []⟩
    rw [findBetween?]
    cases hmatch : p.matchAt? ⟨before, []⟩ with
    | none => rfl
    | some m =>
      rw [hmatch] at hend
      exact findBetween?_of_matchAt? hend
  | cons c rest ih =>
    have hhere : p.matchAt? ⟨before, c :: (rest ++ r)⟩ =
        (p.matchAt? ⟨before, c :: rest⟩).map (Match.extend r) :=
      matchAt?_extend hways ⟨before, c :: rest⟩
    rw [List.cons_append, findBetween?, findBetween?, hhere]
    cases p.matchAt? ⟨before, c :: rest⟩ with
    | none =>
      rw [Option.map_none]
      dsimp only
      rw [ih, List.reverse_cons, List.append_assoc]
      rfl
    | some m => rfl

omit hways in
/-- A search for something that is not empty comes to an end by itself. -/
theorem findUpTo_eq (hp : 0 < p.minWidth) {c : Cursor} {m n : Nat} (hm : c.after.length ≤ m)
    (hn : c.after.length ≤ n) : p.findUpTo m c = p.findUpTo n c := by
  have hshorter : ∀ {c : Cursor} {found : Match}, p.findFrom? c = some found →
      found.stop.after.length < c.after.length := by
    intro c found hfound
    obtain ⟨hreach, hmatch⟩ := reaches_of_findFrom? hfound
    have hstart := length_le_of_reaches hreach
    have hstop := minWidth_le_of_mem_ways (of_matchAt?_eq_some hmatch).2
    dsimp only at hstop
    omega
  induction m generalizing n c with
  | zero =>
    cases n with
    | zero => rfl
    | succ n =>
      rw [findUpTo, findUpTo]
      cases hfound : p.findFrom? c with
      | none => rfl
      | some found =>
        have := hshorter hfound
        omega
  | succ m ih =>
    rw [findUpTo]
    cases hfound : p.findFrom? c with
    | none =>
      cases n with
      | zero => rfl
      | succ n => rw [findUpTo, hfound]
    | some found =>
      have hlt := hshorter hfound
      cases n with
      | zero => omega
      | succ n =>
        rw [findUpTo, hfound]
        exact congrArg (found :: ·) (ih (by omega) (by omega))

theorem findUpTo_append (hp : 0 < p.minWidth) {n : Nat} {c : Cursor} (hn : c.after.length ≤ n) :
    p.findUpTo (n + r.length) (c.extend r) =
      (p.findUpTo n c).map (Match.extend r) ++
        p.findUpTo r.length ⟨c.after.reverse ++ c.before, r⟩ := by
  induction n generalizing c with
  | zero =>
    obtain ⟨before, after⟩ := c
    have hnil : after = [] := List.eq_nil_of_length_eq_zero (Nat.le_zero.mp hn)
    subst hnil
    rw [findUpTo, Nat.zero_add]
    rfl
  | succ n ih =>
    have hfind : p.findFrom? (c.extend r) = ((p.findFrom? c).map (Match.extend r)).or
        (p.findFrom? ⟨c.after.reverse ++ c.before, r⟩) :=
      findBetween?_append hways c.before c.after
    rw [Nat.add_right_comm, findUpTo, findUpTo, hfind]
    cases hfound : p.findFrom? c with
    | none =>
      rw [Option.map_none, Option.none_or]
      have hend : p.findUpTo (n + r.length + 1) ⟨c.after.reverse ++ c.before, r⟩ =
          p.findUpTo r.length ⟨c.after.reverse ++ c.before, r⟩ :=
        findUpTo_eq hp (Nat.le_succ_of_le (Nat.le_add_left _ _)) (Nat.le_refl _)
      rw [findUpTo] at hend
      exact hend
    | some found =>
      obtain ⟨hreach, hmatch⟩ := reaches_of_findFrom? hfound
      have hways := (of_matchAt?_eq_some hmatch).2
      have hstart := length_le_of_reaches hreach
      have hstop := minWidth_le_of_mem_ways hways
      have htext := congrArg List.reverse (hreach.trans (reaches_of_mem_ways hways)).text_eq
      simp only [Cursor.text, List.reverse_append, List.reverse_reverse] at htext
      dsimp only at hstop
      rw [Option.map_some, Option.some_or, List.map_cons, List.cons_append, ← htext]
      dsimp only
      rw [Match.extend, ih (by omega)]

/-- What is found in a text to which more is added: what is found in the text, and what starts in
the addition. -/
theorem findAll_append (hp : 0 < p.minWidth) (t : Text) :
    p.findAll (t ++ r) = (p.findAll t).map (Match.extend r) ++ p.findUpTo r.length ⟨t.reverse, r⟩ := by
  have h : p.findUpTo (t.length + r.length) (Cursor.first (t ++ r)) =
      (p.findUpTo t.length (Cursor.first t)).map (Match.extend r) ++
        p.findUpTo r.length ⟨t.reverse ++ [], r⟩ :=
    findUpTo_append hways hp (c := Cursor.first t) (Nat.le_refl _)
  rw [List.append_nil] at h
  rw [findAll, findAll, List.length_append, h]

end

end Pattern
end SqlAudit
