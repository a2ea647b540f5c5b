import SqlAudit.Pattern.Vocabulary

/-!
Evaluating patterns on texts that are known piece by piece.  The first way to match is found by
carrying on with a continuation after each part of a pattern, so that a sequence is evaluated from
the left to the right and an alternative is taken up only where the one before it fails.
-/

namespace SqlAudit

open Text

namespace Text

/-- A text does not go on with a character of a class. -/
def Stops (accepts : Char → Bool) (t : Text) : Prop := ∀ c, t.head? = some c → accepts c = false

@[simp] theorem stops_nil (accepts : Char → Bool) : Stops accepts [] := by
  intro c h
  cases h

@[simp] theorem stops_cons (accepts : Char → Bool) (c : Char) (t : Text) :
    Stops accepts (c :: t) ↔ accepts c = false := by
  constructor
  · intro h
    exact h c rfl
  · intro h d hd
    cases hd
    exact h

theorem stops_of_head {accepts : Char → Bool} {c : Char} {t : Text} (h : accepts c = false) :
    Stops accepts (c :: t) := (stops_cons accepts c t).mpr h

theorem stops_iff_any_head? (accepts : Char → Bool) (t : Text) :
    Stops accepts t ↔ t.head?.any accepts = false := by
  cases t with
  | nil => simp
  | cons c t => simp

instance (accepts : Char → Bool) (t : Text) : Decidable (Stops accepts t) :=
  match t with
  | [] => isTrue (stops_nil accepts)
  | c :: rest => decidable_of_iff _ (stops_cons accepts c rest).symm

/-- A text starts with letters, in any case. -/
def opens : (letters : List Char) → Text → Bool
  | [], _ => true
  | _ :: _, [] => false
  | letter :: letters, c :: t => Pattern.sameLetter letter c && opens letters t

theorem sameLetter_self (c : Char) : Pattern.sameLetter c c = true := by
  simp [Pattern.sameLetter]

@[simp] theorem opens_append_self (letters t : List Char) :
    opens letters (letters ++ t) = true := by
  induction letters with
  | nil => rfl
  | cons c rest ih => rw [List.cons_append, opens, sameLetter_self, ih]; rfl

/-- Letters that differ from those of a word do not open a text that starts with it. -/
theorem opens_append_eq_false {letters w : List Char}
    (h : opens (letters.take w.length) w = false) (t : Text) : opens letters (w ++ t) = false := by
  induction letters generalizing w with
  | nil =>
    rw [List.take_nil] at h
    cases h
  | cons letter letters ih =>
    cases w with
    | nil => cases h
    | cons c w =>
      rw [List.length_cons, List.take_succ_cons, opens, Bool.and_eq_false_iff] at h
      rw [List.cons_append, opens, Bool.and_eq_false_iff]
      exact h.imp_right ih

end Text

namespace Pattern

section

variable {β : Type} (k : Way → Option β)

/-- What a continuation makes of the first way to match after which it succeeds. -/
def first? (p : Pattern) (k : Way → Option β) (w : Way) : Option β := (p.ways w).findSome? k

section

attribute [local simp] ways

@[simp] theorem first?_done (w : Way) : done.first? k w = k w := by
  simp [first?]

@[simp] theorem first?_any_nil (w : Way) : (any []).first? k w = none := by
  obtain ⟨⟨before, after⟩, captures⟩ := w
  cases after <;> simp [any, first?]

end

@[simp] theorem first?_seq (p q : Pattern) (w : Way) :
    (seq p q).first? k w = p.first? (q.first? k) w := by
  unfold first?
  rw [ways]
  induction p.ways w with
  | nil => rfl
  | cons v rest ih =>
    rw [List.flatMap_cons, List.findSome?_append, List.findSome?_cons, ih]
    cases (q.ways v).findSome? k <;> rfl

@[simp] theorem first?_alt (p q : Pattern) (w : Way) :
    (alt p q).first? k w = (p.first? k w).or (q.first? k w) := by
  rw [first?, ways, List.findSome?_append]
  rfl

@[simp] theorem first?_opt (p : Pattern) (w : Way) :
    (opt p).first? k w = (p.first? k w).or (k w) := by
  rw [opt, first?_alt, first?_done]

@[simp] theorem first?_all_nil (w : Way) : (all []).first? k w = k w := first?_done k w

@[simp] theorem first?_all_cons (p : Pattern) (ps : List Pattern) (w : Way) :
    (all (p :: ps)).first? k w = p.first? ((all ps).first? k) w := by
  cases ps with
  | nil =>
    have hdone : (all []).first? k = k := funext (first?_all_nil k)
    rw [hdone, all]
  | cons q more => exact first?_seq k p (all (q :: more)) w

theorem first?_all (ps : List Pattern) : (all ps).first? k = ps.foldr first? k := by
  induction ps with
  | nil => exact funext (first?_all_nil k)
  | cons p ps ih =>
    funext w
    rw [first?_all_cons, ih, List.foldr_cons]

@[simp] theorem first?_any_cons (p : Pattern) (ps : List Pattern) (w : Way) :
    (any (p :: ps)).first? k w = (p.first? k w).or ((any ps).first? k w) := by
  cases ps with
  | nil =>
    rw [first?_any_nil, Option.or_none, any]
  | cons q more => exact first?_alt k p (any (q :: more)) w

theorem first?_any (ps : List Pattern) (w : Way) :
    (any ps).first? k w = ps.findSome? (·.first? k w) := by
  induction ps with
  | nil => exact first?_any_nil k w
  | cons p ps ih =>
    rw [first?_any_cons, ih, List.findSome?_cons]
    cases p.first? k w <;> rfl

@[simp] theorem first?_capture (part : Part) (p : Pattern) (w : Way) :
    (capture part p).first? k w =
      p.first? (fun v => k { v with captures := ⟨part, w.cursor, v.cursor⟩ :: v.captures }) w := by
  rw [first?, ways, List.findSome?_map]
  rfl

variable {before t : Text} {captures : List Capture}

@[simp] theorem first?_char_nil (accepts : Char → Bool) :
    (char accepts).first? k ⟨⟨before, []⟩, captures⟩ = none := by
  simp [first?, ways]

@[simp] theorem first?_char_cons (accepts : Char → Bool) (c : Char) :
    (char accepts).first? k ⟨⟨before, c :: t⟩, captures⟩ =
      if accepts c then k ⟨⟨c :: before, t⟩, captures⟩ else none := by
  simp only [first?, ways]
  split <;> simp

@[simp] theorem first?_edge (w : Way) :
    edge.first? k w = if w.cursor.atEdge then k w else none := by
  simp only [first?, ways]
  split <;> simp

@[simp] theorem first?_start (w : Way) :
    start.first? k w = if w.cursor.before.isEmpty then k w else none := by
  simp only [first?, ways]
  split <;> simp

@[simp] theorem first?_stop (w : Way) :
    stop.first? k w = if w.cursor.after.isEmpty then k w else none := by
  simp only [first?, ways]
  split <;> simp

/-! ## Runs -/

/-- The positions in a run: those at which it could go on, then its end. -/
theorem exists_stops_append {accepts : Char → Bool} {x rest : Text}
    (hrun : ∀ c ∈ x, accepts c = true) (hrest : Stops accepts rest) (before : Text) :
    ∃ early, stops accepts before (x ++ rest) = early ++ [⟨x.reverse ++ before, rest⟩] ∧
      ∀ c ∈ early, ∃ d ∈ x, c.after.head? = some d := by
  induction x generalizing before with
  | nil =>
    refine ⟨[], ?_, by simp⟩
    cases rest with
    | nil => rfl
    | cons c rest =>
      rw [stops_cons] at hrest
      simp [stops, hrest]
  | cons c x ih =>
    have hc := hrun c List.mem_cons_self
    obtain ⟨early, hearly, hgo⟩ := ih (fun d hd => hrun d (List.mem_cons_of_mem _ hd)) (c :: before)
    refine ⟨⟨before, c :: (x ++ rest)⟩ :: early, ?_, ?_⟩
    · rw [List.cons_append, stops, if_pos hc, hearly, List.reverse_cons, List.append_assoc]
      rfl
    · intro d hd
      rcases List.mem_cons.mp hd with rfl | hd
      · exact ⟨c, List.mem_cons_self, rfl⟩
      · obtain ⟨e, he, hhead⟩ := hgo d hd
        exact ⟨e, List.mem_cons_of_mem c he, hhead⟩

variable {k} {accepts : Char → Bool} {x rest : Text}

/-- A run is taken as a whole if the rest of the pattern then matches. -/
theorem first?_many_of_some (hrun : ∀ c ∈ x, accepts c = true) (hrest : Stops accepts rest)
    {v : β} (h : k ⟨⟨x.reverse ++ before, rest⟩, captures⟩ = some v) :
    (many accepts).first? k ⟨⟨before, x ++ rest⟩, captures⟩ = some v := by
  obtain ⟨early, hearly, -⟩ := exists_stops_append hrun hrest before
  simp [many, first?, ways, hearly, h]

/-- A run is taken as a whole if the rest of the pattern cannot start inside it. -/
theorem first?_run_of_blocked (reluctant : Bool) (hrun : ∀ c ∈ x, accepts c = true)
    (hrest : Stops accepts rest)
    (hblocked : ∀ w : Way, ∀ d ∈ x, w.cursor.after.head? = some d → k w = none) :
    (Pattern.run reluctant accepts).first? k ⟨⟨before, x ++ rest⟩, captures⟩ =
      k ⟨⟨x.reverse ++ before, rest⟩, captures⟩ := by
  obtain ⟨early, hearly, hgo⟩ := exists_stops_append hrun hrest before
  have hnone : ∀ l : List Cursor, (∀ c ∈ l, c ∈ early) →
      (l.map fun cursor => (⟨cursor, captures⟩ : Way)).findSome? k = none := by
    intro l hl
    rw [List.findSome?_eq_none_iff]
    intro w hw
    obtain ⟨c, hc, rfl⟩ := List.mem_map.mp hw
    obtain ⟨d, hd, hhead⟩ := hgo c (hl c hc)
    exact hblocked _ d hd hhead
  simp only [first?, ways, hearly]
  cases reluctant with
  | true =>
    rw [if_pos rfl, List.map_append, List.findSome?_append, hnone early fun _ hc => hc]
    simp
  | false =>
    rw [if_neg (by simp), List.reverse_append, List.map_append, List.findSome?_append,
      hnone early.reverse fun _ hc => List.mem_reverse.mp hc]
    simp

theorem first?_many1_of_some (hne : x ≠ []) (hrun : ∀ c ∈ x, accepts c = true)
    (hrest : Stops accepts rest) {v : β}
    (h : k ⟨⟨x.reverse ++ before, rest⟩, captures⟩ = some v) :
    (many1 accepts).first? k ⟨⟨before, x ++ rest⟩, captures⟩ = some v := by
  obtain ⟨c, more, rfl⟩ := List.exists_cons_of_ne_nil hne
  rw [many1, first?_seq, List.cons_append, first?_char_cons, if_pos (hrun c List.mem_cons_self)]
  apply first?_many_of_some (fun d hd => hrun d (List.mem_cons_of_mem _ hd)) hrest
  simpa using h

theorem first?_many_of_stops (hrest : Stops accepts rest) :
    (many accepts).first? k ⟨⟨before, rest⟩, captures⟩ = k ⟨⟨before, rest⟩, captures⟩ := by
  cases rest with
  | nil => simp [many, first?, ways, stops]
  | cons c rest =>
    rw [stops_cons] at hrest
    simp [many, first?, ways, stops, hrest]

/-- A repetition is passed over where its body does not match. -/
theorem first?_star_of_none {p : Pattern} {w : Way} (h : p.first? some w = none) :
    (star p).first? k w = k w := by
  have hways : p.ways w = [] := by
    cases hp : p.ways w with
    | nil => rfl
    | cons v rest => simp [first?, hp] at h
  simp only [first?, ways]
  cases w.cursor.after.length <;> simp [rounds, hways]

/-! ## Words and blanks -/

theorem first?_word (s : String) :
    (word s).first? k ⟨⟨before, t⟩, captures⟩ =
      if opens s.toList t then
        k ⟨⟨(t.take s.toList.length).reverse ++ before, t.drop s.toList.length⟩, captures⟩
      else none := by
  rw [word]
  generalize s.toList = letters
  induction letters generalizing before t with
  | nil => simp [opens]
  | cons letter letters ih =>
    rw [List.map_cons, first?_all_cons]
    cases t with
    | nil => simp [opens]
    | cons c rest =>
      rw [first?_char_cons, ih, opens]
      by_cases hletter : sameLetter letter c = true
      · simp [hletter]
      · simp [hletter]

theorem first?_word_append (s : String) :
    (word s).first? k ⟨⟨before, s.toList ++ t⟩, captures⟩ =
      k ⟨⟨s.toList.reverse ++ before, t⟩, captures⟩ := by
  rw [first?_word, opens_append_self, if_pos rfl, List.take_left, List.drop_left]

theorem first?_word_eq_none {s : String} (h : opens s.toList t = false) :
    (word s).first? k ⟨⟨before, t⟩, captures⟩ = none := by
  rw [first?_word, h, if_neg (by simp)]

theorem first?_word_of_differ {s w : String}
    (h : opens (s.toList.take w.toList.length) w.toList = false) :
    (word s).first? k ⟨⟨before, w.toList ++ t⟩, captures⟩ = none :=
  first?_word_eq_none (opens_append_eq_false h t)

theorem first?_gap (hrest : Stops isBlank rest) :
    gap.first? k ⟨⟨before, ' ' :: rest⟩, captures⟩ = k ⟨⟨' ' :: before, rest⟩, captures⟩ := by
  rw [gap, many1, first?_seq, first?_char_cons, if_pos (by decide), first?_many_of_stops hrest]

theorem first?_gap_eq_none (ht : Stops isBlank t) :
    gap.first? k ⟨⟨before, t⟩, captures⟩ = none := by
  rw [gap, many1, first?_seq]
  cases t with
  | nil => exact first?_char_nil _ _
  | cons c rest =>
    rw [stops_cons] at ht
    rw [first?_char_cons, ht, if_neg (by simp)]

theorem first?_space_of_stops (hrest : Stops isBlank rest) :
    space.first? k ⟨⟨before, rest⟩, captures⟩ = k ⟨⟨before, rest⟩, captures⟩ :=
  first?_many_of_stops hrest

theorem first?_space_of_some (hrest : Stops isBlank rest) {v : β}
    (h : k ⟨⟨' ' :: before, rest⟩, captures⟩ = some v) :
    space.first? k ⟨⟨before, ' ' :: rest⟩, captures⟩ = some v :=
  first?_many_of_some (x := [' ']) (List.all_eq_true.mp rfl) hrest h

/-- Blanks before a sign are passed over. -/
theorem first?_space_sign {c : Char} (hc : isBlank c = false) (hrest : Stops isBlank rest) :
    space.first? ((sign c).first? k) ⟨⟨before, ' ' :: rest⟩, captures⟩ =
      (sign c).first? k ⟨⟨' ' :: before, rest⟩, captures⟩ := by
  apply first?_run_of_blocked false (x := [' ']) (List.all_eq_true.mp rfl) hrest
  rintro ⟨⟨b, a⟩, cs⟩ d hd hhead
  rw [List.mem_singleton] at hd
  cases a with
  | nil => cases hhead
  | cons e a =>
    cases hhead
    have hne : (d == c) = false := by
      rw [beq_eq_false_iff_ne]
      rintro rfl
      rw [hd] at hc
      exact absurd hc (by decide)
    rw [sign, first?_char_cons, hne, if_neg (by simp)]

theorem first?_sign {c : Char} :
    (sign c).first? k ⟨⟨before, c :: t⟩, captures⟩ = k ⟨⟨c :: before, t⟩, captures⟩ := by
  rw [sign, first?_char_cons, if_pos (beq_self_eq_true c)]

theorem first?_sign_eq_none {c : Char} (ht : Stops (· == c) t) :
    (sign c).first? k ⟨⟨before, t⟩, captures⟩ = none := by
  rw [sign]
  cases t with
  | nil => exact first?_char_nil _ _
  | cons d t =>
    rw [stops_cons] at ht
    rw [first?_char_cons, ht, if_neg (by simp)]

theorem first?_sign_of_ne {c d : Char} {w : Way} (hd : d ≠ c)
    (h : w.cursor.after.head? = some d) : (sign c).first? k w = none := by
  obtain ⟨⟨b, a⟩, cs⟩ := w
  apply first?_sign_eq_none
  intro e he
  rw [h] at he
  cases he
  simpa using hd

/-! ## Names -/

/-- A bare name is read as a whole if the rest of the pattern then matches. -/
theorem first?_name_of_some {x : Text} (hne : x ≠ []) (hx : ∀ c ∈ x, isNameChar c = true)
    (hrest : Stops isNameChar rest) {v : β}
    (h : k ⟨⟨x.reverse ++ before, rest⟩, captures⟩ = some v) :
    name.first? k ⟨⟨before, x ++ rest⟩, captures⟩ = some v := by
  rw [name, first?_any_cons, first?_many1_of_some hne hx hrest h, Option.some_or]

/-- A bare name is read as a whole if the rest of the pattern cannot start inside it. -/
theorem first?_name_of_blocked {x : Text} (hne : x ≠ []) (hx : ∀ c ∈ x, isNameChar c = true)
    (hquote : ∀ c ∈ x, "\x60\x22[".toList.contains c = false) (hrest : Stops isNameChar rest)
    (hblocked : ∀ w : Way, ∀ d ∈ x, w.cursor.after.head? = some d → k w = none) :
    name.first? k ⟨⟨before, x ++ rest⟩, captures⟩ = k ⟨⟨x.reverse ++ before, rest⟩, captures⟩ := by
  obtain ⟨c, more, rfl⟩ := List.exists_cons_of_ne_nil hne
  have hc := hquote c List.mem_cons_self
  simp only [String.reduceToList, List.contains_eq_mem, List.mem_cons, List.not_mem_nil, or_false,
    decide_eq_false_iff_not, not_or] at hc
  have hrun : (many1 isNameChar).first? k ⟨⟨before, c :: more ++ rest⟩, captures⟩ =
      k ⟨⟨(c :: more).reverse ++ before, rest⟩, captures⟩ := by
    rw [many1, first?_seq, List.cons_append, first?_char_cons, if_pos (hx c List.mem_cons_self),
      many, first?_run_of_blocked false (fun d hd => hx d (List.mem_cons_of_mem _ hd)) hrest
        fun w d hd => hblocked w d (List.mem_cons_of_mem _ hd),
      List.reverse_cons, List.append_assoc]
    rfl
  rw [name, first?_any_cons, hrun]
  simp [sign, hc]

theorem first?_name_eq_none (h : Stops (fun c => isNameChar c || "\x60\x22[".toList.contains c) t) :
    name.first? k ⟨⟨before, t⟩, captures⟩ = none := by
  cases t with
  | nil => simp [name, many1, sign]
  | cons c rest =>
    simp only [stops_cons, Bool.or_eq_false_iff, List.contains_eq_mem, decide_eq_false_iff_not] at h
    obtain ⟨hname, hquote⟩ := h
    simp only [String.reduceToList, List.mem_cons, not_or, List.not_mem_nil] at hquote
    simp [name, many1, sign, hname, hquote]

end
end Pattern
end SqlAudit
