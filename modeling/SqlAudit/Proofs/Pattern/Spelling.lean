import SqlAudit.Proofs.Pattern.Extension

/-!
Patterns that must match a whole text.  A pattern without edges, and without repetitions other than
of characters, spells texts regardless of where they stand, and what it captures are pieces of the
text.  Bound to both ends of a text, it matches exactly the texts that it spells.
-/

namespace SqlAudit

open Text

def Capture.entry (c : Capture) : Part × Text := (c.part, c.text)

namespace Pattern

/-- Whether a pattern looks only at the characters that it reads, and repeats nothing but
characters. -/
def plain : Pattern → Bool
  | .done | .char _ | .run _ _ => true
  | .seq first second => first.plain && second.plain
  | .alt left right => left.plain && right.plain
  | .capture _ body => body.plain
  | .star _ | .edge | .start | .stop => false

/-- A pattern reads a text as a whole, and on the way it captures the given parts, latest first. -/
def Spells : Pattern → Text → List (Part × Text) → Prop
  | .done, x, parts => x = [] ∧ parts = []
  | .char accepts, x, parts => (∃ c, accepts c = true ∧ x = [c]) ∧ parts = []
  | .run _ accepts, x, parts => (∀ c ∈ x, accepts c = true) ∧ parts = []
  | .seq first second, x, parts => ∃ y z early late, x = y ++ z ∧ parts = late ++ early ∧
      first.Spells y early ∧ second.Spells z late
  | .alt left right, x, parts => left.Spells x parts ∨ right.Spells x parts
  | .capture part body, x, parts => ∃ inner, parts = (part, x) :: inner ∧ body.Spells x inner
  | .star _, _, _ | .edge, _, _ | .start, _, _ | .stop, _, _ => False

section

variable {x : Text} {parts : List (Part × Text)}

theorem spells_done : done.Spells x parts ↔ x = [] ∧ parts = [] := Iff.rfl

theorem spells_char (accepts : Char → Bool) :
    (char accepts).Spells x parts ↔ (∃ c, accepts c = true ∧ x = [c]) ∧ parts = [] := Iff.rfl

theorem spells_seq (first second : Pattern) :
    (seq first second).Spells x parts ↔ ∃ y z early late, x = y ++ z ∧ parts = late ++ early ∧
      first.Spells y early ∧ second.Spells z late := Iff.rfl

theorem spells_alt (left right : Pattern) :
    (alt left right).Spells x parts ↔ left.Spells x parts ∨ right.Spells x parts := Iff.rfl

theorem spells_capture (part : Part) (body : Pattern) :
    (capture part body).Spells x parts ↔ ∃ inner, parts = (part, x) :: inner ∧
      body.Spells x inner := Iff.rfl

end

/-! ## Ways and spellings -/

/-- What a way reads is spelled, with the parts that it captures. -/
theorem spells_of_mem_ways {p : Pattern} (hp : p.plain = true) {w v : Way} (h : v ∈ p.ways w) :
    ∃ x found, w.cursor.after = x ++ v.cursor.after ∧ v.captures = found ++ w.captures ∧
      p.Spells x (found.map Capture.entry) := by
  induction p generalizing w v with
  | done =>
    rw [mem_ways_done.mp h]
    exact ⟨[], [], rfl, rfl, rfl, rfl⟩
  | char accepts =>
    obtain ⟨c, rest, hafter, hc, rfl⟩ := mem_ways_char.mp h
    exact ⟨[c], [], hafter, rfl, ⟨c, hc, rfl⟩, rfl⟩
  | run reluctant accepts =>
    obtain ⟨cursor, hcursor, rfl⟩ := mem_ways_run.mp h
    obtain ⟨x, hx, hafter⟩ := exists_of_mem_stops hcursor
    exact ⟨x, [], hafter, rfl, hx, rfl⟩
  | seq first second ihf ihs =>
    rw [plain, Bool.and_eq_true] at hp
    obtain ⟨u, hu, h⟩ := mem_ways_seq.mp h
    obtain ⟨y, early, hy, hearly, hfirst⟩ := ihf hp.1 hu
    obtain ⟨z, late, hz, hlate, hsecond⟩ := ihs hp.2 h
    refine ⟨y ++ z, late ++ early, ?_, ?_, y, z, _, _, rfl, ?_, hfirst, hsecond⟩
    · rw [hy, hz, List.append_assoc]
    · rw [hlate, hearly, List.append_assoc]
    · rw [List.map_append]
  | alt left right ihl ihr =>
    rw [plain, Bool.and_eq_true] at hp
    rcases mem_ways_alt.mp h with h | h
    · obtain ⟨x, found, hx, hfound, hspells⟩ := ihl hp.1 h
      exact ⟨x, found, hx, hfound, .inl hspells⟩
    · obtain ⟨x, found, hx, hfound, hspells⟩ := ihr hp.2 h
      exact ⟨x, found, hx, hfound, .inr hspells⟩
  | capture part body ih =>
    obtain ⟨u, hu, rfl⟩ := mem_ways_capture.mp h
    obtain ⟨x, found, hx, hfound, hspells⟩ := ih hp hu
    refine ⟨x, ⟨part, w.cursor, u.cursor⟩ :: found, hx, ?_, found.map Capture.entry, ?_, hspells⟩
    · rw [hfound, List.cons_append]
    · have htext : w.cursor.upTo u.cursor = x := by
        rw [Cursor.upTo, hx, List.length_append, Nat.add_sub_cancel, List.take_left]
      rw [List.map_cons, Capture.entry, Capture.text, htext]
  | star body => cases hp
  | edge => cases hp
  | start => cases hp
  | stop => cases hp

theorem mem_stops_append {accepts : Char → Bool} {x : Text} (hx : ∀ c ∈ x, accepts c = true)
    (before rest : Text) : ⟨x.reverse ++ before, rest⟩ ∈ stops accepts before (x ++ rest) := by
  induction x generalizing before with
  | nil => cases rest <;> exact List.mem_cons_self
  | cons c x ih =>
    have hlater := ih (fun d hd => hx d (List.mem_cons_of_mem c hd)) (c :: before)
    rw [List.cons_append, stops, if_pos (hx c List.mem_cons_self), List.reverse_cons,
      List.append_assoc]
    exact List.mem_cons_of_mem _ hlater

/-- What is spelled is read by some way, wherever it stands. -/
theorem exists_mem_ways_of_spells {p : Pattern} {x : Text} {parts : List (Part × Text)}
    (h : p.Spells x parts) (before rest : Text) (captures : List Capture) :
    ∃ v ∈ p.ways ⟨⟨before, x ++ rest⟩, captures⟩, v.cursor = ⟨x.reverse ++ before, rest⟩ := by
  induction p generalizing x parts before rest captures with
  | done =>
    obtain ⟨rfl, -⟩ := h
    exact ⟨_, mem_ways_done.mpr rfl, rfl⟩
  | char accepts =>
    obtain ⟨⟨c, hc, rfl⟩, -⟩ := h
    exact ⟨_, mem_ways_char.mpr ⟨c, rest, rfl, hc, rfl⟩, rfl⟩
  | run reluctant accepts =>
    exact ⟨_, mem_ways_run.mpr ⟨_, mem_stops_append h.1 before rest, rfl⟩, rfl⟩
  | seq first second ihf ihs =>
    obtain ⟨y, z, early, late, rfl, -, hy, hz⟩ := h
    obtain ⟨u, hu, hcursor⟩ := ihf hy before (z ++ rest) captures
    obtain ⟨v, hv, hend⟩ := ihs hz (y.reverse ++ before) rest u.captures
    rw [← hcursor] at hv
    refine ⟨v, ?_, ?_⟩
    · rw [List.append_assoc]
      exact mem_ways_seq.mpr ⟨u, hu, hv⟩
    · rw [hend, List.reverse_append, List.append_assoc]
  | alt left right ihl ihr =>
    rcases h with h | h
    · obtain ⟨v, hv, hcursor⟩ := ihl h before rest captures
      exact ⟨v, mem_ways_alt.mpr (.inl hv), hcursor⟩
    · obtain ⟨v, hv, hcursor⟩ := ihr h before rest captures
      exact ⟨v, mem_ways_alt.mpr (.inr hv), hcursor⟩
  | capture part body ih =>
    obtain ⟨inner, -, hbody⟩ := h
    obtain ⟨v, hv, hcursor⟩ := ih hbody before rest captures
    exact ⟨_, mem_ways_capture.mpr ⟨v, hv, rfl⟩, hcursor⟩
  | star body => cases h
  | edge => cases h
  | start => cases h
  | stop => cases h

/-! ## Patterns bound to both ends -/

theorem mem_ways_all_start {ps : List Pattern} {t : Text} {v : Way} :
    v ∈ (all (start :: ps)).ways ⟨Cursor.first t, []⟩ ↔ v ∈ (all ps).ways ⟨Cursor.first t, []⟩ := by
  have hstart : start.ways ⟨Cursor.first t, []⟩ = [⟨Cursor.first t, []⟩] := rfl
  cases ps with
  | nil =>
    show v ∈ start.ways _ ↔ v ∈ [_]
    rw [hstart]
  | cons p more =>
    show v ∈ (seq start (all (p :: more))).ways _ ↔ _
    rw [ways, hstart, List.flatMap_singleton]

/-- A pattern that is bound to both ends reads the whole text. -/
theorem mem_ways_bound {ps : List Pattern} {t : Text} {v : Way} :
    v ∈ (all (start :: (ps ++ [stop]))).ways ⟨Cursor.first t, []⟩ ↔
      v ∈ (all ps).ways ⟨Cursor.first t, []⟩ ∧ v.cursor.after = [] := by
  rw [mem_ways_all_start, mem_ways_all_append]
  constructor
  · rintro ⟨u, hu, hv⟩
    obtain ⟨hend, rfl⟩ := mem_ways_stop.mp hv
    exact ⟨hu, hend⟩
  · rintro ⟨hv, hend⟩
    exact ⟨v, hv, mem_ways_stop.mpr ⟨hend, rfl⟩⟩

/-- A match of a pattern that is bound to both ends spells the text, and its parts are those that
are captured. -/
theorem spells_of_find? {ps : List Pattern} (hps : (all ps).plain = true) {t : Text} {m : Match}
    (h : (all (start :: (ps ++ [stop]))).find? t = some m) :
    ∃ parts, (all ps).Spells t parts ∧
      ∀ part, m.textOf? part = (parts.find? (·.1 = part)).map Prod.snd := by
  rw [find?_start] at h
  obtain ⟨hway, hend⟩ := mem_ways_bound.mp (of_matchAt?_eq_some h).2
  obtain ⟨x, found, hafter, hcaptures, hspells⟩ := spells_of_mem_ways hps hway
  have hx : t = x := by
    rw [hend, List.append_nil] at hafter
    exact hafter
  have hm : m.captures = found := by simpa using hcaptures
  refine ⟨found.map Capture.entry, hx ▸ hspells, fun part => ?_⟩
  rw [Match.textOf?, Match.part?, hm, List.find?_map, Option.map_map]
  rfl

theorem exists_find?_of_spells {ps : List Pattern} {t : Text} {parts : List (Part × Text)}
    (h : (all ps).Spells t parts) : ∃ m, (all (start :: (ps ++ [stop]))).find? t = some m := by
  obtain ⟨v, hv, hcursor⟩ := exists_mem_ways_of_spells h [] [] []
  rw [List.append_nil] at hv
  have hway : v ∈ (all (start :: (ps ++ [stop]))).ways ⟨Cursor.first t, []⟩ :=
    mem_ways_bound.mpr ⟨hv, by rw [hcursor]⟩
  rw [find?_start, matchAt?]
  cases hways : (all (start :: (ps ++ [stop]))).ways ⟨Cursor.first t, []⟩ with
  | nil =>
    rw [hways] at hway
    cases hway
  | cons w rest => exact ⟨_, rfl⟩

/-- A pattern that is bound to both ends occurs in the texts that it spells. -/
theorem occursIn_iff_spells {ps : List Pattern} (hps : (all ps).plain = true) (t : Text) :
    (all (start :: (ps ++ [stop]))).occursIn t = true ↔ ∃ parts, (all ps).Spells t parts := by
  rw [occursIn, Option.isSome_iff_exists]
  constructor
  · rintro ⟨m, hm⟩
    obtain ⟨parts, hspells, -⟩ := spells_of_find? hps hm
    exact ⟨parts, hspells⟩
  · rintro ⟨parts, hspells⟩
    exact exists_find?_of_spells hspells

/-! ## Compound patterns -/

section

variable {x : Text} {parts : List (Part × Text)}

theorem spells_all_cons (p : Pattern) (ps : List Pattern) :
    (all (p :: ps)).Spells x parts ↔ ∃ y z early late, x = y ++ z ∧ parts = late ++ early ∧
      p.Spells y early ∧ (all ps).Spells z late := by
  cases ps with
  | nil => simp [all, spells_done]
  | cons q more => exact Iff.rfl

theorem spells_all_append (ps qs : List Pattern) :
    (all (ps ++ qs)).Spells x parts ↔ ∃ y z early late, x = y ++ z ∧ parts = late ++ early ∧
      (all ps).Spells y early ∧ (all qs).Spells z late := by
  induction ps generalizing x parts with
  | nil => simp [all, spells_done]
  | cons p ps ih =>
    simp only [List.cons_append, spells_all_cons, ih]
    constructor
    · rintro ⟨y, _, early, _, rfl, rfl, hp, z, u, mid, late, rfl, rfl, hps, hqs⟩
      exact ⟨y ++ z, u, mid ++ early, late, by simp, by simp, ⟨y, z, early, mid, rfl, rfl, hp, hps⟩,
        hqs⟩
    · rintro ⟨_, u, _, late, rfl, rfl, ⟨y, z, early, mid, rfl, rfl, hp, hps⟩, hqs⟩
      exact ⟨y, z ++ u, early, late ++ mid, by simp, by simp, hp, z, u, mid, late, rfl, rfl, hps, hqs⟩

end

/-- A pattern spells the texts of a class, and captures nothing. -/
def Takes (p : Pattern) (Q : Text → Prop) : Prop := ∀ x parts, p.Spells x parts ↔ Q x ∧ parts = []

section

variable {p q : Pattern} {ps : List Pattern} {P Q : Text → Prop}

theorem takes_sign (c : Char) : (sign c).Takes (· = [c]) := by
  intro x parts
  simp [sign, spells_char]

theorem takes_oneOf (s : String) : (oneOf s).Takes fun x => ∃ c ∈ s.toList, x = [c] := by
  intro x parts
  simp [oneOf, spells_char]

theorem Takes.of_iff (hp : p.Takes P) (h : ∀ x, P x ↔ Q x) : p.Takes Q := by
  intro x parts
  rw [hp x parts, h]

theorem Takes.seq (hp : p.Takes P) (hq : q.Takes Q) :
    (Pattern.seq p q).Takes fun x => ∃ y z, x = y ++ z ∧ P y ∧ Q z := by
  intro x parts
  rw [spells_seq]
  constructor
  · rintro ⟨y, z, early, late, rfl, rfl, hfirst, hsecond⟩
    obtain ⟨hy, rfl⟩ := (hp y early).mp hfirst
    obtain ⟨hz, rfl⟩ := (hq z late).mp hsecond
    exact ⟨⟨y, z, rfl, hy, hz⟩, rfl⟩
  · rintro ⟨⟨y, z, rfl, hy, hz⟩, rfl⟩
    exact ⟨y, z, [], [], rfl, rfl, (hp y []).mpr ⟨hy, rfl⟩, (hq z []).mpr ⟨hz, rfl⟩⟩

theorem Takes.alt (hp : p.Takes P) (hq : q.Takes Q) :
    (Pattern.alt p q).Takes fun x => P x ∨ Q x := by
  intro x parts
  rw [spells_alt, hp x parts, hq x parts, or_and_right]

theorem Takes.opt (hp : p.Takes P) : (Pattern.opt p).Takes fun x => P x ∨ x = [] := by
  intro x parts
  rw [Pattern.opt, spells_alt, hp x parts, spells_done, or_and_right]

theorem Takes.all_cons (hp : p.Takes P) (hps : (all ps).Takes Q) :
    (all (p :: ps)).Takes fun x => ∃ y z, x = y ++ z ∧ P y ∧ Q z := by
  cases ps with
  | nil =>
    refine hp.of_iff fun x => ?_
    have hnil : ∀ z, Q z ↔ z = [] := fun z => by simpa [all, spells_done] using (hps z []).symm
    simp [hnil]
  | cons q more => exact hp.seq hps

theorem takes_sign_cons (c : Char) (hps : (all ps).Takes Q) :
    (all (sign c :: ps)).Takes fun x => ∃ z, x = c :: z ∧ Q z :=
  ((takes_sign c).all_cons hps).of_iff fun x => by simp

theorem Takes.spells_capture (hp : p.Takes P) (part : Part) {x : Text}
    {parts : List (Part × Text)} :
    (capture part p).Spells x parts ↔ P x ∧ parts = [(part, x)] := by
  rw [Pattern.spells_capture]
  constructor
  · rintro ⟨inner, rfl, hbody⟩
    obtain ⟨hx, rfl⟩ := (hp x inner).mp hbody
    exact ⟨hx, rfl⟩
  · rintro ⟨hx, rfl⟩
    exact ⟨[], rfl, (hp x []).mpr ⟨hx, rfl⟩⟩

theorem takes_many (accepts : Char → Bool) :
    (many accepts).Takes fun x => ∀ c ∈ x, accepts c = true := fun _ _ => Iff.rfl

theorem takes_many1 (accepts : Char → Bool) :
    (many1 accepts).Takes fun x => x ≠ [] ∧ ∀ c ∈ x, accepts c = true := by
  have hchar : (char accepts).Takes fun x => ∃ c, accepts c = true ∧ x = [c] := fun _ _ => Iff.rfl
  refine (hchar.seq (takes_many accepts)).of_iff fun x => ?_
  constructor
  · rintro ⟨_, z, rfl, ⟨c, hc, rfl⟩, hz⟩
    exact ⟨List.cons_ne_nil _ _, List.forall_mem_cons.mpr ⟨hc, hz⟩⟩
  · rintro ⟨hne, hx⟩
    obtain ⟨c, z, rfl⟩ := List.exists_cons_of_ne_nil hne
    obtain ⟨hc, hz⟩ := List.forall_mem_cons.mp hx
    exact ⟨[c], z, rfl, ⟨c, hc, rfl⟩, hz⟩

theorem takes_exactly_char (n : Nat) (accepts : Char → Bool) :
    (exactly n (char accepts)).Takes fun x => x.length = n ∧ ∀ c ∈ x, accepts c = true := by
  induction n with
  | zero =>
    intro x parts
    simp +contextual [exactly, all, spells_done]
  | succ n ih =>
    have hchar : (char accepts).Takes fun x => ∃ c, accepts c = true ∧ x = [c] := fun _ _ => Iff.rfl
    have hall := hchar.all_cons (show (all (List.replicate n (char accepts))).Takes _ from ih)
    refine hall.of_iff fun x => ?_
    constructor
    · rintro ⟨_, z, rfl, ⟨c, hc, rfl⟩, hlength, hz⟩
      exact ⟨by simp [hlength], List.forall_mem_cons.mpr ⟨hc, hz⟩⟩
    · rintro ⟨hlength, hx⟩
      cases x with
      | nil => cases hlength
      | cons c z =>
        obtain ⟨hc, hz⟩ := List.forall_mem_cons.mp hx
        exact ⟨[c], z, rfl, ⟨c, hc, rfl⟩, by simpa using hlength, hz⟩

theorem takes_upTo_char (n : Nat) (accepts : Char → Bool) :
    (upTo n (char accepts)).Takes fun x => x.length ≤ n ∧ ∀ c ∈ x, accepts c = true := by
  induction n with
  | zero =>
    intro x parts
    simp +contextual [upTo, spells_done]
  | succ n ih =>
    have hchar : (char accepts).Takes fun x => ∃ c, accepts c = true ∧ x = [c] := fun _ _ => Iff.rfl
    refine (hchar.seq ih).opt.of_iff fun x => ?_
    constructor
    · rintro (⟨_, z, rfl, ⟨c, hc, rfl⟩, hlength, hz⟩ | rfl)
      · exact ⟨by simpa using hlength, List.forall_mem_cons.mpr ⟨hc, hz⟩⟩
      · simp
    · rintro ⟨hlength, hx⟩
      cases x with
      | nil => exact .inr rfl
      | cons c z =>
        obtain ⟨hc, hz⟩ := List.forall_mem_cons.mp hx
        exact .inl ⟨[c], z, rfl, ⟨c, hc, rfl⟩, by simpa using hlength, hz⟩

end

end Pattern

/-! ## Digits -/

def Text.IsDigits (n : Nat) (x : Text) : Prop := x.length = n ∧ ∀ c ∈ x, isDigit c = true

theorem Pattern.takes_digit : digit.Takes fun x => ∃ c, isDigit c = true ∧ x = [c] := fun _ _ => Iff.rfl

theorem Pattern.takes_exactly_digit (n : Nat) : (exactly n digit).Takes (IsDigits n) :=
  takes_exactly_char n isDigit

end SqlAudit
