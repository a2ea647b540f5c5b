import SqlAudit.Lexical.Balance
import SqlAudit.Lexical.Enclosed
import SqlAudit.Proofs.Lexical.Locality

/-!
Parentheses, counted outside quotes under one reading of the quotes.  A text is balanced if it is
closed under the reading that it settles on, and what an opening parenthesis encloses is the text up
to the place where the depth is back at its value before it.

The two need not be read alike.  A balance settles on one reading for its whole text, while the
search for a closing parenthesis takes the standard reading from the opening one on, and the other
reading only if that finds nothing.  Main statement: in a balanced text each opening parenthesis is
closed, under the reading of the text unless that is the one with backslash escapes and the standard
reading closes the parenthesis as well.
-/

namespace SqlAudit

/-- What a marked character adds to the depth. -/
def Mark.turn (m : Mark) : Int := if m.isCode '(' then 1 else if m.isCode ')' then -1 else 0

theorem QuoteState.open?_eq_none_iff (s : QuoteState) : s.open? = none ↔ s = .code := by
  cases s <;> simp [open?]

namespace Text

def depthFrom (escapes : Escapes) : QuoteState → Text → Int
  | _, [] => 0
  | s, c :: rest => Mark.turn ⟨c, s.holds c⟩ + depthFrom escapes (s.next escapes c) rest

/-- Opening minus closing parentheses of a text, outside quotes. -/
def depth (escapes : Escapes) (t : Text) : Int := depthFrom escapes .code t

theorem depthFrom_append (escapes : Escapes) (s : QuoteState) (a b : Text) :
    depthFrom escapes s (a ++ b) =
      depthFrom escapes s a + depthFrom escapes (a.foldl (QuoteState.next escapes) s) b := by
  induction a generalizing s with
  | nil =>
    show _ = 0 + depthFrom escapes s b
    rw [Int.zero_add]
    rfl
  | cons c rest ih => rw [List.cons_append, depthFrom, depthFrom, ih, List.foldl_cons, Int.add_assoc]

/-- A parenthesis counts where it is no part of a quoted run. -/
theorem depthFrom_close (escapes : Escapes) (s : QuoteState) :
    depthFrom escapes s [')'] = if s = .code then -1 else 0 := by
  cases s with
  | code => rfl
  | inside quote => rfl
  | escaped quote => rfl

theorem prefix_cons_cases {p t : Text} {c : Char} (h : p <+: c :: t) :
    p = [] ∨ ∃ q, q <+: t ∧ p = c :: q := by
  rcases List.prefix_cons_iff.mp h with rfl | ⟨q, rfl, hq⟩
  · exact .inl rfl
  · exact .inr ⟨q, hq, rfl⟩

/-! ## Balance -/

/-- Under a reading, no quote is left open and each parenthesis has its partner. -/
structure Closed (escapes : Escapes) (t : Text) : Prop where
  quotes : t.quoteState escapes = .code
  depth_eq : t.depth escapes = 0
  depth_nonneg : ∀ p, p <+: t → 0 ≤ depth escapes p

theorem count_fst (d : Int × Int) (m : Mark) : (Balance.count d m).1 = d.1 + m.turn := by
  unfold Balance.count Mark.turn
  split
  · rfl
  · split
    · show d.1 - 1 = d.1 + -1
      omega
    · show d.1 = d.1 + 0
      omega

theorem count_snd {d : Int × Int} (hd : d.2 ≤ d.1) (m : Mark) :
    (Balance.count d m).2 = min d.2 (d.1 + m.turn) := by
  unfold Balance.count Mark.turn
  split
  · show d.2 = min d.2 (d.1 + 1)
    omega
  · split
    · show min d.2 (d.1 - 1) = min d.2 (d.1 + -1)
      omega
    · show d.2 = min d.2 (d.1 + 0)
      omega

theorem foldl_count_fst (escapes : Escapes) (s : QuoteState) (t : Text) (d : Int × Int) :
    ((marksFrom escapes s t).foldl Balance.count d).1 = d.1 + depthFrom escapes s t := by
  induction t generalizing s d with
  | nil =>
    show d.1 = d.1 + 0
    omega
  | cons c rest ih => rw [marksFrom, List.foldl_cons, ih, count_fst, depthFrom, Int.add_assoc]

/-- The lowest depth is bounded from below by what bounds the depth after each initial part. -/
theorem le_foldl_count_snd_iff (escapes : Escapes) (s : QuoteState) (t : Text) {d : Int × Int}
    (hd : d.2 ≤ d.1) (bound : Int) :
    bound ≤ ((marksFrom escapes s t).foldl Balance.count d).2 ↔
      bound ≤ d.2 ∧ ∀ p, p <+: t → bound ≤ d.1 + depthFrom escapes s p := by
  induction t generalizing s d with
  | nil =>
    show bound ≤ d.2 ↔ _
    constructor
    · intro h
      refine ⟨h, fun p hp => ?_⟩
      rw [List.prefix_nil.mp hp]
      show bound ≤ d.1 + 0
      omega
    · exact fun h => h.1
  | cons c rest ih =>
    have hfst := count_fst d ⟨c, s.holds c⟩
    have hsnd := count_snd hd ⟨c, s.holds c⟩
    rw [marksFrom, List.foldl_cons, ih _ (by omega), hfst, hsnd]
    constructor
    · rintro ⟨hlow, hrest⟩
      refine ⟨by omega, fun p hp => ?_⟩
      rcases prefix_cons_cases hp with rfl | ⟨q, hq, rfl⟩
      · show bound ≤ d.1 + 0
        omega
      · have := hrest q hq
        rw [depthFrom]
        omega
    · rintro ⟨hlow, hall⟩
      have hstep : ∀ q, q <+: rest →
          bound ≤ d.1 + Mark.turn ⟨c, s.holds c⟩ + depthFrom escapes (s.next escapes c) q := by
        intro q hq
        have := hall (c :: q) (List.prefix_cons_inj c |>.mpr hq)
        rw [depthFrom] at this
        omega
      have hfirst := hstep [] (List.nil_prefix)
      rw [depthFrom] at hfirst
      exact ⟨by omega, hstep⟩

/-- A text is balanced if it is closed under the reading that it settles on. -/
theorem isBalanced_iff (t : Text) : t.balance.isBalanced = true ↔ Closed t.escapes t := by
  have hdepth : t.balance.depth = 0 ↔ t.depth t.escapes = 0 := by
    have hfst := foldl_count_fst t.escapes .code t (0, 0)
    show ((marksFrom t.escapes .code t).foldl Balance.count (0, 0)).1 = 0 ↔ _
    rw [hfst, Int.zero_add]
    rfl
  have hlowest : t.balance.lowest = 0 ↔ ∀ p, p <+: t → 0 ≤ depth t.escapes p := by
    have hiff := le_foldl_count_snd_iff t.escapes .code t (d := (0, 0)) (Int.le_refl 0)
    have hle := ((hiff _).mp (Int.le_refl _)).1
    have hzero := hiff 0
    simp only [Int.zero_add, Int.le_refl, true_and] at hzero
    show ((marksFrom t.escapes .code t).foldl Balance.count (0, 0)).2 = 0 ↔ _
    refine Iff.trans ⟨fun h => by omega, fun h => ?_⟩ hzero
    exact Int.le_antisymm hle h
  have hquotes : t.balance.openQuote = none ↔ t.quoteState t.escapes = .code :=
    QuoteState.open?_eq_none_iff _
  rw [Balance.isBalanced, Bool.and_eq_true, Bool.and_eq_true, beq_iff_eq, beq_iff_eq,
    Option.isNone_iff_eq_none, hdepth, hlowest, hquotes]
  constructor
  · rintro ⟨⟨hlevel, hlow⟩, hcode⟩
    exact ⟨hcode, hlevel, hlow⟩
  · rintro ⟨hcode, hlevel, hlow⟩
    exact ⟨⟨hlevel, hlow⟩, hcode⟩

theorem Closed.escapes_eq {t : Text} (h : Closed .standard t) : t.escapes = .standard := by
  have hopen : t.openQuote? .standard = none := (QuoteState.open?_eq_none_iff _).mpr h.quotes
  rw [escapes, hopen]
  rfl

/-! ## Enclosed texts -/

/-- Under a reading, `inner` is what a parenthesis after `front` encloses: the depth stays above its
value before the parenthesis, and the closing one brings it back. -/
structure Encloses (escapes : Escapes) (front inner : Text) : Prop where
  above : ∀ p, p <+: inner → depth escapes front < depth escapes (front ++ '(' :: p)
  back : depth escapes (front ++ '(' :: (inner ++ [')'])) = depth escapes front

/-- Under a reading, a parenthesis before `rest` is closed in it. -/
def ClosesIn (escapes : Escapes) (rest : Text) : Prop :=
  ∃ inner, inner ++ [')'] <+: rest ∧ Encloses escapes [] inner

theorem depth_append_open {escapes : Escapes} {front : Text}
    (hfront : front.quoteState escapes = .code) (t : Text) :
    depth escapes (front ++ '(' :: t) = depth escapes front + (1 + depth escapes t) := by
  have happend := depthFrom_append escapes .code front ('(' :: t)
  rw [show front.foldl (QuoteState.next escapes) .code = .code from hfront] at happend
  exact happend

/-- Outside quotes, what stands before the parenthesis does not matter. -/
theorem encloses_iff {escapes : Escapes} {front : Text} (hfront : front.quoteState escapes = .code)
    (inner : Text) :
    Encloses escapes front inner ↔
      (∀ p, p <+: inner → 0 ≤ depth escapes p) ∧ depth escapes (inner ++ [')']) = -1 := by
  have hdepth := depth_append_open hfront
  constructor
  · rintro ⟨habove, hback⟩
    refine ⟨fun p hp => ?_, ?_⟩
    · have := habove p hp
      rw [hdepth] at this
      omega
    · rw [hdepth] at hback
      omega
  · rintro ⟨habove, hback⟩
    refine ⟨fun p hp => ?_, ?_⟩
    · have := habove p hp
      rw [hdepth]
      omega
    · rw [hdepth]
      omega

theorem encloses_nil_iff {escapes : Escapes} {front : Text}
    (hfront : front.quoteState escapes = .code) (inner : Text) :
    Encloses escapes [] inner ↔ Encloses escapes front inner := by
  rw [encloses_iff rfl, encloses_iff hfront]

theorem Encloses.closed {escapes : Escapes} {inner : Text} (h : Encloses escapes [] inner) :
    Closed escapes inner := by
  obtain ⟨habove, hback⟩ := (encloses_iff rfl inner).mp h
  have hnonneg := habove inner List.prefix_rfl
  have hsplit : depth escapes (inner ++ [')']) =
      depth escapes inner + if inner.quoteState escapes = .code then -1 else 0 := by
    rw [← depthFrom_close]
    exact depthFrom_append escapes .code inner [')']
  split at hsplit
  · rename_i hcode
    exact ⟨hcode, by omega, habove⟩
  · omega

/-- One step of the search for the closing parenthesis: it ends here, or goes on with the levels that
are open after the character. -/
theorem upToClose_cons (inner : Nat) (m : Mark) (rest : List Mark) :
    inner = 0 ∧ m = ⟨')', false⟩ ∧ upToClose inner (m :: rest) = some [] ∨
      ∃ inner' : Nat, (inner' : Int) = inner + m.turn ∧
        upToClose inner (m :: rest) = (upToClose inner' rest).map (m.char :: ·) := by
  by_cases hopen : m.isCode '(' = true
  · refine .inr ⟨inner + 1, ?_, ?_⟩
    · simp [Mark.turn, hopen]
    · cases inner <;> simp [upToClose, hopen]
  by_cases hclose : m.isCode ')' = true
  · cases inner with
    | zero =>
      have hm : m = ⟨')', false⟩ := by
        rw [Mark.isCode, Bool.and_eq_true, Bool.not_eq_true', beq_iff_eq] at hclose
        cases m
        simp_all
      exact .inl ⟨rfl, hm, by simp [upToClose, hopen, hclose]⟩
    | succ below =>
      refine .inr ⟨below, ?_, by simp [upToClose, hopen, hclose]⟩
      simp only [Mark.turn, hopen, hclose, Bool.false_eq_true, if_false, if_true]
      omega
  · refine .inr ⟨inner, ?_, ?_⟩
    · simp [Mark.turn, hopen, hclose]
    · cases inner <;> simp [upToClose, hopen, hclose]

theorem upToClose_eq_none_iff (escapes : Escapes) (s : QuoteState) (t : Text) (inner : Nat) :
    upToClose inner (marksFrom escapes s t) = none ↔
      ∀ p, p <+: t → -(inner : Int) ≤ depthFrom escapes s p := by
  induction t generalizing s inner with
  | nil =>
    refine ⟨fun _ p hp => ?_, fun _ => ?_⟩
    · rw [List.prefix_nil.mp hp]
      show -(inner : Int) ≤ 0
      omega
    · cases inner <;> rfl
  | cons c rest ih =>
    rw [marksFrom]
    rcases upToClose_cons inner ⟨c, s.holds c⟩ (marksFrom escapes (s.next escapes c) rest) with
      ⟨rfl, hm, hsome⟩ | ⟨inner', hinner, hnext⟩
    · rw [hsome]
      refine ⟨fun h => absurd h (by simp), fun h => ?_⟩
      have hfirst := h [c] (by simp)
      rw [depthFrom, hm, depthFrom] at hfirst
      exact absurd hfirst (by decide)
    · rw [hnext, Option.map_eq_none_iff, ih]
      constructor
      · intro h p hp
        rcases prefix_cons_cases hp with rfl | ⟨q, hq, rfl⟩
        · show -(inner : Int) ≤ 0
          omega
        · have := h q hq
          rw [depthFrom]
          omega
      · intro h q hq
        have := h (c :: q) ((List.prefix_cons_inj c).mpr hq)
        rw [depthFrom] at this
        omega

theorem of_upToClose_eq_some {escapes : Escapes} {s : QuoteState} {t x : Text} {inner : Nat}
    (h : upToClose inner (marksFrom escapes s t) = some x) :
    x ++ [')'] <+: t ∧ depthFrom escapes s (x ++ [')']) = -(inner : Int) - 1 ∧
      ∀ p, p <+: x → -(inner : Int) ≤ depthFrom escapes s p := by
  induction t generalizing s inner x with
  | nil => cases inner <;> cases h
  | cons c rest ih =>
    rw [marksFrom] at h
    rcases upToClose_cons inner ⟨c, s.holds c⟩ (marksFrom escapes (s.next escapes c) rest) with
      ⟨rfl, hm, hsome⟩ | ⟨inner', hinner, hnext⟩
    · rw [hsome] at h
      cases h
      obtain ⟨rfl, hholds⟩ := Mark.mk.inj hm
      refine ⟨by simp, ?_, fun p hp => ?_⟩
      · show depthFrom escapes s [')'] = _
        rw [depthFrom, hm]
        rfl
      · rw [List.prefix_nil.mp hp]
        exact Int.le_refl 0
    · rw [hnext] at h
      obtain ⟨y, hy, rfl⟩ := Option.map_eq_some_iff.mp h
      obtain ⟨hstands, hback, habove⟩ := ih hy
      refine ⟨?_, ?_, fun p hp => ?_⟩
      · exact (List.prefix_cons_inj c).mpr hstands
      · show depthFrom escapes s (c :: (y ++ [')'])) = _
        rw [depthFrom, hback]
        omega
      · rcases prefix_cons_cases hp with rfl | ⟨q, hq, rfl⟩
        · show -(inner : Int) ≤ 0
          omega
        · have := habove q hq
          show -(inner : Int) ≤ depthFrom escapes s (c :: q)
          rw [depthFrom]
          omega

/-- The search under one reading finds what the parenthesis encloses. -/
theorem encloses_of_upToClose {escapes : Escapes} {rest inner : Text}
    (h : upToClose 0 (rest.marks escapes) = some inner) :
    Encloses escapes [] inner ∧ inner ++ [')'] <+: rest := by
  obtain ⟨hstands, hback, habove⟩ := of_upToClose_eq_some h
  exact ⟨(encloses_iff rfl inner).mpr ⟨habove, hback⟩, hstands⟩

theorem upToClose_eq_none_iff_not_closesIn (escapes : Escapes) (rest : Text) :
    upToClose 0 (rest.marks escapes) = none ↔ ¬ ClosesIn escapes rest := by
  constructor
  · rintro hnone ⟨inner, hstands, hencloses⟩
    have hdepth := (upToClose_eq_none_iff escapes .code rest 0).mp hnone _ hstands
    have hback := ((encloses_iff rfl inner).mp hencloses).2
    rw [← depth, hback] at hdepth
    exact absurd hdepth (by decide)
  · intro hcloses
    cases hsearch : upToClose 0 (rest.marks escapes) with
    | none => rfl
    | some inner =>
      obtain ⟨hencloses, hstands⟩ := encloses_of_upToClose hsearch
      exact absurd ⟨inner, hstands, hencloses⟩ hcloses

theorem closesIn_of_closed {escapes : Escapes} {front rest : Text}
    (h : Closed escapes (front ++ '(' :: rest)) (hfront : front.quoteState escapes = .code) :
    ClosesIn escapes rest := by
  have hlow : 0 ≤ depth escapes front := h.depth_nonneg front (List.prefix_append _ _)
  have hdepth : depth escapes (front ++ '(' :: rest) =
      depth escapes front + (1 + depth escapes rest) := depth_append_open hfront rest
  apply Classical.byContradiction
  intro hnot
  have hnone := (upToClose_eq_none_iff_not_closesIn escapes rest).mpr hnot
  have hrest : -((0 : Nat) : Int) ≤ depth escapes rest :=
    (upToClose_eq_none_iff escapes .code rest 0).mp hnone rest List.prefix_rfl
  have hlevel := h.depth_eq
  omega

/-- A parenthesis that some reading closes is closed by the search, under the standard reading if
this closes it. -/
theorem exists_enclosed? {escapes : Escapes} {rest : Text} (h : ClosesIn escapes rest) :
    ∃ reading inner, enclosed? rest = some inner ∧ Encloses reading [] inner ∧
      inner ++ [')'] <+: rest ∧ (reading = .standard ↔ ClosesIn .standard rest) := by
  rw [enclosed?]
  cases hstandard : upToClose 0 (rest.marks .standard) with
  | some inner =>
    obtain ⟨hencloses, hstands⟩ := encloses_of_upToClose hstandard
    exact ⟨.standard, inner, rfl, hencloses, hstands, fun _ => ⟨inner, hstands, hencloses⟩,
      fun _ => rfl⟩
  | none =>
    have hopen := (upToClose_eq_none_iff_not_closesIn .standard rest).mp hstandard
    have hescapes : escapes = .backslash := by
      cases escapes with
      | standard => exact absurd h hopen
      | backslash => rfl
    subst hescapes
    cases hbackslash : upToClose 0 (rest.marks .backslash) with
    | some inner =>
      obtain ⟨hencloses, hstands⟩ := encloses_of_upToClose hbackslash
      exact ⟨.backslash, inner, rfl, hencloses, hstands, fun h => (by cases h),
        fun h => absurd h hopen⟩
    | none => exact absurd h ((upToClose_eq_none_iff_not_closesIn .backslash rest).mp hbackslash)

theorem enclosure?_append (front rest : Text) :
    enclosure? (front ++ '(' :: rest) front.size =
      (enclosed? rest).map fun inner => (front.size, front.size + 1 + inner.size) := by
  rw [enclosure?, atByte?_append]
  rfl

/-- In a balanced text, a parenthesis that opens outside quoted runs has a partner, and the search
gives the first place where the depth is back.  The depth is counted under the reading of the text,
unless this has backslash escapes and the standard reading closes the parenthesis as well: then the
standard reading counts, from the parenthesis on.  What is enclosed is closed under the reading that
counts, and so it is balanced if it settles on this reading. -/
theorem enclosure?_of_isBalanced {front rest : Text}
    (hbalanced : (front ++ '(' :: rest).balance.isBalanced = true)
    (hfront : front.quoteState (front ++ '(' :: rest).escapes = .code) :
    ∃ reading inner back, rest = inner ++ ')' :: back ∧
      enclosure? (front ++ '(' :: rest) front.size =
        some (front.size, front.size + 1 + inner.size) ∧
      ((front ++ '(' :: rest).escapes = .standard → reading = .standard) ∧
      (reading = .standard ↔ ClosesIn .standard rest) ∧
      Encloses reading [] inner ∧
      (reading = (front ++ '(' :: rest).escapes → Encloses reading front inner) ∧
      Closed reading inner ∧
      (reading = .standard ∨ inner.escapes = reading → inner.balance.isBalanced = true) := by
  have hcloses := closesIn_of_closed ((isBalanced_iff _).mp hbalanced) hfront
  obtain ⟨reading, inner, hinner, hencloses, ⟨back, hrest⟩, hreading⟩ := exists_enclosed? hcloses
  have hclosed := hencloses.closed
  refine ⟨reading, inner, back, ?_, ?_, fun hstandard => ?_, hreading, hencloses, fun hsame => ?_,
    hclosed, fun hsettled => ?_⟩
  · rw [← hrest, List.append_assoc]
    rfl
  · rw [enclosure?_append, hinner]
    rfl
  · rw [hstandard] at hcloses
    exact hreading.mpr hcloses
  · rw [← hsame] at hfront
    exact (encloses_nil_iff hfront inner).mp hencloses
  · have hescapes : inner.escapes = reading := by
      rcases hsettled with rfl | hsettled
      · exact hclosed.escapes_eq
      · exact hsettled
    rw [isBalanced_iff, hescapes]
    exact hclosed

/-- A literal with an escaped quote, in a text that leaves a quote open without escapes. -/
theorem enclosure?_of_isBalanced_escaped :
    (balance "g('it\\'s', f(x))".toList).isBalanced = true ∧
      quoteState (escapes "g('it\\'s', f(x))".toList) "g".toList = .code ∧
      ∃ (reading : Escapes) (inner back : Text),
        "'it\\'s', f(x))".toList = inner ++ ')' :: back ∧
        enclosure? "g('it\\'s', f(x))".toList 1 = some (1, 2 + size inner) ∧
        Encloses reading [] inner ∧ Closed reading inner := by
  have hbalanced : (balance ("g".toList ++ '(' :: "'it\\'s', f(x))".toList)).isBalanced = true := by
    decide
  have hfront : quoteState (escapes ("g".toList ++ '(' :: "'it\\'s', f(x))".toList)) "g".toList =
      .code := by
    decide
  obtain ⟨reading, inner, back, hrest, hspan, -, -, hencloses, -, hclosed, -⟩ :=
    enclosure?_of_isBalanced hbalanced hfront
  exact ⟨hbalanced, hfront, reading, inner, back, hrest, hspan, hencloses, hclosed⟩

/-- The readings part: in a balanced text the search closes a parenthesis inside what is a literal for
the text as a whole, and what it rightly finds in another one is not balanced by itself. -/
theorem enclosure?_not_by_reading_of_text :
    (balance "('\\')', x)".toList).isBalanced = true ∧
      escapes "('\\')', x)".toList = .backslash ∧
      enclosure? "('\\')', x)".toList 0 = some (0, 4) ∧
      ¬ Encloses .backslash [] "'\\'".toList ∧
      Encloses .backslash [] "'\\')', x".toList ∧
      (balance "('\\'(', '\\')') '\\''".toList).isBalanced = true ∧
      enclosure? "('\\'(', '\\')') '\\''".toList 0 = some (0, 13) ∧
      (balance "'\\'(', '\\')'".toList).isBalanced = false := by
  refine ⟨by decide, by decide, by decide, fun h => absurd h.back (by decide), ?_, by decide,
    by decide, by decide⟩
  have hsearch : upToClose 0 (marks .backslash "'\\')', x)".toList) = some "'\\')', x".toList := by
    decide
  exact (encloses_of_upToClose hsearch).1

end Text
end SqlAudit
