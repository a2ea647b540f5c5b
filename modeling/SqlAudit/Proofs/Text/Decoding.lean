import SqlAudit.Input
import SqlAudit.Proofs.Lexical.Geometry

/-!
Decoding of bytes that need not be UTF-8.  `Reads` says what the text of bytes is, without a
decoder: each character stands for its own bytes, and one mark stands for each longest run of bytes
that begins a character which the bytes then break off, or for one byte that begins none.  The
decoder reads just this text, and a newline is never a part of such a run, so that lines are decoded
each by itself.
-/

namespace SqlAudit
namespace Utf8

/-- Bytes with which a character begins, without its last ones. -/
def IsPartial (bytes : List UInt8) : Prop :=
  bytes ≠ [] ∧ ∃ c more, more ≠ [] ∧ String.utf8EncodeChar c = bytes ++ more

/-- The bytes `part`, with `rest` after them, are no character and are replaced by one mark. -/
structure Broken (part rest : List UInt8) : Prop where
  noCharacter : ∀ c, ¬ String.utf8EncodeChar c <+: part ++ rest
  begins : IsPartial part ∨ ∃ b, part = [b]
  longest : ∀ longer, longer <+: part ++ rest → IsPartial longer → longer.length ≤ part.length

/-- The text of bytes. -/
inductive Reads : List UInt8 → Text → Prop where
  | nil : Reads [] []
  | character (c : Char) {rest : List UInt8} {t : Text} :
      Reads rest t → Reads (String.utf8EncodeChar c ++ rest) (c :: t)
  | broken {part rest : List UInt8} {t : Text} :
      Broken part rest → Reads rest t → Reads (part ++ rest) (replacement :: t)

theorem Broken.ne_nil {part rest : List UInt8} (h : Broken part rest) : part ≠ [] := by
  rcases h.begins with hpart | ⟨b, hpart⟩
  · exact hpart.1
  · rw [hpart]
    exact List.cons_ne_nil b []

/-! ## The bytes of a character -/

/-- The bytes that complete a character of which some bytes have been read. -/
inductive Completes : Pending → List UInt8 → Char → Prop where
  | last {value first last : Nat} {b : UInt8} : first ≤ b.toNat → b.toNat ≤ last →
      Completes ⟨value, 0, first, last⟩ [b] (Char.ofNat (value * 64 + (b.toNat - 0x80)))
  | next {value more first last : Nat} {b : UInt8} {bytes : List UInt8} {c : Char} :
      first ≤ b.toNat → b.toNat ≤ last →
      Completes ⟨value * 64 + (b.toNat - 0x80), more, 0x80, 0xBF⟩ bytes c →
      Completes ⟨value, more + 1, first, last⟩ (b :: bytes) c

theorem ofNat_eq_of_mod {n : Nat} {b : UInt8} (h : n % 256 = b.toNat) : UInt8.ofNat n = b := by
  apply UInt8.toNat_inj.mp
  rw [UInt8.toNat_ofNat', h]

theorem utf8EncodeChar_eq {c : Char} {n : Nat} (hc : c = Char.ofNat n)
    (hn : n < 0xD800 ∨ 0xDFFF < n ∧ n < 0x110000) :
    String.utf8EncodeChar c =
      if n ≤ 0x7F then [UInt8.ofNat n]
      else if n ≤ 0x7FF then [UInt8.ofNat (n / 64 % 32 + 0xC0), UInt8.ofNat (n % 64 + 0x80)]
      else if n ≤ 0xFFFF then [UInt8.ofNat (n / 4096 % 16 + 0xE0),
        UInt8.ofNat (n / 64 % 64 + 0x80), UInt8.ofNat (n % 64 + 0x80)]
      else [UInt8.ofNat (n / 262144 % 8 + 0xF0), UInt8.ofNat (n / 4096 % 64 + 0x80),
        UInt8.ofNat (n / 64 % 64 + 0x80), UInt8.ofNat (n % 64 + 0x80)] := by
  have hval : c.val.toNat = n := by
    rw [hc, Char.ofNat, dif_pos hn]
    rfl
  rw [← hval]
  rfl

/-- What a first byte of two, three and four starts. -/
theorem pending?_two {b : Nat} (h : 0xC2 ≤ b) (h' : b ≤ 0xDF) :
    pending? b = some ⟨b - 0xC0, 0, 0x80, 0xBF⟩ := by
  rw [pending?, if_pos ⟨h, h'⟩]

theorem pending?_three {b : Nat} (h : 0xE0 ≤ b) (h' : b ≤ 0xEF) :
    ∃ first last, pending? b = some ⟨b - 0xE0, 1, first, last⟩ ∧
      (b = 0xE0 ∧ first = 0xA0 ∨ b ≠ 0xE0 ∧ first = 0x80) ∧
      (b = 0xED ∧ last = 0x9F ∨ b ≠ 0xED ∧ last = 0xBF) := by
  by_cases hfirst : b = 0xE0
  · subst hfirst
    exact ⟨0xA0, 0xBF, rfl, by omega, by omega⟩
  · by_cases hlast : b = 0xED
    · subst hlast
      exact ⟨0x80, 0x9F, rfl, by omega, by omega⟩
    · refine ⟨0x80, 0xBF, ?_, by omega, by omega⟩
      rw [pending?, if_neg (by omega), if_neg hfirst, if_neg hlast, if_pos (by omega)]

theorem pending?_four {b : Nat} (h : 0xF0 ≤ b) (h' : b ≤ 0xF4) :
    ∃ first last, pending? b = some ⟨b - 0xF0, 2, first, last⟩ ∧
      (b = 0xF0 ∧ first = 0x90 ∨ b ≠ 0xF0 ∧ first = 0x80) ∧
      (b = 0xF4 ∧ last = 0x8F ∨ b ≠ 0xF4 ∧ last = 0xBF) := by
  by_cases hfirst : b = 0xF0
  · subst hfirst
    exact ⟨0x90, 0xBF, rfl, by omega, by omega⟩
  · by_cases hlast : b = 0xF4
    · subst hlast
      exact ⟨0x80, 0x8F, rfl, by omega, by omega⟩
    · refine ⟨0x80, 0xBF, ?_, by omega, by omega⟩
      rw [pending?, if_neg (by omega), if_neg (by omega), if_neg (by omega), if_neg (by omega),
        if_neg hfirst, if_pos (by omega)]

theorem pending?_eq_none {b : Nat} (h : b < 0xC2 ∨ 0xF4 < b) : pending? b = none := by
  rw [pending?, if_neg (by omega), if_neg (by omega), if_neg (by omega), if_neg (by omega),
    if_neg (by omega), if_neg (by omega), if_neg (by omega)]

theorem Completes.ne_nil {p : Pending} {bytes : List UInt8} {c : Char} (h : Completes p bytes c) :
    bytes ≠ [] := by
  cases h with
  | last => exact List.cons_ne_nil _ _
  | next => exact List.cons_ne_nil _ _

theorem Completes.of_zero {value first last : Nat} {bytes : List UInt8} {c : Char}
    (h : Completes ⟨value, 0, first, last⟩ bytes c) :
    ∃ b, bytes = [b] ∧ first ≤ b.toNat ∧ b.toNat ≤ last ∧
      c = Char.ofNat (value * 64 + (b.toNat - 0x80)) := by
  cases h with
  | last hfirst hlast => exact ⟨_, rfl, hfirst, hlast, rfl⟩

theorem Completes.of_succ {value more first last : Nat} {bytes : List UInt8} {c : Char}
    (h : Completes ⟨value, more + 1, first, last⟩ bytes c) :
    ∃ b rest, bytes = b :: rest ∧ first ≤ b.toNat ∧ b.toNat ≤ last ∧
      Completes ⟨value * 64 + (b.toNat - 0x80), more, 0x80, 0xBF⟩ rest c := by
  cases h with
  | next hfirst hlast hrest => exact ⟨_, _, rfl, hfirst, hlast, hrest⟩

/-- A first byte and the bytes that complete its character are the bytes of that character. -/
theorem utf8EncodeChar_of_completes {b : UInt8} {p : Pending} {bytes : List UInt8} {c : Char}
    (hb : pending? b.toNat = some p) (h : Completes p bytes c) :
    String.utf8EncodeChar c = b :: bytes := by
  have hlt := b.toNat_lt
  have hcases : (b.toNat < 0xC2 ∨ 0xF4 < b.toNat) ∨ (0xC2 ≤ b.toNat ∧ b.toNat ≤ 0xDF) ∨
      (0xE0 ≤ b.toNat ∧ b.toNat ≤ 0xEF) ∨ (0xF0 ≤ b.toNat ∧ b.toNat ≤ 0xF4) := by omega
  rcases hcases with hnone | ⟨hl, hu⟩ | ⟨hl, hu⟩ | ⟨hl, hu⟩
  · rw [pending?_eq_none hnone] at hb
    cases hb
  · rw [pending?_two hl hu, Option.some.injEq] at hb
    subst hb
    obtain ⟨b₁, rfl, hl₁, hu₁, hc⟩ := h.of_zero
    rw [utf8EncodeChar_eq hc (by omega), if_neg (by omega), if_pos (by omega),
      ofNat_eq_of_mod (b := b) (by omega), ofNat_eq_of_mod (b := b₁) (by omega)]
  · obtain ⟨first, last, hp, hfirst, hlast⟩ := pending?_three hl hu
    rw [hp, Option.some.injEq] at hb
    subst hb
    obtain ⟨b₁, _, rfl, hl₁, hu₁, h⟩ := h.of_succ
    obtain ⟨b₂, rfl, hl₂, hu₂, hc⟩ := h.of_zero
    rw [utf8EncodeChar_eq hc (by omega), if_neg (by omega), if_neg (by omega), if_pos (by omega),
      ofNat_eq_of_mod (b := b) (by omega), ofNat_eq_of_mod (b := b₁) (by omega),
      ofNat_eq_of_mod (b := b₂) (by omega)]
  · obtain ⟨first, last, hp, hfirst, hlast⟩ := pending?_four hl hu
    rw [hp, Option.some.injEq] at hb
    subst hb
    obtain ⟨b₁, _, rfl, hl₁, hu₁, h⟩ := h.of_succ
    obtain ⟨b₂, _, rfl, hl₂, hu₂, h⟩ := h.of_succ
    obtain ⟨b₃, rfl, hl₃, hu₃, hc⟩ := h.of_zero
    rw [utf8EncodeChar_eq hc (by omega), if_neg (by omega), if_neg (by omega), if_neg (by omega),
      ofNat_eq_of_mod (b := b) (by omega), ofNat_eq_of_mod (b := b₁) (by omega),
      ofNat_eq_of_mod (b := b₂) (by omega), ofNat_eq_of_mod (b := b₃) (by omega)]

theorem Completes.of_eq {value first last : Nat} {b : UInt8} {n : Nat} (hfirst : first ≤ b.toNat)
    (hlast : b.toNat ≤ last) (hn : n = value * 64 + (b.toNat - 0x80)) :
    Completes ⟨value, 0, first, last⟩ [b] (Char.ofNat n) := by
  rw [hn]
  exact .last hfirst hlast

theorem exists_byte {n : Nat} (h : n < 256) : ∃ b : UInt8, UInt8.ofNat n = b ∧ b.toNat = n :=
  ⟨_, rfl, by rw [UInt8.toNat_ofNat', Nat.mod_eq_of_lt h]⟩

/-- A character is one byte below 0x80, or a first byte with the bytes that complete it. -/
theorem utf8EncodeChar_cases (c : Char) :
    (∃ b : UInt8, String.utf8EncodeChar c = [b] ∧ b.toNat < 0x80 ∧ c = Char.ofNat b.toNat) ∨
      ∃ (b : UInt8) (bytes : List UInt8) (p : Pending), String.utf8EncodeChar c = b :: bytes ∧
        pending? b.toNat = some p ∧ Completes p bytes c := by
  have hn : c.toNat < 0xD800 ∨ 0xDFFF < c.toNat ∧ c.toNat < 0x110000 := c.valid
  have hc : c = Char.ofNat c.toNat := (Char.ofNat_toNat c).symm
  rw [utf8EncodeChar_eq hc hn]
  generalize c.toNat = n at hc hn
  rw [hc]
  by_cases hone : n ≤ 0x7F
  · obtain ⟨b, hb, hbn⟩ := exists_byte (n := n) (by omega)
    rw [if_pos hone, hb]
    exact .inl ⟨b, rfl, by omega, by rw [hbn]⟩
  right
  rw [if_neg hone]
  obtain ⟨z, hz, hzn⟩ := exists_byte (n := n % 64 + 0x80) (by omega)
  rw [hz]
  by_cases htwo : n ≤ 0x7FF
  · obtain ⟨b, hb, hbn⟩ := exists_byte (n := n / 64 % 32 + 0xC0) (by omega)
    rw [if_pos htwo, hb]
    exact ⟨b, [z], _, rfl, pending?_two (by omega) (by omega),
      .of_eq (by omega) (by omega) (by omega)⟩
  rw [if_neg htwo]
  obtain ⟨y, hy, hyn⟩ := exists_byte (n := n / 64 % 64 + 0x80) (by omega)
  rw [hy]
  by_cases hthree : n ≤ 0xFFFF
  · obtain ⟨b, hb, hbn⟩ := exists_byte (n := n / 4096 % 16 + 0xE0) (by omega)
    obtain ⟨first, last, hp, hfirst, hlast⟩ := pending?_three (b := b.toNat) (by omega) (by omega)
    rw [if_pos hthree, hb]
    exact ⟨b, [y, z], _, rfl, hp,
      .next (by omega) (by omega) (.of_eq (by omega) (by omega) (by omega))⟩
  · obtain ⟨b, hb, hbn⟩ := exists_byte (n := n / 262144 % 8 + 0xF0) (by omega)
    obtain ⟨x, hx, hxn⟩ := exists_byte (n := n / 4096 % 64 + 0x80) (by omega)
    obtain ⟨first, last, hp, hfirst, hlast⟩ := pending?_four (b := b.toNat) (by omega) (by omega)
    rw [if_neg hthree, hb, hx]
    exact ⟨b, [x, y, z], _, rfl, hp, .next (by omega) (by omega)
      (.next (by omega) (by omega) (.of_eq (by omega) (by omega) (by omega)))⟩

theorem completes_of_utf8EncodeChar {b : UInt8} {bytes : List UInt8} {p : Pending} {c : Char}
    (h : String.utf8EncodeChar c = b :: bytes) (hp : pending? b.toNat = some p) :
    Completes p bytes c := by
  rcases utf8EncodeChar_cases c with ⟨b', hb, hlt, -⟩ | ⟨b', bytes', p', hb, hp', hbytes⟩
  · rw [h, List.cons.injEq] at hb
    rw [hb.1, pending?_eq_none (by omega)] at hp
    cases hp
  · rw [h, List.cons.injEq] at hb
    rw [← hb.1, hp, Option.some.injEq] at hp'
    rw [hp', hb.2]
    exact hbytes

/-- A byte that begins no character of several bytes is a character by itself or none. -/
theorem eq_nil_of_utf8EncodeChar {b : UInt8} {bytes : List UInt8} {c : Char}
    (h : String.utf8EncodeChar c = b :: bytes) (hp : pending? b.toNat = none) : bytes = [] := by
  rcases utf8EncodeChar_cases c with ⟨b', hb, -⟩ | ⟨b', bytes', p', hb, hp', -⟩
  · rw [h, List.cons.injEq] at hb
    exact hb.2
  · rw [h, List.cons.injEq] at hb
    rw [← hb.1, hp] at hp'
    cases hp'

theorem utf8EncodeChar_of_lt {b : UInt8} (h : b.toNat < 0x80) :
    String.utf8EncodeChar (Char.ofNat b.toNat) = [b] := by
  rw [utf8EncodeChar_eq rfl (by omega), if_pos (by omega), ofNat_eq_of_mod (b := b) (by omega)]

/-! ## The decoder -/

/-- Some byte continues a character of which some bytes have been read. -/
structure Pending.Open (p : Pending) : Prop where
  first_le_last : p.first ≤ p.last
  last_lt : p.last < 0x100

theorem open_tail (value more : Nat) : Pending.Open ⟨value, more, 0x80, 0xBF⟩ :=
  ⟨by show 0x80 ≤ 0xBF; omega, by show 0xBF < 0x100; omega⟩

theorem open_of_pending? {b : Nat} {p : Pending} (h : pending? b = some p) : p.Open := by
  have hcases : (b < 0xC2 ∨ 0xF4 < b) ∨ (0xC2 ≤ b ∧ b ≤ 0xDF) ∨ (0xE0 ≤ b ∧ b ≤ 0xEF) ∨
      (0xF0 ≤ b ∧ b ≤ 0xF4) := by omega
  rcases hcases with hnone | ⟨hl, hu⟩ | ⟨hl, hu⟩ | ⟨hl, hu⟩
  · rw [pending?_eq_none hnone] at h
    cases h
  · rw [pending?_two hl hu, Option.some.injEq] at h
    subst h
    exact open_tail _ _
  · obtain ⟨first, last, hp, hfirst, hlast⟩ := pending?_three hl hu
    rw [hp, Option.some.injEq] at h
    subst h
    exact ⟨by show first ≤ last; omega, by show last < 0x100; omega⟩
  · obtain ⟨first, last, hp, hfirst, hlast⟩ := pending?_four hl hu
    rw [hp, Option.some.injEq] at h
    subst h
    exact ⟨by show first ≤ last; omega, by show last < 0x100; omega⟩

/-- What has been read of a character can be completed. -/
theorem Pending.Open.exists_completes {p : Pending} (h : p.Open) :
    ∃ bytes c, Completes p bytes c := by
  obtain ⟨value, more, first, last⟩ := p
  induction more generalizing value first last with
  | zero =>
    obtain ⟨b, -, hb⟩ := exists_byte (n := first) (Nat.lt_of_le_of_lt h.1 h.2)
    have hlast : first ≤ last := h.1
    exact ⟨[b], _, .last (by omega) (by omega)⟩
  | succ more ih =>
    obtain ⟨b, -, hb⟩ := exists_byte (n := first) (Nat.lt_of_le_of_lt h.1 h.2)
    have hlast : first ≤ last := h.1
    obtain ⟨bytes, c, hrest⟩ := ih (value * 64 + (b.toNat - 0x80)) 0x80 0xBF (open_tail _ _)
    exact ⟨b :: bytes, c, .next (by omega) (by omega) hrest⟩

theorem decodeFrom_some_cons (p : Pending) (b : UInt8) (rest : List UInt8) :
    decodeFrom (some p) (b :: rest) =
      (feed (some p) b.toNat).1 ++ decodeFrom (feed (some p) b.toNat).2 rest := rfl

theorem decode_cons (b : UInt8) (rest : List UInt8) :
    decode (b :: rest) = (start b.toNat).1 ++ decodeFrom (start b.toNat).2 rest := rfl

theorem decodeFrom_next {value more first last : Nat} {b : UInt8} (hfirst : first ≤ b.toNat)
    (hlast : b.toNat ≤ last) (rest : List UInt8) :
    decodeFrom (some ⟨value, more + 1, first, last⟩) (b :: rest) =
      decodeFrom (some ⟨value * 64 + (b.toNat - 0x80), more, 0x80, 0xBF⟩) rest := by
  rw [decodeFrom_some_cons, feed, if_pos ⟨hfirst, hlast⟩]
  rfl

theorem decodeFrom_last {value first last : Nat} {b : UInt8} (hfirst : first ≤ b.toNat)
    (hlast : b.toNat ≤ last) (rest : List UInt8) :
    decodeFrom (some ⟨value, 0, first, last⟩) (b :: rest) =
      Char.ofNat (value * 64 + (b.toNat - 0x80)) :: decode rest := by
  rw [decodeFrom_some_cons, feed, if_pos ⟨hfirst, hlast⟩]
  rfl

/-- A byte that does not continue a character ends it and is read anew. -/
theorem decodeFrom_broken {p : Pending} {b : UInt8} (h : ¬ (p.first ≤ b.toNat ∧ b.toNat ≤ p.last))
    (rest : List UInt8) : decodeFrom (some p) (b :: rest) = replacement :: decode (b :: rest) := by
  rw [decodeFrom_some_cons, feed, if_neg h]
  rfl

theorem decodeFrom_completes {p : Pending} {bytes : List UInt8} {c : Char}
    (h : Completes p bytes c) (rest : List UInt8) :
    decodeFrom (some p) (bytes ++ rest) = c :: decode rest := by
  induction h with
  | last hfirst hlast => exact decodeFrom_last hfirst hlast rest
  | next hfirst hlast _ ih => rw [List.cons_append, decodeFrom_next hfirst hlast, ih]

theorem start_of_pending? {b : Nat} {p : Pending} (h : pending? b = some p) :
    start b = ([], some p) := by
  have hb : ¬ b < 0x80 := by
    intro hlt
    rw [pending?_eq_none (by omega)] at h
    cases h
  rw [start, if_neg hb, h]

/-- The bytes of a character are read as this character. -/
theorem decode_utf8EncodeChar_append (c : Char) (rest : List UInt8) :
    decode (String.utf8EncodeChar c ++ rest) = c :: decode rest := by
  rcases utf8EncodeChar_cases c with ⟨b, hb, hlt, hc⟩ | ⟨b, bytes, p, hb, hp, hbytes⟩
  · rw [hb, List.singleton_append, decode_cons, start, if_pos hlt, ← hc]
    rfl
  · rw [hb, List.cons_append, decode_cons, start_of_pending? hp, List.nil_append]
    exact decodeFrom_completes hbytes rest

/-- A character that is completed by `part ++ more` is in some state after `part`, and this state is
completed by the same bytes with which `part` is continued to a character. -/
theorem Completes.exists_state {p : Pending} {part more : List UInt8} {c : Char}
    (h : Completes p (part ++ more) c) (hp : p.Open) (hmore : more ≠ []) :
    ∃ q : Pending, q.Open ∧
      (∀ rest, decodeFrom (some p) (part ++ rest) = decodeFrom (some q) rest) ∧
      ∀ bytes d, Completes q bytes d → Completes p (part ++ bytes) d := by
  induction part generalizing p with
  | nil => exact ⟨p, hp, fun _ => rfl, fun _ _ hd => hd⟩
  | cons b part ih =>
    obtain ⟨value, count, first, last⟩ := p
    cases count with
    | zero =>
      obtain ⟨b', hbytes, -⟩ := h.of_zero
      rw [List.cons_append, List.cons.injEq, List.append_eq_nil_iff] at hbytes
      exact absurd hbytes.2.2 hmore
    | succ count =>
      obtain ⟨b', bytes', hbytes, hfirst, hlast, hrest⟩ := h.of_succ
      rw [List.cons_append, List.cons.injEq] at hbytes
      rw [← hbytes.1] at hfirst hlast hrest
      rw [← hbytes.2] at hrest
      obtain ⟨q, hq, hreads, hcompletes⟩ := ih hrest (open_tail _ _)
      refine ⟨q, hq, fun rest => ?_, fun bytes d hd => .next hfirst hlast (hcompletes bytes d hd)⟩
      rw [List.cons_append, decodeFrom_next hfirst hlast, hreads]

/-- A state after bytes of a character that can be continued no further gives one mark. -/
theorem decodeFrom_of_longest {q : Pending} (hq : q.Open) {part rest : List UInt8}
    (hpart : ∀ bytes d, Completes q bytes d → String.utf8EncodeChar d = part ++ bytes)
    (h : Broken part rest) : decodeFrom (some q) rest = replacement :: decode rest := by
  cases rest with
  | nil => rfl
  | cons b rest =>
    apply decodeFrom_broken
    rintro ⟨hfirst, hlast⟩
    obtain ⟨value, count, first, last⟩ := q
    cases count with
    | zero =>
      have hchar := hpart [b] _ (.last hfirst hlast)
      refine absurd ?_ (h.noCharacter (Char.ofNat (value * 64 + (b.toNat - 0x80))))
      rw [hchar]
      exact ⟨rest, by simp⟩
    | succ count =>
      obtain ⟨bytes, d, hd⟩ := (open_tail (value * 64 + (b.toNat - 0x80)) count).exists_completes
      have hchar := hpart (b :: bytes) d (.next hfirst hlast hd)
      have hlonger := h.longest (part ++ [b]) ⟨rest, by simp⟩
        ⟨by simp, d, bytes, hd.ne_nil, by simp [hchar]⟩
      rw [List.length_append, List.length_singleton] at hlonger
      omega

theorem decode_broken {part rest : List UInt8} (h : Broken part rest) :
    decode (part ++ rest) = replacement :: decode rest := by
  obtain ⟨b, part', hpart⟩ := List.exists_cons_of_ne_nil h.ne_nil
  cases hp : pending? b.toNat with
  | some p =>
    -- The first byte begins a character, which `part` continues as far as it can be.
    have hpartial : ∃ c more, more ≠ [] ∧ String.utf8EncodeChar c = part ++ more := by
      rcases h.begins with hpartial | ⟨b', hsingle⟩
      · exact hpartial.2
      · obtain ⟨bytes, c, hbytes⟩ := (open_of_pending? hp).exists_completes
        rw [hpart, List.cons.injEq] at hsingle
        refine ⟨c, bytes, hbytes.ne_nil, ?_⟩
        rw [utf8EncodeChar_of_completes hp hbytes, hpart, hsingle.2]
        rfl
    obtain ⟨c, more, hmore, hchar⟩ := hpartial
    rw [hpart, List.cons_append] at hchar
    obtain ⟨q, hq, hreads, hcompletes⟩ :=
      (completes_of_utf8EncodeChar hchar hp).exists_state (open_of_pending? hp) hmore
    rw [hpart, List.cons_append, decode_cons, start_of_pending? hp, List.nil_append]
    show decodeFrom (some p) (part' ++ rest) = _
    rw [hreads]
    refine decodeFrom_of_longest hq (fun bytes d hd => ?_) h
    rw [utf8EncodeChar_of_completes hp (hcompletes bytes d hd), hpart]
    rfl
  | none =>
    have hsingle : part = [b] := by
      rcases h.begins with ⟨-, c, more, hmore, hchar⟩ | ⟨b', hsingle⟩
      · rw [hpart, List.cons_append] at hchar
        have hnil := eq_nil_of_utf8EncodeChar hchar hp
        rw [List.append_eq_nil_iff] at hnil
        exact absurd hnil.2 hmore
      · rw [hpart, List.cons.injEq] at hsingle
        rw [hpart, hsingle.2]
    have hb : ¬ b.toNat < 0x80 := by
      intro hlt
      refine h.noCharacter (Char.ofNat b.toNat) ?_
      rw [utf8EncodeChar_of_lt hlt, hsingle]
      exact List.prefix_append _ _
    rw [hsingle, List.singleton_append, decode_cons, start, if_neg hb, hp]
    rfl

/-! ## What is read -/

theorem Reads.eq_decode {bytes : List UInt8} {t : Text} (h : Reads bytes t) : t = decode bytes := by
  induction h with
  | nil => rfl
  | character c _ ih => rw [decode_utf8EncodeChar_append, ← ih]
  | broken hpart _ ih => rw [decode_broken hpart, ← ih]

/-- Bytes that begin no character are lengthened until they cannot be continued. -/
theorem exists_broken {part rest : List UInt8} (hbegins : IsPartial part ∨ ∃ b, part = [b])
    (hchar : ∀ c, ¬ String.utf8EncodeChar c <+: part ++ rest) :
    ∃ part' rest', part ++ rest = part' ++ rest' ∧ Broken part' rest' := by
  by_cases hlonger :
      ∃ longer, longer <+: part ++ rest ∧ IsPartial longer ∧ part.length < longer.length
  · obtain ⟨longer, ⟨rest', hrest⟩, hpartial, hlt⟩ := hlonger
    have hless : rest'.length < rest.length := by
      have hlength := congrArg List.length hrest
      rw [List.length_append, List.length_append] at hlength
      omega
    rw [← hrest] at hchar ⊢
    exact exists_broken (.inl hpartial) hchar
  · refine ⟨part, rest, rfl, hchar, hbegins, fun longer hprefix hpartial => ?_⟩
    by_contra hlt
    exact hlonger ⟨longer, hprefix, hpartial, by omega⟩
termination_by rest.length

theorem exists_reads (bytes : List UInt8) : ∃ t, Reads bytes t := by
  cases bytes with
  | nil => exact ⟨[], .nil⟩
  | cons b tail =>
    by_cases hchar : ∃ c, String.utf8EncodeChar c <+: b :: tail
    · obtain ⟨c, rest, hrest⟩ := hchar
      have hless : rest.length ≤ tail.length := by
        have hpos := c.utf8Size_pos
        have hlength := congrArg List.length hrest
        rw [List.length_append, String.length_utf8EncodeChar, List.length_cons] at hlength
        omega
      obtain ⟨t, ht⟩ := exists_reads rest
      rw [← hrest]
      exact ⟨c :: t, .character c ht⟩
    · have hnone : ∀ c, ¬ String.utf8EncodeChar c <+: [b] ++ tail := fun c hc => hchar ⟨c, hc⟩
      obtain ⟨part, rest, hrest, hbroken⟩ := exists_broken (.inr ⟨b, rfl⟩) hnone
      rw [List.singleton_append] at hrest
      have hless : rest.length ≤ tail.length := by
        have hpos := List.length_pos_of_ne_nil hbroken.ne_nil
        have hlength := congrArg List.length hrest
        rw [List.length_cons, List.length_append] at hlength
        omega
      obtain ⟨t, ht⟩ := exists_reads rest
      refine ⟨replacement :: t, ?_⟩
      rw [hrest]
      exact .broken hbroken ht
termination_by bytes.length

theorem reads_iff {bytes : List UInt8} {t : Text} : Reads bytes t ↔ t = decode bytes := by
  constructor
  · exact Reads.eq_decode
  · intro h
    obtain ⟨u, hu⟩ := exists_reads bytes
    rw [h, ← hu.eq_decode]
    exact hu

/-- Bytes that are UTF-8 are read as they are written. -/
theorem decode_bytes (t : Text) : decode (Text.bytes t) = t := by
  induction t with
  | nil => rfl
  | cons c rest ih => rw [Text.bytes_cons, decode_utf8EncodeChar_append, ih]

/-- A character of the text is a mark or stands in the bytes. -/
theorem Reads.mem {bytes : List UInt8} {t : Text} (h : Reads bytes t) {c : Char} (hc : c ∈ t) :
    c = replacement ∨ ∀ b ∈ String.utf8EncodeChar c, b ∈ bytes := by
  induction h with
  | nil => cases hc
  | character d _ ih =>
    rcases List.mem_cons.mp hc with rfl | hc
    · exact .inr fun b hb => List.mem_append_left _ hb
    · exact (ih hc).imp_right fun hbytes b hb => List.mem_append_right _ (hbytes b hb)
  | broken _ _ ih =>
    rcases List.mem_cons.mp hc with rfl | hc
    · exact .inl rfl
    · exact (ih hc).imp_right fun hbytes b hb => List.mem_append_right _ (hbytes b hb)

/-! ## Lines -/

open Text (newlineByte)

theorem utf8EncodeChar_newline : String.utf8EncodeChar '\n' = [newlineByte] := by decide

/-- A prefix without a newline of bytes that go on with a newline ends before it. -/
theorem isPrefix_of_newline {part front rest : List UInt8}
    (h : part <+: front ++ newlineByte :: rest) (hpart : newlineByte ∉ part) : part <+: front := by
  induction front generalizing part with
  | nil =>
    cases part with
    | nil => exact List.nil_prefix
    | cons b part =>
      rw [List.nil_append, List.cons_prefix_cons] at h
      rw [h.1] at hpart
      exact absurd List.mem_cons_self hpart
  | cons b front ih =>
    cases part with
    | nil => exact List.nil_prefix
    | cons b' part =>
      rw [List.cons_append, List.cons_prefix_cons] at h
      rw [List.cons_prefix_cons]
      exact ⟨h.1, ih h.2 fun hmem => hpart (List.mem_cons_of_mem _ hmem)⟩

theorem newline_not_mem_of_isPartial {part : List UInt8} (h : IsPartial part) :
    newlineByte ∉ part := by
  intro hmem
  obtain ⟨hne, c, more, hmore, hchar⟩ := h
  have hc : newlineByte ∈ String.utf8EncodeChar c := by
    rw [hchar]
    exact List.mem_append_left _ hmem
  rw [Text.eq_newline_of_mem_utf8EncodeChar hc, utf8EncodeChar_newline] at hchar
  have hlength := congrArg List.length hchar
  have hpos := List.length_pos_of_ne_nil hne
  have hpos' := List.length_pos_of_ne_nil hmore
  rw [List.length_singleton, List.length_append] at hlength
  omega

/-- What follows a newline does not matter for the bytes before it. -/
theorem Broken.append_newline {part rest : List UInt8} (h : Broken part rest) (more : List UInt8) :
    Broken part (rest ++ newlineByte :: more) := by
  constructor
  · intro c hc
    rw [← List.append_assoc] at hc
    by_cases hnewline : newlineByte ∈ String.utf8EncodeChar c
    · rw [Text.eq_newline_of_mem_utf8EncodeChar hnewline, utf8EncodeChar_newline] at hc
      refine h.noCharacter '\n' ?_
      obtain ⟨b, part', hpart⟩ := List.exists_cons_of_ne_nil h.ne_nil
      rw [hpart, List.cons_append, List.cons_append, List.cons_prefix_cons] at hc
      rw [utf8EncodeChar_newline, hpart, List.cons_append, List.cons_prefix_cons]
      exact ⟨hc.1, List.nil_prefix⟩
    · exact h.noCharacter c (isPrefix_of_newline hc hnewline)
  · exact h.begins
  · intro longer hlonger hpartial
    rw [← List.append_assoc] at hlonger
    exact h.longest longer (isPrefix_of_newline hlonger (newline_not_mem_of_isPartial hpartial))
      hpartial

theorem Reads.append_newline {bytes more : List UInt8} {t u : Text} (h : Reads bytes t)
    (hmore : Reads more u) : Reads (bytes ++ newlineByte :: more) (t ++ '\n' :: u) := by
  induction h with
  | nil =>
    have hline := Reads.character '\n' hmore
    rwa [utf8EncodeChar_newline] at hline
  | character c _ ih =>
    rw [List.append_assoc, List.cons_append]
    exact .character c ih
  | broken hpart _ ih =>
    rw [List.append_assoc, List.cons_append]
    exact .broken (hpart.append_newline more) ih

theorem Reads.newline_not_mem {bytes : List UInt8} {t : Text} (h : Reads bytes t)
    (hbytes : newlineByte ∉ bytes) : ∀ c ∈ t, (c == '\n') = false := by
  intro c hc
  rw [beq_eq_false_iff_ne]
  intro hnewline
  rw [hnewline] at hc
  rcases h.mem hc with hmark | hmem
  · cases hmark
  · rw [utf8EncodeChar_newline] at hmem
    exact hbytes (hmem newlineByte (List.mem_singleton_self _))

/-- Lines are read each by itself. -/
theorem Reads.forall₂_pieces {bytes : List UInt8} {t : Text} (h : Reads bytes t) :
    List.Forall₂ Reads (bytes.splitOn newlineByte) (Text.pieces (· == '\n') t) := by
  by_cases hbytes : newlineByte ∈ bytes
  · obtain ⟨front, rest, hsplit, hfront⟩ := List.eq_append_cons_of_mem hbytes
    have hless : rest.length < bytes.length := by
      rw [hsplit, List.length_append, List.length_cons]
      omega
    obtain ⟨u, hu⟩ := exists_reads front
    obtain ⟨v, hv⟩ := exists_reads rest
    have htext : t = u ++ '\n' :: v := by
      rw [hsplit] at h
      rw [h.eq_decode, (hu.append_newline hv).eq_decode]
    have hcut : Text.pieces (· == '\n') (u ++ '\n' :: v) =
        Text.pieces (· == '\n') u ++ Text.pieces (· == '\n') v := Text.pieces_append_stop rfl u v
    rw [htext, hsplit, List.splitOn_append_cons_of_beq _ _ BEq.rfl,
      List.splitOn_eq_singleton hfront, hcut, Text.pieces_of_forall (hu.newline_not_mem hfront)]
    exact .cons hu hv.forall₂_pieces
  · rw [List.splitOn_eq_singleton hbytes, Text.pieces_of_forall (h.newline_not_mem hbytes)]
    exact .cons h .nil
termination_by bytes.length

end Utf8

namespace Input

theorem findIdx?_zero_eq_none {bytes : List UInt8} (h : 0 ∉ bytes) :
    bytes.findIdx? (· == 0) = none := by
  rw [List.findIdx?_eq_none_iff]
  intro b hb
  rw [beq_eq_false_iff_ne]
  exact fun hzero => h (hzero ▸ hb)

variable {source : String} {bytes : List UInt8} {limit : Nat}

theorem text_of_large (h : limit < bytes.length) :
    text source bytes limit = .error (.tooLarge source bytes.length limit) := by
  rw [text, if_pos h]

theorem text_of_zero (h : bytes.length ≤ limit) {front rest : List UInt8}
    (hsplit : bytes = front ++ 0 :: rest) (hfront : 0 ∉ front) :
    text source bytes limit = .error (.binary source front.length) := by
  have hfind : bytes.findIdx? (· == 0) = some front.length := by
    rw [hsplit, List.findIdx?_append, findIdx?_zero_eq_none hfront]
    simp [List.findIdx?_cons]
  rw [text, if_neg (by omega), hfind]

theorem text_of_no_zero (h : bytes.length ≤ limit) (hbytes : 0 ∉ bytes) :
    text source bytes limit = .ok (Utf8.decode bytes) := by
  rw [text, if_neg (by omega), findIdx?_zero_eq_none hbytes]

theorem exists_failure_iff :
    (∃ failure, text source bytes limit = .error failure) ↔ limit < bytes.length ∨ 0 ∈ bytes := by
  by_cases hlimit : limit < bytes.length
  · exact ⟨fun _ => .inl hlimit, fun _ => ⟨_, text_of_large hlimit⟩⟩
  · by_cases hbytes : 0 ∈ bytes
    · obtain ⟨front, rest, hsplit, hfront⟩ := List.eq_append_cons_of_mem hbytes
      exact ⟨fun _ => .inr hbytes, fun _ => ⟨_, text_of_zero (by omega) hsplit hfront⟩⟩
    · rw [text_of_no_zero (by omega) hbytes]
      simp [hlimit, hbytes]

/-- An input is refused when it is too long and else when it has a zero byte, of which the first one
is reported.  Any other input has one text; it is that of its characters where it is UTF-8, it has
no zero character, and its lines are the texts of the lines of the input. -/
theorem text_reads_lines (source : String) (bytes : List UInt8) (limit : Nat) :
    ((∃ failure, text source bytes limit = .error failure) ↔ limit < bytes.length ∨ 0 ∈ bytes) ∧
    (limit < bytes.length →
      text source bytes limit = .error (.tooLarge source bytes.length limit)) ∧
    (bytes.length ≤ limit → ∀ front rest, bytes = front ++ 0 :: rest → 0 ∉ front →
      text source bytes limit = .error (.binary source front.length)) ∧
    (bytes.length ≤ limit → 0 ∉ bytes → ∃ t, text source bytes limit = .ok t ∧
      (∀ u, Utf8.Reads bytes u ↔ u = t) ∧ (∀ u, Text.bytes u = bytes → t = u) ∧ '\x00' ∉ t ∧
      List.Forall₂ Utf8.Reads (bytes.splitOn Text.newlineByte) (Text.pieces (· == '\n') t)) := by
  have hreads : Utf8.Reads bytes (Utf8.decode bytes) := Utf8.reads_iff.mpr rfl
  refine ⟨exists_failure_iff, text_of_large, fun h _ _ => text_of_zero h, fun h hbytes =>
    ⟨_, text_of_no_zero h hbytes, fun u => Utf8.reads_iff, ?_, ?_, hreads.forall₂_pieces⟩⟩
  · intro u hu
    rw [← hu, Utf8.decode_bytes]
  · intro hmem
    rcases hreads.mem hmem with hmark | hbyte
    · cases hmark
    · have hcode : String.utf8EncodeChar '\x00' = [0] := by decide
      rw [hcode] at hbyte
      exact hbytes (hbyte 0 (List.mem_singleton_self _))

/-- A character that is broken off at the end of a line, and the two ways to be refused. -/
theorem text_reads_lines_broken :
    text "a.sql" [0x61, 0x00, 0x62, 0x00] 3 = .error (.tooLarge "a.sql" 4 3) ∧
    text "a.sql" [0x61, 0x00, 0x62, 0x00] 4 = .error (.binary "a.sql" 1) ∧
    text "a.sql" [0x61, 0xE2, 0x82, 0x0A, 0x62] 5 = .ok ['a', '\uFFFD', '\n', 'b'] ∧
      List.Forall₂ Utf8.Reads [[0x61, 0xE2, 0x82], [0x62]] [['a', '\uFFFD'], ['b']] := by
  have hrefused := text_reads_lines "a.sql" [0x61, 0x00, 0x62, 0x00]
  obtain ⟨t, ht, -, -, -, hlines⟩ :=
    (text_reads_lines "a.sql" [0x61, 0xE2, 0x82, 0x0A, 0x62] 5).2.2.2 (by decide) (by decide)
  have htext : text "a.sql" [0x61, 0xE2, 0x82, 0x0A, 0x62] 5 = .ok ['a', '\uFFFD', '\n', 'b'] := by
    decide +kernel
  rw [htext, Except.ok.injEq] at ht
  rw [← ht] at hlines
  exact ⟨(hrefused 3).2.1 (by decide),
    (hrefused 4).2.2.1 (by decide) [0x61] [0x62, 0x00] rfl (by decide), htext, hlines⟩

end Input
end SqlAudit
