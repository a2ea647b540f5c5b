import SqlAudit.Text.Basic

/-!
Quoted runs.  Everything that is known about the structure of a text starts here: a reading marks
each character as quoted or not, and the other scanners look at the marks.
-/

namespace SqlAudit

/-- The quotes that delimit literals and identifiers. -/
inductive Quote where
  | single
  | double
  | backtick
  deriving DecidableEq, Repr

namespace Quote

def char : Quote → Char
  | .single => '\x27'
  | .double => '\x22'
  | .backtick => '\x60'

def ofChar? (c : Char) : Option Quote :=
  if c = '\x27' then some .single
  else if c = '\x22' then some .double
  else if c = '\x60' then some .backtick
  else none

end Quote

/-- How a backslash inside a quoted run is read.  The standard knows only the doubled quote, so
that a literal may end in a backslash; under the other convention a backslash makes the next
character part of the run. -/
inductive Escapes where
  | standard
  | backslash
  deriving DecidableEq, Repr

/-- Where a scan stands with respect to quotes. -/
inductive QuoteState where
  | code
  | inside (quote : Quote)
  | escaped (quote : Quote)
  deriving DecidableEq, Repr

namespace QuoteState

/-- Whether a character read in this state belongs to a quoted run, its delimiters included. -/
def holds : QuoteState → Char → Bool
  | .code, c => (Quote.ofChar? c).isSome
  | .inside _, _ => true
  | .escaped _, _ => true

def next (escapes : Escapes) : QuoteState → Char → QuoteState
  | .code, c =>
    match Quote.ofChar? c with
    | some quote => .inside quote
    | none => .code
  | .inside quote, c =>
    -- Backticks quote identifiers, in which no backslash escapes.
    if c = '\\' ∧ escapes = .backslash ∧ quote ≠ .backtick then .escaped quote
    -- A doubled quote needs no state of its own: the run ends and the next one starts.
    else if c = quote.char then .code
    else .inside quote
  | .escaped quote, _ => .inside quote

def open? : QuoteState → Option Quote
  | .code => none
  | .inside quote => some quote
  | .escaped quote => some quote

end QuoteState

/-- A character together with whether it belongs to a quoted run. -/
structure Mark where
  char : Char
  quoted : Bool
  deriving DecidableEq, Repr

namespace Mark

def isCode (m : Mark) (c : Char) : Bool := !m.quoted && m.char == c

end Mark

namespace Text

def quoteState (escapes : Escapes) (t : Text) : QuoteState :=
  t.foldl (QuoteState.next escapes) .code

def openQuote? (escapes : Escapes) (t : Text) : Option Quote := (t.quoteState escapes).open?

def marksFrom (escapes : Escapes) : QuoteState → Text → List Mark
  | _, [] => []
  | state, c :: rest => ⟨c, state.holds c⟩ :: marksFrom escapes (state.next escapes c) rest

def marks (escapes : Escapes) (t : Text) : List Mark := marksFrom escapes .code t

/-- The convention under which the literals of a text close.  The standard one is preferred: the
other is chosen only if the standard leaves a quote open and the other does not. -/
def escapes (t : Text) : Escapes :=
  if (t.openQuote? .standard).isSome && (t.openQuote? .backslash).isNone then .backslash
  else .standard

end Text
end SqlAudit
