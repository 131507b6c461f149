import CustomProperties.Proofs.Candidate
import Mathlib.Data.List.Infix

/-!
# Well-formed stylesheets

A stylesheet is a list of rules.  Its grammar stands here as data: every part carries the proof
that its text is what it claims to be, so a value of one of these types renders to a well-formed
stylesheet and cannot do otherwise.

* `Piece`: a part of a rule's prelude, which is text, a comment or a quoted string.
* `Body`: what stands between the braces of a rule, nested to any depth.
* `Stylesheet.render`: the text.
* `Stylesheet.declarations`: the declarations in it, read off the grammar.
-/

namespace CustomProperties.Scan

/-! ## Parts -/

def commentOpen : Text := ['/', '*']

def commentClose : Text := ['*', '/']

structure Comment where
  text : Text
  not_closed : ¬ commentClose <:+: text

def Comment.render (c : Comment) : Text := commentOpen ++ (c.text ++ commentClose)

/-- A quoted string without escapes. -/
structure Quotation where
  quote : Quote
  content : Text
  no_backslash : ('\\' : CodePoint) ∉ content
  not_closed : quote.char ∉ content

def Quotation.render (q : Quotation) : Text := q.quote.char :: (q.content ++ [q.quote.char])

structure Bare (t : Text) : Prop where
  no_quote : ∀ q : Quote, q.char ∉ t
  no_open : ('{' : CodePoint) ∉ t
  no_close : ('}' : CodePoint) ∉ t
  no_comment : ¬ commentOpen <:+: t

theorem bare_iff {t : Text} : Bare t ↔ (Quote.single.char ∉ t ∧ Quote.double.char ∉ t) ∧
    ('{' : CodePoint) ∉ t ∧ ('}' : CodePoint) ∉ t ∧ ¬ commentOpen <:+: t := by
  constructor
  · intro h
    exact ⟨⟨h.no_quote .single, h.no_quote .double⟩, h.no_open, h.no_close, h.no_comment⟩
  · rintro ⟨⟨hSingle, hDouble⟩, hOpen, hClose, hComment⟩
    refine ⟨?_, hOpen, hClose, hComment⟩
    intro q
    cases q with
    | single => exact hSingle
    | double => exact hDouble

instance (t : Text) : Decidable (Bare t) := decidable_of_iff' _ bare_iff

/-- Text in a prelude outside every block. -/
structure Chunk where
  text : Text
  bare : Bare text
  not_slash : text.getLast? ≠ some ('/' : CodePoint)
  not_backslash : text.getLast? ≠ some ('\\' : CodePoint)

/-- Text inside a block that holds no candidate. -/
structure Plain where
  text : Text
  bare : Bare text
  no_hyphens : ¬ PropertyName.mark <:+: text

/-! ## Rules -/

inductive Piece
  | chunk (c : Chunk)
  | comment (c : Comment)
  | quotation (q : Quotation)

/-- What stands between the braces of a rule: any list of items, and a last declaration without a
semicolon at its end if there is one.  A plain item is closed by a semicolon and may hold others. -/
inductive Body (config : Config)
  | done
  | last (d : Spelling config)
  | blanks (t : Text) (blank : t.isBlank = true) (rest : Body config)
  | comment (c : Comment) (rest : Body config)
  | plain (p : Plain) (rest : Body config)
  | declaration (d : Spelling config) (rest : Body config)
  | rule (prelude : Plain) (inner rest : Body config)

structure Rule (config : Config) where
  prelude : List Piece
  body : Body config

abbrev Stylesheet (config : Config) := List (Rule config)

/-! ## Text -/

def Piece.render : Piece → Text
  | chunk c => c.text
  | comment c => c.render
  | quotation q => q.render

def Body.render {config : Config} : Body config → Text
  | done => []
  | last d => d.head ++ d.value
  | blanks t _ rest => t ++ rest.render
  | comment c rest => c.render ++ rest.render
  | plain p rest => p.text ++ (';' : CodePoint) :: rest.render
  | declaration d rest => d.head ++ (d.value ++ (';' : CodePoint) :: rest.render)
  | rule p inner rest =>
    p.text ++ ('{' : CodePoint) :: (inner.render ++ ('}' : CodePoint) :: rest.render)

def Rule.render {config : Config} (r : Rule config) : Text :=
  r.prelude.flatMap Piece.render ++ ('{' : CodePoint) :: (r.body.render ++ [('}' : CodePoint)])

def Stylesheet.render {config : Config} (sheet : Stylesheet config) : Text :=
  sheet.flatMap Rule.render

/-! ## Declarations -/

def kept (config : Config) (t : Text) : Text := if config.keepStrings then t else []

def Piece.shown (config : Config) : Piece → Text
  | chunk c => c.text
  | comment _ => []
  | quotation q => kept config q.render

def Rule.selector {config : Config} (r : Rule config) : Text :=
  let shown := Text.trim (r.prelude.flatMap (Piece.shown config))
  if shown = [] then config.fallbackSelector else shown

def Body.declarations {config : Config} (selector : Text) :
    (offset : Nat) → Body config → List Declaration
  | _, done => []
  | offset, last d => [d.declaration selector offset]
  | offset, blanks t _ rest => rest.declarations selector (offset + t.length)
  | offset, comment c rest => rest.declarations selector (offset + c.render.length)
  | offset, plain p rest => rest.declarations selector (offset + p.text.length + 1)
  | offset, declaration d rest =>
    d.declaration selector offset
      :: rest.declarations selector (offset + d.head.length + d.value.length + 1)
  | offset, rule p inner rest =>
    inner.declarations selector (offset + p.text.length + 1)
      ++ rest.declarations selector (offset + p.text.length + 1 + inner.render.length + 1)

def Stylesheet.declarations {config : Config} :
    (offset : Nat) → Stylesheet config → List Declaration
  | _, [] => []
  | offset, r :: rest =>
    r.body.declarations r.selector (offset + (r.prelude.flatMap Piece.render).length + 1)
      ++ declarations (offset + r.render.length) rest

end CustomProperties.Scan
