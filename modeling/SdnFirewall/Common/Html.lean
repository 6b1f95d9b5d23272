import Mathlib.Data.List.Basic

/-!
# Text between tags

The tokenizer of HTML as far as it tells text, tags and attribute values apart, fed with one code
unit at a time. What opens a comment or a declaration leads to a state that is never left, and
elements whose content is no markup do not occur. A character reference has no state of its own:
what it stands for goes where it stands, and is not tokenized again.

A template is markup with holes in it for escaped texts. If each hole lies in a text or in a quoted
attribute value, no text gets out of its hole, whatever the texts are.
-/

namespace Common

/-- Strings of JavaScript: sequences of 16-bit code units. -/
abbrev JsString := List UInt16

/-- The code units of a text; all its characters lie in the basic plane. -/
def js (s : String) : JsString := s.toList.map fun c => UInt16.ofNat c.toNat

/-- For literals: their characters can be read off, which is fast to compute with. -/
theorem js_ofList (l : List Char) : js (String.ofList l) = l.map fun c => UInt16.ofNat c.toNat := by
  rw [js, String.toList_ofList]

/-! ## The tokenizer -/

inductive HtmlState where
  | data
  | tagOpen
  | endTagOpen
  | tagName
  | beforeAttrName
  | attrName
  | afterAttrName
  | beforeAttrValue
  | attrValueDoubleQuoted
  | attrValueSingleQuoted
  | attrValueUnquoted
  | afterAttrValueQuoted
  | selfClosingStartTag
  | other
deriving DecidableEq

def quotationMark : UInt16 := 0x22
def ampersand : UInt16 := 0x26
def apostrophe : UInt16 := 0x27
def solidus : UInt16 := 0x2f
def lessThan : UInt16 := 0x3c
def equalsSign : UInt16 := 0x3d
def greaterThan : UInt16 := 0x3e

def isAsciiAlpha (c : UInt16) : Bool := (0x41 ≤ c && c ≤ 0x5a) || (0x61 ≤ c && c ≤ 0x7a)

def isHtmlSpace (c : UInt16) : Bool := c == 0x09 || c == 0x0a || c == 0x0c || c == 0x20

/-- How a tag goes on: it ends, closes itself, is left by a space, or none of these. -/
def inTag (space otherwise : HtmlState) (c : UInt16) : HtmlState :=
  if isHtmlSpace c then space
  else if c = solidus then .selfClosingStartTag
  else if c = greaterThan then .data
  else otherwise

/-- The state after one code unit. -/
def HtmlState.step (q : HtmlState) (c : UInt16) : HtmlState :=
  match q with
  | .data => if c = lessThan then .tagOpen else .data
  | .tagOpen =>
    if c = solidus then .endTagOpen
    else if isAsciiAlpha c then .tagName
    else if c = 0x21 ∨ c = 0x3f then .other
    else if c = lessThan then .tagOpen
    else .data
  | .endTagOpen =>
    if isAsciiAlpha c then .tagName
    else if c = greaterThan then .data
    else .other
  | .tagName => inTag .beforeAttrName .tagName c
  | .beforeAttrName => inTag .beforeAttrName .attrName c
  | .attrName => if c = equalsSign then .beforeAttrValue else inTag .afterAttrName .attrName c
  | .afterAttrName => if c = equalsSign then .beforeAttrValue else inTag .afterAttrName .attrName c
  | .beforeAttrValue =>
    if isHtmlSpace c then .beforeAttrValue
    else if c = quotationMark then .attrValueDoubleQuoted
    else if c = apostrophe then .attrValueSingleQuoted
    else if c = greaterThan then .data
    else .attrValueUnquoted
  | .attrValueDoubleQuoted =>
    if c = quotationMark then .afterAttrValueQuoted else .attrValueDoubleQuoted
  | .attrValueSingleQuoted =>
    if c = apostrophe then .afterAttrValueQuoted else .attrValueSingleQuoted
  | .attrValueUnquoted =>
    if isHtmlSpace c then .beforeAttrName
    else if c = greaterThan then .data
    else .attrValueUnquoted
  | .afterAttrValueQuoted => inTag .beforeAttrName .attrName c
  | .selfClosingStartTag => inTag .beforeAttrName .attrName c
  | .other => .other

/-- The state after a string. -/
def tokenize (q : HtmlState) (s : JsString) : HtmlState := s.foldl HtmlState.step q

/-- The code unit that ends a text or a quoted attribute value; elsewhere there is none. -/
def HtmlState.delimiter? : HtmlState → Option UInt16
  | .data => some lessThan
  | .attrValueDoubleQuoted => some quotationMark
  | .attrValueSingleQuoted => some apostrophe
  | _ => none

/-- Inside a context, only its delimiter changes the state. -/
theorem HtmlState.step_of_ne_delimiter {q : HtmlState} {c d : UInt16} (hq : q.delimiter? = some d)
    (hc : c ≠ d) : q.step c = q := by
  cases q <;> cases hq <;> exact if_neg hc

/-- A string without the delimiter is all text. -/
theorem tokenize_of_notMem {q : HtmlState} {d : UInt16} (hq : q.delimiter? = some d) {s : JsString}
    (hd : d ∉ s) : tokenize q s = q := by
  induction s with
  | nil => rfl
  | cons c s ih =>
      rw [List.mem_cons, not_or] at hd
      rw [tokenize, List.foldl_cons, HtmlState.step_of_ne_delimiter hq (Ne.symm hd.1)]
      exact ih hd.2

/-! ## Templates -/

/-- A part of a template: markup of its own, or a hole with a text in it. -/
inductive Piece where
  | markup (s : String)
  | text (s : JsString)

section Templates

variable (esc : JsString → JsString)

def Piece.render : Piece → JsString
  | .markup s => js s
  | .text s => esc s

/-- The string a template gives, the texts escaped. -/
def render (ps : List Piece) : JsString := ps.flatMap (Piece.render esc)

/-- Every hole is reached in a text or a quoted attribute value, and no part of what is in the hole
gets out of it. -/
def Contained : HtmlState → List Piece → Prop
  | _, [] => True
  | q, .markup s :: ps => Contained (tokenize q (js s)) ps
  | q, .text s :: ps =>
    q.delimiter?.isSome ∧ (∀ part, part <+: esc s → tokenize q part = q) ∧ Contained q ps

/-- The state behind a template whose holes all lie in texts and quoted attribute values, as the
markup alone gives it. -/
def layout : HtmlState → List Piece → Option HtmlState
  | q, [] => some q
  | q, .markup s :: ps => layout (tokenize q (js s)) ps
  | q, .text _ :: ps => if q.delimiter?.isSome then layout q ps else none

/-- The layout of a page is that of its first part and then of the rest. -/
theorem layout_append (q : HtmlState) (ps ps' : List Piece) :
    layout q (ps ++ ps') = (layout q ps).bind fun q' => layout q' ps' := by
  induction ps generalizing q with
  | nil => rfl
  | cons p ps ih =>
      cases p with
      | markup s => exact ih _
      | text s =>
          simp only [List.cons_append, layout]
          split
          · exact ih q
          · rfl

/-- Templates that each lead back to where they began do so together. -/
theorem layout_append_self {q : HtmlState} {ps ps' : List Piece} (h : layout q ps = some q)
    (h' : layout q ps' = some q) : layout q (ps ++ ps') = some q := by
  rw [layout_append, h, Option.bind_some, h']

/-- Parts that end in the state they began in may be repeated. -/
theorem layout_flatMap {ι : Type*} {q : HtmlState} {f : ι → List Piece} {l : List ι}
    (h : ∀ i, layout q (f i) = some q) : layout q (l.flatMap f) = some q := by
  induction l with
  | nil => rfl
  | cons i l ih => exact layout_append_self (h i) ih

variable {esc}

/-- A rendered page is tokenized piece by piece. -/
theorem tokenize_render_cons (q : HtmlState) (p : Piece) (ps : List Piece) :
    tokenize q (render esc (p :: ps)) = tokenize (tokenize q (p.render esc)) (render esc ps) := by
  rw [render, List.flatMap_cons, tokenize, List.foldl_append]
  rfl

/-- Where escaped texts have no delimiter, the markup alone decides that they are contained. -/
theorem contained_of_layout
    (hesc : ∀ q d s, HtmlState.delimiter? q = some d → d ∉ esc s) {q q' : HtmlState}
    {ps : List Piece} (h : layout q ps = some q') :
    Contained esc q ps ∧ tokenize q (render esc ps) = q' := by
  induction ps generalizing q with
  | nil => exact ⟨trivial, Option.some.inj h⟩
  | cons p ps ih =>
      cases p with
      | markup s =>
          obtain ⟨hps, hend⟩ := ih h
          refine ⟨hps, ?_⟩
          rw [tokenize_render_cons]
          exact hend
      | text s =>
          rw [layout] at h
          split at h
          swap
          · exact absurd h (by simp)
          rename_i hq
          obtain ⟨d, hd⟩ := Option.isSome_iff_exists.mp hq
          obtain ⟨hps, hend⟩ := ih h
          -- without its delimiter the text does not leave its context
          have hstays : ∀ part, part <+: esc s → tokenize q part = q := fun part hpart =>
            tokenize_of_notMem hd fun hmem => hesc q d s hd (hpart.subset hmem)
          refine ⟨⟨hq, hstays, hps⟩, ?_⟩
          rw [tokenize_render_cons, Piece.render, hstays _ (List.prefix_refl _)]
          exact hend

end Templates

end Common
