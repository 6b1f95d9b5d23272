import SdnFirewall.Dashboard.Rows

/-!
# Escaping in the dashboard

The ampersand is replaced first, so the five replacements are one code: what they give is decoded in
one pass, and the characters that delimit texts and attribute values do not occur in it. The page
has its holes in such places only.
-/

namespace SdnFirewall

open Common

/-- No delimiter of markup is left in an escaped text. -/
theorem notMem_escapeHTML {x : UInt16}
    (hx : x ∈ [lessThan, greaterThan, quotationMark, apostrophe]) (s : JsString) :
    x ∉ escapeHTML s := by
  have hamp : ampersand ∉ [lessThan, greaterThan, quotationMark, apostrophe] := by decide
  have hletter : x ∈ htmlCode.letters := List.mem_cons_of_mem ampersand hx
  -- a letter of the code other than the ampersand is nowhere in what it gives
  rw [escapeHTML_eq_encode]
  exact EscapeCode.notMem_encode hletter (ne_of_mem_of_not_mem hx hamp) s

/-- The delimiters of texts and quoted attribute values are escaped. -/
theorem delimiter_notMem_escapeHTML {q : HtmlState} {d : UInt16} (s : JsString)
    (hq : q.delimiter? = some d) : d ∉ escapeHTML s := by
  refine notMem_escapeHTML ?_ s
  -- a text ends at a tag, a quoted value at its quote, and a tag has no holes
  cases q <;> cases hq <;> decide

/-- Every ampersand in an escaped text begins an entity. -/
theorem prefix_of_escapeHTML_eq {s pre post : JsString}
    (h : escapeHTML s = pre ++ ampersand :: post) : ∃ e ∈ htmlEntities, e.2 <+: post := by
  rw [escapeHTML_eq_encode] at h
  exact EscapeCode.prefix_of_encode_eq (E := htmlCode) h

/-- Decoding the entities gives the text back. -/
theorem unescapeHTML_escapeHTML (s : JsString) : unescapeHTML (escapeHTML s) = s := by
  rw [escapeHTML_eq_encode]
  exact htmlCode.decode_encode s

/-! ## The holes of the rows -/

/-- A row of the event log begins and ends as page text. -/
theorem layout_logRow (toUpperCase : JsString → JsString) (entry : LogView) :
    layout .data (logRow toUpperCase entry) = some .data := by
  unfold logRow
  -- an entry about inspection has a style of its own, so there are two templates to lay out
  split
  all_goals
    simp only [layout]
    repeat rw [js_ofList]
    rfl

set_option maxRecDepth 1000 in
/-- A row of the pattern list begins and ends as page text. -/
theorem layout_patternRow (p : PatternView) : layout .data (patternRow p) = some .data := by
  unfold patternRow
  refine layout_append_self (layout_append_self (layout_append_self (layout_append_self ?_ ?_) ?_)
    ?_) ?_
  · cases p.builtin
    all_goals
      simp only [layout, if_true, if_false, Bool.false_eq_true]
      repeat rw [js_ofList]
      rfl
  · cases p.builtin
    · simp only [layout, if_false, Bool.false_eq_true]
      repeat rw [js_ofList]
      rfl
    · rfl
  · simp only [layout]
    repeat rw [js_ofList]
    rfl
  · split
    · rfl
    · simp only [layout]
      repeat rw [js_ofList]
      rfl
  · simp only [layout]
    rw [js_ofList]
    rfl

/-- So does the list of the rows. -/
theorem layout_patternRows (patterns : List PatternView) :
    layout .data (patternRows patterns) = some .data := by
  unfold patternRows
  split
  · simp only [layout]
    repeat rw [js_ofList]
    rfl
  · exact layout_flatMap layout_patternRow

/-- And the tag of an address. -/
theorem layout_ipTag (ip : JsString) : layout .data (ipTag ip) = some .data := by
  simp only [ipTag, layout]
  repeat rw [js_ofList]
  rfl

/-- And the list of the tags. -/
theorem layout_ipTags (ips : List JsString) : layout .data (ipTags ips) = some .data := by
  unfold ipTags
  split
  · simp only [layout]
    repeat rw [js_ofList]
    rfl
  · exact layout_flatMap layout_ipTag

/-- An escaped text has no delimiter and only the ampersands of the five entities, it is decoded to
the text it came from, and on the page it stays in its hole. -/
theorem escapeHTML_safe :
    (∀ s, ∀ x ∈ [lessThan, greaterThan, quotationMark, apostrophe], x ∉ escapeHTML s) ∧
    (∀ s pre post, escapeHTML s = pre ++ ampersand :: post →
      ∃ e ∈ htmlEntities, e.2 <+: post) ∧
    (∀ s, unescapeHTML (escapeHTML s) = s) ∧
    Function.Injective escapeHTML ∧
    (∀ toUpperCase entry, Contained escapeHTML .data (logRow toUpperCase entry)) ∧
    (∀ patterns, Contained escapeHTML .data (patternRows patterns)) ∧
    (∀ ips, Contained escapeHTML .data (ipTags ips)) := by
  have hesc : ∀ q d s, HtmlState.delimiter? q = some d → d ∉ escapeHTML s :=
    fun _ _ s hq => delimiter_notMem_escapeHTML s hq
  refine ⟨fun s x hx => notMem_escapeHTML hx s, fun s pre post h => prefix_of_escapeHTML_eq h,
    unescapeHTML_escapeHTML, Function.LeftInverse.injective unescapeHTML_escapeHTML, ?_, ?_, ?_⟩
  -- a row whose layout goes through contains what is filled in
  · exact fun toUpperCase entry =>
      (contained_of_layout hesc (layout_logRow toUpperCase entry)).1
  · exact fun patterns => (contained_of_layout hesc (layout_patternRows patterns)).1
  · exact fun ips => (contained_of_layout hesc (layout_ipTags ips)).1

/-- The ampersand in front of a tag's name starts an entity. -/
theorem escapeHTML_safe_tag : ∃ e ∈ htmlEntities, e.2 <+: js "lt;script&gt;" :=
  escapeHTML_safe.2.1 (js "<script>") [] (js "lt;script&gt;") (by decide)

end SdnFirewall
