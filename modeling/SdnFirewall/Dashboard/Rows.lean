import SdnFirewall.Common.Escape
import SdnFirewall.Common.Html

/-!
# The rows of the dashboard

What the page builds from the answers of the controller: an entry of the log, a pattern of the DPI
list, a blocked address. Every string of an answer goes through `escapeHTML`; what is put into the
page in other ways (a class name set as a property, numbers, counters set as text) is left out.
-/

namespace SdnFirewall

open Common

/-- `escapeHTML`. -/
def escapeHTML (s : JsString) : JsString :=
  let s := replaceAll ampersand (js "&amp;") s
  let s := replaceAll lessThan (js "&lt;") s
  let s := replaceAll greaterThan (js "&gt;") s
  let s := replaceAll quotationMark (js "&quot;") s
  replaceAll apostrophe (js "&#39;") s

/-- The five entities, each without its ampersand. -/
def htmlEntities : List (UInt16 × JsString) :=
  [(ampersand, js "amp;"), (lessThan, js "lt;"), (greaterThan, js "gt;"),
    (quotationMark, js "quot;"), (apostrophe, js "#39;")]

/-- The code that the five replacements make up. -/
def htmlCode : EscapeCode UInt16 where
  marker := ampersand
  table := htmlEntities
  nodup := by decide
  marker_mem := by decide
  plain := by
    have hall : ∀ p ∈ htmlEntities, (p.2.all fun x => x ∉ htmlEntities.map Prod.fst) = true := by
      decide
    exact fun p hp x hx => of_decide_eq_true (List.all_eq_true.mp (hall p hp) x hx)
  prefixFree := by decide

/-- Decoding the five entities in one pass. -/
def unescapeHTML (s : JsString) : JsString := htmlCode.decode s

/-- The replacements in sequence come to one encoding, letter by letter. -/
theorem escapeHTML_eq_encode (s : JsString) : escapeHTML s = htmlCode.encode s :=
  EscapeCode.replaceEach_eq_encode (E := htmlCode) rfl s

/-! ## Templates -/

/-- An entry of the log, as `appendLog` gets it; a missing `extra` is empty. -/
structure LogView where
  ts : JsString
  level : JsString
  msg : JsString
  extra : JsString

/-- `appendLog`: what is put into the new element. -/
def logRow (toUpperCase : JsString → JsString) (entry : LogView) : List Piece :=
  let extraStyle := if (js "DPI").isPrefixOf entry.extra then "style=\"color:var(--text);\"" else ""
  [.markup "\n    <span class=\"log-ts\">", .text entry.ts,
    .markup "</span>\n    <span class=\"log-lvl\">", .text (toUpperCase entry.level),
    .markup "</span>\n    <span class=\"log-msg\">", .text entry.msg,
    .markup "</span>\n    <span class=\"log-extra\" ", .markup extraStyle, .markup ">",
    .text entry.extra, .markup "</span>\n  "]

/-- A pattern, as `fetchDPIPatterns` gets it; a missing body or description is empty. -/
structure PatternView where
  name : JsString
  rawPattern : JsString
  description : JsString
  builtin : Bool

/-- `fetchDPIPatterns`: the row of one pattern. -/
def patternRow (p : PatternView) : List Piece :=
  let cls := if p.builtin then "builtin" else "user"
  let tag := if p.builtin then "BUILT-IN" else "USER"
  let removeBtn : List Piece :=
    if p.builtin then []
    else [.markup "<span class=\"rm\" title=\"Remove\" onclick=\"removeDPIPattern('",
      .text p.name, .markup "')\">×</span>"]
  let desc : List Piece :=
    if escapeHTML p.description = [] then []
    else [.markup "<div class=\"dpi-pattern-desc\" title=\"", .text p.description, .markup "\">",
      .text p.description, .markup "</div>"]
  [.markup "\n      <div class=\"dpi-pattern ", .markup cls,
    .markup "\">\n        <div class=\"dpi-pattern-head\">\n          ",
    .markup "<span class=\"dpi-pattern-name\">", .text p.name,
    .markup "</span>\n          <span style=\"display:flex;align-items:center;gap:6px;\">\n",
    .markup "            <span class=\"dpi-pattern-tag\">", .markup tag,
    .markup "</span>\n            "] ++ removeBtn ++
  [.markup "\n          </span>\n        </div>\n        ",
    .markup "<div class=\"dpi-pattern-regex\" title=\"", .text p.rawPattern, .markup "\">",
    .text p.rawPattern, .markup "</div>\n        "] ++ desc ++
  [.markup "\n      </div>"]

/-- `fetchDPIPatterns`: what is put into the list. -/
def patternRows (patterns : List PatternView) : List Piece :=
  if patterns = [] then
    [.markup "<span style=\"font-family:var(--mono);font-size:11px;color:var(--dim);\">",
      .markup "\u2014 no patterns \u2014</span>"]
  else patterns.flatMap patternRow

/-- `renderIPs`: the tag of one blocked address. -/
def ipTag (ip : JsString) : List Piece :=
  [.markup "\n        <div class=\"tag ip-tag\">\n          ", .text ip,
    .markup "\n          <span class=\"rm\" onclick=\"removeBlockedIP('", .text ip,
    .markup "')\">×</span>\n        </div>"]

/-- `renderIPs`: what is put into the list. -/
def ipTags (ips : List JsString) : List Piece :=
  if ips = [] then
    [.markup "<span style=\"font-family:var(--mono);font-size:11px;color:var(--dim);\">",
      .markup "none</span>"]
  else ips.flatMap ipTag

end SdnFirewall
